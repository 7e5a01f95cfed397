import DtsNet.Socket.Slots

/-!
# Reuse — what a record of the pool keeps of its previous owner

`close` puts a record back into the pool, but leaves the entry of `udp_list` that names it and the
pointer in `module.tcp`, and `socket` sets nothing but the three fields it is called with.  The next
owner of the record takes over what is left.

`Tracked` adds to a host what the results of the calls tell its programs about every descriptor.
`NothingCarried` compares the tables of the host with that, and `CleanStep` describes the steps that
keep the two together.
-/

namespace DtsNet
namespace Socket

open Ip Dblk Tcp Udp

variable {τ : Type} [TimerLib τ]

/-! ## What the programs are told -/

/-- `hostStep` with the result of the call; what arrives has the result 0. -/
def hostCall (h : Host τ) : HostEvent → Option (Host τ × ℤ)
  | .socket domain type protocol => some (socket domain type protocol h)
  | .bind allocUdp nifs fd hostAddr => some (bind allocUdp nifs fd hostAddr h)
  | .listen env nifs fd => listen env nifs fd h
  | .accept env nifs fd => accept env nifs fd h
  | .connect attempts nifs fd destAddr => connect attempts nifs fd destAddr h
  | .sendto env udpSendto fd buf destAddr => sendto env udpSendto fd buf destAddr h
  | .recvfrom fd buf len flags => (recvfrom fd buf len flags h).map fun r => (r.1, r.2.2)
  | .close env fd => close env fd h
  | .udpArrives alloc ip destPort data => some (udpIpRecv alloc ip destPort data h, 0)
  | .tcpArrives env ip dg beyond => some (tcpIpRecv env ip dg beyond h, 0)
  | .loops envs => some (tcpLoop envs h, 0)

/-- A host, and for every descriptor: whether it is open, the interfaces and ports that it bound
since it was handed out, and whether a `connect`, `listen` or `accept` on it succeeded since. -/
structure Tracked (τ : Type) where
  host : Host τ
  isOpen : ℕ → Bool
  bound : ℕ → List (ℕ × UInt32)
  connected : ℕ → Bool

def Tracked.init : Tracked τ :=
  { host := .init
    isOpen := fun _ => false
    bound := fun _ => []
    connected := fun _ => false }

def Tracked.handOut (g : Tracked τ) (fd : ℕ) (connected : Bool) : Tracked τ :=
  { g with
    isOpen := Function.update g.isOpen fd true
    bound := Function.update g.bound fd []
    connected := Function.update g.connected fd connected }

def Tracked.binds (g : Tracked τ) (fd : ℕ) (address : ℕ × UInt32) : Tracked τ :=
  { g with bound := Function.update g.bound fd (address :: g.bound fd) }

def Tracked.connects (g : Tracked τ) (fd : ℕ) : Tracked τ :=
  { g with connected := Function.update g.connected fd true }

def Tracked.closes (g : Tracked τ) (fd : ℕ) : Tracked τ :=
  { g with isOpen := Function.update g.isOpen fd false }

/-- What the result of a call tells; the host is still the one before the call. -/
def Tracked.told (g : Tracked τ) (result : ℤ) : HostEvent → Tracked τ
  | .socket _ _ _ => if 0 < result then g.handOut result.toNat false else g
  | .bind _ nifs fd hostAddr =>
      match ipFindNetif nifs (nacv hostAddr) with
      | some ip =>
          if isUdpSock (g.host.sockets fd) ∧ result = 0 then
            g.binds fd (ip.handle, hostAddr.sinPort.toUInt32)
          else
            g
      | none => g
  | .listen _ _ fd => if result = 0 then g.connects fd else g
  | .connect _ _ fd _ => if result = 0 then g.connects fd else g
  -- the descriptor of the connection is handed out connected
  | .accept _ _ fd => if 0 < result then (g.handOut result.toNat true).connects fd else g
  | .close _ fd => g.closes fd
  | _ => g

def trackedStep (g : Tracked τ) (e : HostEvent) : Option (Tracked τ) :=
  (hostCall g.host e).map fun r => { g.told r.2 e with host := r.1 }

abbrev runTracked (g : Tracked τ) (es : List HostEvent) : Option (Tracked τ) :=
  Machine.tryRun trackedStep g es

theorem hostStep_eq (h : Host τ) (e : HostEvent) : hostStep h e = (hostCall h e).map Prod.fst := by
  cases e with
  | recvfrom fd buf len flags =>
      simp [hostStep, hostCall, Function.comp_def]
  | _ =>
      rfl

/-- The host of a tracked run is the host of the run. -/
theorem tracked_host (g : Tracked τ) (es : List HostEvent) :
    (runTracked g es).map Tracked.host = runHost g.host es := by
  induction es generalizing g with
  | nil =>
      rfl
  | cons e es ih =>
      simp only [Machine.tryRun_cons, hostStep_eq, trackedStep]
      cases hcall : hostCall g.host e with
      | none =>
          rfl
      | some r =>
          simpa using ih { g.told r.2 e with host := r.1 }

/-! ## The property -/

/-- `send`, `recv` and `close`. -/
def HostEvent.Uses (fd : ℕ) : HostEvent → Prop
  | .sendto _ _ fd' _ _ => fd' = fd
  | .recvfrom fd' _ _ _ => fd' = fd
  | .close _ fd' => fd' = fd
  | _ => False

structure NothingCarried (g : Tracked τ) : Prop where
  /-- A datagram is queued only on an open socket that bound its interface and port. -/
  queues : ∀ alloc ip destPort data fd,
    ((udpIpRecv alloc ip destPort data g.host).sockets fd).rxQueue ≠ (g.host.sockets fd).rxQueue →
      g.isOpen fd = true ∧ (ip.handle, destPort.toUInt32) ∈ g.bound fd
  /-- No datagram is left on the queue of any other. -/
  queued : ∀ fd, (g.host.sockets fd).rxQueue ≠ [] → g.isOpen fd = true ∧ g.bound fd ≠ []
  /-- What no open socket has bound can be bound. -/
  ports : ∀ nifs fd hostAddr ip, isUdpSock (g.host.sockets fd) = true →
    ipFindNetif nifs (nacv hostAddr) = some ip →
      (∀ fd', g.isOpen fd' = true → (ip.handle, hostAddr.sinPort.toUInt32) ∉ g.bound fd') →
        (bind true nifs fd hostAddr g.host).2 = 0
  /-- A TCP socket that was not connected has no connection, and its use touches none. -/
  unattached : ∀ fd, g.isOpen fd = true → isTcpSock (g.host.sockets fd) = true →
    g.connected fd = false → (g.host.sockets fd).tcp = none ∧
      ∀ e h', HostEvent.Uses fd e → hostStep g.host e = some h' → h'.tcps = g.host.tcps

/-! ## The tables behind it -/

/-- What the tables say of one descriptor is what its owner did. -/
structure OwnsAt (g : Tracked τ) (fd : ℕ) : Prop where
  entries : ∀ udp ∈ g.host.udps, udp.callback = some fd →
    g.isOpen fd = true ∧ (udp.lowLevel.handle, udp.port) ∈ g.bound fd
  pointer : g.isOpen fd = true → isTcpSock (g.host.sockets fd) = true →
    g.connected fd = false → (g.host.sockets fd).tcp = none

def OwnsOnly (g : Tracked τ) : Prop :=
  ∀ fd, OwnsAt g fd

/-- Without a pointer to a control block no call on the record reaches one. -/
theorem uses_none {h h' : Host τ} {fd : ℕ} {e : HostEvent} (htcp : (h.sockets fd).tcp = none)
    (he : e.Uses fd) (hstep : hostStep h e = some h') : h'.tcps = h.tcps := by
  cases e with
  | sendto env udpSendto fd' buf destAddr =>
      cases he
      rcases Option.map_eq_some_iff.1 hstep with ⟨⟨h₁, r⟩, hsend, rfl⟩
      rcases sendto_cases hsend with rfl | ⟨p, hp, _⟩
      · rfl
      · rw [htcp] at hp
        cases hp
  | recvfrom fd' buf len flags =>
      cases he
      rcases Option.map_eq_some_iff.1 hstep with ⟨⟨h₁, r⟩, hrecv, rfl⟩
      rcases recvfrom_cases hrecv with hsame | ⟨p, hp, _⟩
      · exact hsame.tcps
      · rw [htcp] at hp
        cases hp
  | close env fd' =>
      cases he
      rcases Option.map_eq_some_iff.1 hstep with ⟨⟨h₁, r⟩, hclose, rfl⟩
      rcases close_cases hclose with rfl | ⟨p, hp, _⟩
      · rfl
      · rw [htcp] at hp
        cases hp
  | _ =>
      exact he.elim

/-- The property, in terms of the tables. -/
theorem nothingCarried_iff {g : Tracked τ} (hports : PortsOk g.host) :
    NothingCarried g ↔ OwnsOnly g := by
  constructor
  · intro hg fd
    refine ⟨fun udp hudp hfd => ?_, fun hopen htcp hconn => (hg.unattached fd hopen htcp hconn).1⟩
    -- a datagram to the address of the entry shows what the entry says
    rcases queues_of_mem hports hudp hfd with ⟨destPort, hport, hqueue⟩
    rw [hport]
    exact hg.queues true udp.lowLevel destPort [] fd hqueue
  · intro hg
    have hentry : ∀ fd, ¬ Unnamed g.host fd → g.isOpen fd = true ∧ g.bound fd ≠ [] := by
      intro fd hnamed
      simp only [Unnamed, not_forall, not_not] at hnamed
      rcases hnamed with ⟨udp, hudp, hfd⟩
      rcases (hg fd).entries udp hudp hfd with ⟨hopen, hmem⟩
      exact ⟨hopen, List.ne_nil_of_mem hmem⟩
    refine ⟨?_, fun fd hne => hentry fd (hports.queue fd hne), ?_, ?_⟩
    · -- a queue that grows grew through an entry
      intro alloc ip destPort data fd hne
      rcases udpIpRecv_cases alloc ip destPort data g.host with
        hsame | ⟨udp, fd', rx, hudp, hfd, hhandle, hport, hset⟩
      · exact absurd (by rw [hsame]) hne
      · by_cases heq : fd = fd'
        · subst heq
          rw [← hhandle, ← hport]
          exact (hg fd).entries udp hudp hfd
        · exact absurd (by simp [hset, Host.setSocket, heq]) hne
    · -- an entry for the address would be that of an open socket
      intro nifs fd hostAddr ip hudpSock hip hfree
      refine bind_succeeds hudpSock hip ?_
      cases hfind : findUdpByAddr g.host.udps ip hostAddr.sinPort.toUInt32 with
      | none =>
          rfl
      | some udp =>
          have hudp := List.mem_of_find?_eq_some hfind
          rcases boundAt_iff.1 (List.find?_some hfind) with ⟨hhandle, hport⟩
          rcases hports.named udp hudp with ⟨fd', hfd⟩
          rcases (hg fd').entries udp hudp hfd with ⟨hopen, hmem⟩
          rw [hhandle, hport] at hmem
          exact absurd hmem (hfree fd' hopen)
    · intro fd hopen htcp hconn
      have hnone := (hg fd).pointer hopen htcp hconn
      exact ⟨hnone, fun e h' he hstep => uses_none hnone he hstep⟩

/-! ## Which steps keep the owners -/

/-- A record that is handed out is named by no entry of `udp_list`, and a stream socket gets no
pointer with it; a UDP port is bound on an open descriptor; and what is closed is named by no
entry. -/
def TakesClean (g : Tracked τ) : HostEvent → Prop
  | .socket domain type protocol =>
      ∀ fd, slotFor domain type protocol g.host = some fd →
        Unnamed g.host fd ∧ (type = sockStream → (g.host.sockets fd).tcp = none)
  | .accept _ _ fd => ∀ c, acceptSlot fd g.host = some c → Unnamed g.host c
  | .bind allocUdp nifs fd hostAddr =>
      (bindEntry allocUdp nifs fd hostAddr g.host).isSome = true → g.isOpen fd = true
  | .close _ fd => Unnamed g.host fd
  | _ => True

/-- `TakesClean`, of a step that has a result. -/
def CleanStep (g : Tracked τ) (e : HostEvent) : Prop :=
  (trackedStep g e).isSome = true → TakesClean g e

section Owners

omit [TimerLib τ]

/-- What a step does not touch keeps its owner. -/
theorem OwnsAt.frame {g g' : Tracked τ} {fds : List ℕ} (hframe : Frame fds g.host g'.host) {fd : ℕ}
    (hg : OwnsAt g fd) (hfd : fd ∉ fds) (hopen : g'.isOpen fd = g.isOpen fd)
    (hbound : g'.bound fd = g.bound fd) (hconn : g'.connected fd = g.connected fd) :
    OwnsAt g' fd := by
  refine ⟨?_, ?_⟩
  · rw [hframe.udps, hopen, hbound]
    exact hg.entries
  · rw [hopen, hconn, hframe.kind fd hfd, hframe.tcp fd hfd]
    exact hg.pointer

/-- The programs are told nothing, and at most the null descriptor is touched. -/
theorem ownsOnly_untold {g : Tracked τ} {h' : Host τ} (hnull : g.isOpen 0 = false)
    (hg : OwnsOnly g) (hframe : Frame [0] g.host h') : OwnsOnly { g with host := h' } := by
  intro fd
  by_cases hfd : fd = 0
  · -- what a null pointer reaches has no owner
    subst hfd
    refine ⟨?_, fun hopen => ?_⟩
    · rw [hframe.udps]
      exact (hg 0).entries
    · rw [hnull] at hopen
      cases hopen
  · have hframe' : Frame [0] g.host ({ g with host := h' } : Tracked τ).host := hframe
    exact (hg fd).frame hframe' (by simpa using hfd) rfl rfl rfl

/-- A descriptor that is handed out has bound nothing. -/
theorem ownsAt_handOut {g : Tracked τ} {h' : Host τ} (hudps : h'.udps = g.host.udps) {fd : ℕ}
    (connected : Bool) :
    OwnsAt { g.handOut fd connected with host := h' } fd ↔ Unnamed g.host fd ∧
      (isTcpSock (h'.sockets fd) = true → connected = false → (h'.sockets fd).tcp = none) := by
  constructor
  · intro howns
    refine ⟨fun udp hudp hfd => ?_, fun htcp hconn => ?_⟩
    · have hentry := howns.entries udp (by simpa [hudps] using hudp) hfd
      simp [Tracked.handOut] at hentry
    · exact howns.pointer (by simp [Tracked.handOut]) htcp (by simpa [Tracked.handOut] using hconn)
  · rintro ⟨hun, hnone⟩
    refine ⟨fun udp hudp hfd => absurd hfd (hun udp (hudps ▸ hudp)), fun _ htcp hconn => ?_⟩
    exact hnone htcp (by simpa [Tracked.handOut] using hconn)

theorem ownsOnly_socket {g : Tracked τ} (hg : OwnsOnly g) {domain type protocol : ℤ} {fd : ℕ}
    (hslot : slotFor domain type protocol g.host = some fd) :
    OwnsOnly { g.handOut fd false with host := (socket domain type protocol g.host).1 } ↔
      Unnamed g.host fd ∧ (type = sockStream → (g.host.sockets fd).tcp = none) := by
  have hframe := frame_socket hslot
  rcases socket_slot hslot with ⟨_, hdomain, hprotocol, _, hhost⟩
  have htcp : ((socket domain type protocol g.host).1.sockets fd).tcp =
      (g.host.sockets fd).tcp := by
    simp [hhost, Host.setSocket]
  have hkind : isTcpSock ((socket domain type protocol g.host).1.sockets fd) = true ↔
      type = sockStream := by
    rw [hhost]
    simp [Host.setSocket, isTcpSock, hdomain, hprotocol]
  have hat : OwnsAt { g.handOut fd false with host := (socket domain type protocol g.host).1 } fd ↔
      _ := ownsAt_handOut hframe.udps false
  rw [hkind, htcp] at hat
  constructor
  · intro howns
    rcases hat.1 (howns fd) with ⟨hun, hnone⟩
    exact ⟨hun, fun hstream => hnone hstream rfl⟩
  · rintro ⟨hun, hnone⟩ fd'
    by_cases hfd : fd' = fd
    · rw [hfd]
      exact hat.2 ⟨hun, fun hstream _ => hnone hstream⟩
    · exact (hg fd').frame hframe (by simpa using hfd) (by simp [Tracked.handOut, hfd])
        (by simp [Tracked.handOut, hfd]) (by simp [Tracked.handOut, hfd])

/-- The connection that `accept` hands out is connected, and so is the listener. -/
theorem ownsOnly_accept {g : Tracked τ} (hg : OwnsOnly g) {h' : Host τ} {c fd : ℕ}
    (hframe : Frame [c, fd] g.host h') :
    OwnsOnly { (g.handOut c true).connects fd with host := h' } ↔ Unnamed g.host c := by
  constructor
  · intro howns udp hudp hc
    have hentry := (howns c).entries udp (by simpa [hframe.udps] using hudp) hc
    simp [Tracked.handOut, Tracked.connects] at hentry
  · intro hun fd'
    by_cases hc : fd' = c
    · subst hc
      refine ⟨fun udp hudp hfd => absurd hfd (hun udp (hframe.udps ▸ hudp)), fun _ _ hconn => ?_⟩
      by_cases hfd : fd' = fd <;> simp [Tracked.handOut, Tracked.connects, hfd] at hconn
    · by_cases hfd : fd' = fd
      · -- the listener keeps its entries, and whatever its new pointer is, it is connected
        subst hfd
        refine ⟨?_, fun _ _ hconn => ?_⟩
        · simpa [Tracked.handOut, Tracked.connects, hframe.udps, hc] using (hg fd').entries
        · simp [Tracked.connects] at hconn
      · exact (hg fd').frame hframe (by simp [hc, hfd])
          (by simp [Tracked.handOut, Tracked.connects, hc])
          (by simp [Tracked.handOut, Tracked.connects, hc])
          (by simp [Tracked.handOut, Tracked.connects, hc, hfd])

theorem ownsOnly_attaches {g : Tracked τ} (hg : OwnsOnly g) {h' : Host τ} {fd : ℕ} {r : ℤ}
    (hframe : Frame [fd] g.host h') (hattach : Attaches fd g.host h' r) :
    OwnsOnly { (if r = 0 then g.connects fd else g) with host := h' } := by
  intro fd'
  have hbound : (if r = 0 then g.connects fd else g).bound = g.bound := by
    split <;> rfl
  have hopen : (if r = 0 then g.connects fd else g).isOpen = g.isOpen := by
    split <;> rfl
  by_cases hfd : fd' = fd
  · subst hfd
    refine ⟨?_, ?_⟩
    · simp only [hframe.udps, hbound, hopen]
      exact (hg fd').entries
    · intro hopen' htcp hconn
      rcases hattach with hzero | hnone | hsame
      · simp [hzero, Tracked.connects] at hconn
      · exact hnone
      · -- the record is as before, and so is what the programs were told
        by_cases hr : r = 0
        · simp [hr, Tracked.connects] at hconn
        · simp only [hr, if_false] at hopen' hconn
          simp only [hsame] at htcp ⊢
          exact (hg fd').pointer hopen' htcp hconn
  · refine (hg fd').frame hframe (by simpa using hfd) (by simp [hopen]) (by simp [hbound]) ?_
    by_cases hr : r = 0 <;> simp [hr, Tracked.connects, hfd]

theorem ownsOnly_close {g : Tracked τ} (hg : OwnsOnly g) {h' : Host τ} {fd : ℕ}
    (hframe : Frame [] g.host h') :
    OwnsOnly { g.closes fd with host := h' } ↔ Unnamed g.host fd := by
  constructor
  · intro howns udp hudp hfd
    have hentry := (howns fd).entries udp (by simpa [hframe.udps] using hudp) hfd
    simp [Tracked.closes] at hentry
  · intro hun fd'
    by_cases hfd : fd' = fd
    · subst hfd
      refine ⟨fun udp hudp hcb => absurd hcb (hun udp (hframe.udps ▸ hudp)), fun hopen => ?_⟩
      simp [Tracked.closes] at hopen
    · exact (hg fd').frame hframe (by simp) (by simp [Tracked.closes, hfd]) rfl rfl

theorem ownsOnly_bind {g : Tracked τ} (hg : OwnsOnly g) {allocUdp : Bool} {nifs : List Netif}
    {fd : ℕ} {hostAddr : SockaddrIn} {ip : Netif}
    (hentry : bindEntry allocUdp nifs fd hostAddr g.host = some ip) :
    OwnsOnly { g.binds fd (ip.handle, hostAddr.sinPort.toUInt32) with
        host := (bind allocUdp nifs fd hostAddr g.host).1 } ↔ g.isOpen fd = true := by
  rcases bind_entry hentry with ⟨_, _, _, hbind⟩
  rw [hbind]
  constructor
  · intro howns
    exact ((howns fd).entries ⟨ip, hostAddr.sinPort.toUInt32, some fd⟩ (by simp) rfl).1
  · intro hopen fd'
    refine ⟨fun udp hudp hfd' => ?_, ?_⟩
    · rcases List.mem_cons.1 hudp with rfl | hudp
      · -- the entry that was made
        cases hfd'
        exact ⟨hopen, by simp [Tracked.binds]⟩
      · rcases (hg fd').entries udp hudp hfd' with ⟨hopen', hmem⟩
        refine ⟨hopen', ?_⟩
        by_cases hfd : fd' = fd
        · subst hfd
          simp [Tracked.binds, hmem]
        · simpa [Tracked.binds, hfd] using hmem
    · by_cases hfd : fd' = fd
      · subst hfd
        simpa [Tracked.binds, Host.setSocket, isTcpSock] using (hg fd').pointer
      · simpa [Tracked.binds, Host.setSocket, hfd] using (hg fd').pointer

theorem ownsOnly_udpIpRecv {g : Tracked τ} (hg : OwnsOnly g) (alloc : Bool) (ip : Netif)
    (destPort : UInt16) (data : List Byte) :
    OwnsOnly { g with host := udpIpRecv alloc ip destPort data g.host } := by
  rcases udpIpRecv_cases alloc ip destPort data g.host with hsame | ⟨_, fd, rx, _, _, _, _, hset⟩
  · rw [hsame]
    exact hg
  · rw [hset]
    refine fun fd' => ⟨(hg fd').entries, ?_⟩
    by_cases hfd : fd' = fd
    · subst hfd
      simpa [Host.setSocket, isTcpSock] using (hg fd').pointer
    · simpa [Host.setSocket, hfd] using (hg fd').pointer

end Owners

/-! ## One step, and runs -/

/-- Among the steps that have a result, exactly the clean ones keep the owners. -/
theorem ownsOnly_step_iff {g g' : Tracked τ} {e : HostEvent} (hnull : g.isOpen 0 = false)
    (hg : OwnsOnly g) (hstep : trackedStep g e = some g') : OwnsOnly g' ↔ TakesClean g e := by
  rcases Option.map_eq_some_iff.1 hstep with ⟨⟨h', r⟩, hcall, rfl⟩
  cases e with
  | socket domain type protocol =>
      rcases Prod.ext_iff.1 (Option.some.inj hcall) with ⟨rfl, rfl⟩
      cases hslot : slotFor domain type protocol g.host with
      | none =>
          rcases socket_no_slot hslot with ⟨hle, hframe⟩
          have htold : g.told (socket domain type protocol g.host).2
              (.socket domain type protocol) = g := by
            simp [Tracked.told, not_lt.2 hle]
          rw [htold]
          exact iff_of_true (ownsOnly_untold hnull hg hframe) fun fd hfd => by
            rw [hslot] at hfd
            cases hfd
      | some fd =>
          rcases socket_slot hslot with ⟨hpos, _, _, hr, _⟩
          have htold : g.told (socket domain type protocol g.host).2
              (.socket domain type protocol) = g.handOut fd false := by
            simp [Tracked.told, hr, hpos]
          rw [htold]
          refine (ownsOnly_socket hg hslot).trans ⟨fun hclean fd' hfd' => ?_, fun hclean => ?_⟩
          · rw [hslot] at hfd'
            cases hfd'
            exact hclean
          · exact hclean fd hslot
  | bind allocUdp nifs fd hostAddr =>
      rcases Prod.ext_iff.1 (Option.some.inj hcall) with ⟨rfl, rfl⟩
      cases hentry : bindEntry allocUdp nifs fd hostAddr g.host with
      | none =>
          rcases bind_no_entry hentry with ⟨hframe, hfails⟩
          have htold : g.told (bind allocUdp nifs fd hostAddr g.host).2
              (.bind allocUdp nifs fd hostAddr) = g := by
            unfold Tracked.told
            dsimp only
            split
            · rw [if_neg fun hboth => hfails hboth.1 hboth.2]
            · rfl
          rw [htold]
          exact iff_of_true (ownsOnly_untold hnull hg hframe) (by simp [TakesClean, hentry])
      | some ip =>
          rcases bind_entry hentry with ⟨hip, hudp, _, hbind⟩
          have htold : g.told (bind allocUdp nifs fd hostAddr g.host).2
              (.bind allocUdp nifs fd hostAddr) =
                g.binds fd (ip.handle, hostAddr.sinPort.toUInt32) := by
            simp [Tracked.told, hip, hudp, hbind]
          rw [htold, ownsOnly_bind hg hentry]
          simp [TakesClean, hentry]
  | listen env nifs fd =>
      rcases listen_attaches hcall with ⟨hframe, hattach⟩
      exact iff_of_true (ownsOnly_attaches hg hframe hattach) trivial
  | connect attempts nifs fd destAddr =>
      rcases connect_attaches hcall with ⟨hframe, hattach⟩
      exact iff_of_true (ownsOnly_attaches hg hframe hattach) trivial
  | accept env nifs fd =>
      cases hslot : acceptSlot fd g.host with
      | none =>
          rcases accept_no_slot hslot hcall with ⟨hle, hframe⟩
          have htold : g.told r (.accept env nifs fd) = g := by
            simp [Tracked.told, not_lt.2 hle]
          simp only [htold]
          exact iff_of_true (ownsOnly_untold hnull hg hframe) fun c hc => by
            rw [hslot] at hc
            cases hc
      | some c =>
          rcases accept_slot hslot hcall with ⟨hpos, rfl, hframe⟩
          have htold : g.told c (.accept env nifs fd) = (g.handOut c true).connects fd := by
            simp [Tracked.told, hpos]
          simp only [htold]
          refine (ownsOnly_accept hg hframe).trans ⟨fun hclean c' hc' => ?_, fun hclean => ?_⟩
          · rw [hslot] at hc'
            cases hc'
            exact hclean
          · exact hclean c hslot
  | sendto env udpSendto fd buf destAddr =>
      exact iff_of_true (ownsOnly_untold hnull hg (frame_sendto [0] hcall)) trivial
  | recvfrom fd buf len flags =>
      rcases Option.map_eq_some_iff.1 hcall with ⟨⟨h₁, r₁⟩, hrecv, heq⟩
      cases heq
      exact iff_of_true (ownsOnly_untold hnull hg (frame_recvfrom [0] hrecv)) trivial
  | close env fd =>
      exact ownsOnly_close hg (frame_close [] hcall)
  | udpArrives alloc ip destPort data =>
      cases hcall
      exact iff_of_true (ownsOnly_udpIpRecv hg alloc ip destPort data) trivial
  | tcpArrives env ip dg beyond =>
      cases hcall
      exact iff_of_true
        (ownsOnly_untold hnull hg (frame_tcpIpRecv [0] env ip dg beyond g.host)) trivial
  | loops envs =>
      cases hcall
      exact iff_of_true (ownsOnly_untold hnull hg (.of_eq rfl rfl)) trivial

/-- The null descriptor is never handed out. -/
theorem null_step {g g' : Tracked τ} {e : HostEvent} (hnull : g.isOpen 0 = false)
    (hstep : trackedStep g e = some g') : g'.isOpen 0 = false := by
  rcases Option.map_eq_some_iff.1 hstep with ⟨⟨h', r⟩, _, rfl⟩
  have hout : ∀ connected, 0 < r → (g.handOut r.toNat connected).isOpen 0 = false := by
    intro connected hr
    have hne : 0 ≠ r.toNat := by omega
    simpa [Tracked.handOut, Function.update_of_ne hne] using hnull
  cases e with
  | socket domain type protocol =>
      by_cases hr : 0 < r
      · simpa [Tracked.told, hr] using hout false hr
      · simpa [Tracked.told, hr] using hnull
  | accept env nifs fd =>
      by_cases hr : 0 < r
      · simpa [Tracked.told, hr, Tracked.connects] using hout true hr
      · simpa [Tracked.told, hr] using hnull
  | bind allocUdp nifs fd hostAddr =>
      simp only [Tracked.told]
      split
      · split <;> exact hnull
      · exact hnull
  | listen env nifs fd =>
      simp only [Tracked.told]
      split <;> exact hnull
  | connect attempts nifs fd destAddr =>
      simp only [Tracked.told]
      split <;> exact hnull
  | close env fd =>
      by_cases hfd : 0 = fd
      · simp [Tracked.told, Tracked.closes, hfd]
      · simpa [Tracked.told, Tracked.closes, Function.update_of_ne hfd] using hnull
  | _ =>
      exact hnull

/-- What every run keeps, clean or not. -/
theorem tables_step {g g' : Tracked τ} {e : HostEvent}
    (hg : PortsOk g.host ∧ g.isOpen 0 = false) (hstep : trackedStep g e = some g') :
    PortsOk g'.host ∧ g'.isOpen 0 = false := by
  refine ⟨?_, null_step hg.2 hstep⟩
  have hhost : hostStep g.host e = some g'.host := by
    rcases Option.map_eq_some_iff.1 hstep with ⟨⟨h', r⟩, hcall, rfl⟩
    rw [hostStep_eq, hcall]
    rfl
  exact portsOk_step hg.1 hhost

omit [TimerLib τ] in
theorem tables_init : PortsOk (Tracked.init : Tracked τ).host ∧
    (Tracked.init : Tracked τ).isOpen 0 = false := by
  refine ⟨⟨?_, ?_, ?_, ?_⟩, rfl⟩ <;> simp [Tracked.init, Host.init, SocketT.zero]

omit [TimerLib τ] in
theorem ownsOnly_init : OwnsOnly (Tracked.init : Tracked τ) := by
  intro fd
  refine ⟨?_, ?_⟩ <;> simp [Tracked.init, Host.init]

/-- In every run from the start: nothing is carried over in any state of the run exactly if every
step of it is clean. -/
theorem nothing_carried_iff_clean (es : List HostEvent) :
    (∀ pre (g : Tracked τ), pre <+: es → runTracked .init pre = some g → NothingCarried g) ↔
      Machine.TryAlong trackedStep CleanStep (.init : Tracked τ) es := by
  -- the tables say the same as the property in every state of a run, so that the steps decide
  have howns : (∀ pre (g : Tracked τ), pre <+: es → runTracked .init pre = some g → OwnsOnly g) ↔
      Machine.TryAlong trackedStep CleanStep (.init : Tracked τ) es := by
    refine Machine.forall_prefix_iff_tryAlong (D := fun _ _ => True)
      (I := fun g => PortsOk g.host ∧ g.isOpen 0 = false) (J := OwnsOnly) ?_ ?_ ?_
      tables_init ownsOnly_init (Machine.tryAlong_of_forall fun _ _ => trivial)
    · exact fun _ _ _ hinv hstep => tables_step hinv hstep
    · intro g e g' hinv hg _ hclean hstep
      exact (ownsOnly_step_iff hinv.2 hg hstep).2 (hclean (by simp [hstep]))
    · intro g e hinv hg _ hclean
      simp only [CleanStep, Classical.not_imp] at hclean
      rcases Option.isSome_iff_exists.1 hclean.1 with ⟨g', hstep⟩
      exact ⟨g', hstep, fun hg' => hclean.2 ((ownsOnly_step_iff hinv.2 hg hstep).1 hg')⟩
  rw [← howns]
  have hports : ∀ pre (g : Tracked τ), runTracked .init pre = some g → PortsOk g.host :=
    fun pre g hrun =>
      (Machine.tryRun_invariant (I := fun g : Tracked τ => PortsOk g.host ∧ g.isOpen 0 = false)
        (fun _ _ _ hinv hstep => tables_step hinv hstep) tables_init hrun).1
  constructor
  · intro hall pre g hpre hrun
    exact (nothingCarried_iff (hports pre g hrun)).1 (hall pre g hpre hrun)
  · intro hall pre g hpre hrun
    exact (nothingCarried_iff (hports pre g hrun)).2 (hall pre g hpre hrun)

/-! ## Two runs that carry something over -/

/-- A UDP socket is bound and closed. -/
def closedPort : List HostEvent :=
  [.socket afInet sockDgram 0, .bind true [sampleIp] 1 ⟨⟨1, 1, 168, 192⟩, 5000⟩,
    .close (.working 7) 1]

/-- A listener is closed, and `socket` is called until the pool comes round to its record. -/
def reusedListener : List HostEvent :=
  [.socket afInet sockStream 0, .bind true [sampleIp] 1 ⟨⟨1, 1, 168, 192⟩, 5000⟩,
    .listen (.working 7) [sampleIp] 1, .close (.working 8) 1] ++
  List.replicate 10 (.socket afInet sockStream 0)

/-- The closed socket still gets the datagrams of its port; the new owner of the record has the
connection of the old one. -/
theorem reuse_carries :
    ¬ NothingCarried ((runTracked (.init : Tracked Deadline) closedPort).get (by decide)) ∧
      ¬ NothingCarried
        ((runTracked (.init : Tracked Deadline) reusedListener).get (by decide)) := by
  constructor
  · intro hg
    have hopen := (hg.queues true sampleIp 5000 [] 1 (by decide)).1
    revert hopen
    decide
  · intro hg
    have hnone := (hg.unattached 1 (by decide) (by decide) (by decide)).1
    revert hnone
    decide

end Socket
end DtsNet
