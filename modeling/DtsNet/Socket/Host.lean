import DtsNet.Socket.Api
import DtsNet.Tcp.Closing

/-!
# Host — runs of the socket layer

The steps of a host are the calls of its programs, the segments and datagrams that arrive, and
`tcp_loop`.  `HostInv` says that addresses are not given out twice and that no two records point
to the same control block; every step keeps it.  What a step does to the control block of one
record is said in terms of `Host.attached`.
-/

namespace DtsNet
namespace Socket

open Ip Dblk Tcp Udp

variable {τ : Type} [TimerLib τ]

/-! ## Steps -/

inductive HostEvent
  | socket (domain type protocol : ℤ)
  | bind (allocUdp : Bool) (nifs : List Netif) (fd : ℕ) (hostAddr : SockaddrIn)
  | listen (env : Env) (nifs : List Netif) (fd : ℕ)
  | accept (env : Env) (nifs : List Netif) (fd : ℕ)
  | connect (attempts : Fin 3 → Env × UInt32) (nifs : List Netif) (fd : ℕ) (destAddr : SockaddrIn)
  | sendto (env : Env) (udpSendto : IpAddr → UInt16 → List Byte → Bool) (fd : ℕ)
      (buf : List Byte) (destAddr : Option SockaddrIn)
  | recvfrom (fd : ℕ) (buf : List Byte) (len flags : ℕ)
  | close (env : Env) (fd : ℕ)
  /-- A UDP datagram arrives. -/
  | udpArrives (alloc : Bool) (ip : Netif) (destPort : UInt16) (data : List Byte)
  /-- A TCP segment arrives. -/
  | tcpArrives (env : Env) (ip : Netif) (dg : Datagram) (beyond : List Byte)
  | loops (envs : ℕ → Env)

def hostStep (h : Host τ) : HostEvent → Option (Host τ)
  | .socket domain type protocol => some (socket domain type protocol h).1
  | .bind allocUdp nifs fd hostAddr => some (bind allocUdp nifs fd hostAddr h).1
  | .listen env nifs fd => (listen env nifs fd h).map Prod.fst
  | .accept env nifs fd => (accept env nifs fd h).map Prod.fst
  | .connect attempts nifs fd destAddr => (connect attempts nifs fd destAddr h).map Prod.fst
  | .sendto env udpSendto fd buf destAddr => (sendto env udpSendto fd buf destAddr h).map Prod.fst
  | .recvfrom fd buf len flags => (recvfrom fd buf len flags h).map Prod.fst
  | .close env fd => (close env fd h).map Prod.fst
  | .udpArrives alloc ip destPort data => some (udpIpRecv alloc ip destPort data h)
  | .tcpArrives env ip dg beyond => some (tcpIpRecv env ip dg beyond h)
  | .loops envs => some (tcpLoop envs h)

abbrev runHost (h : Host τ) (es : List HostEvent) : Option (Host τ) :=
  Machine.tryRun hostStep h es

def ReachableHost (h : Host τ) : Prop :=
  ∃ es, runHost .init es = some h

/-! ## Addresses -/

/-- The control block of a record. -/
def Host.attached (h : Host τ) (fd : ℕ) : Option (Conn τ) :=
  (h.sockets fd).tcp.bind h.tcb

structure HostInv (h : Host τ) : Prop where
  nodup : (h.tcps.map Prod.fst).Nodup
  below : ∀ pc ∈ h.tcps, pc.1 < h.brk
  pointers : ∀ fd p, (h.sockets fd).tcp = some p → p < h.brk
  own : ∀ fd fd' p, (h.sockets fd).tcp = some p → (h.sockets fd').tcp = some p → fd = fd'
  waits : ∀ pc ∈ h.tcps, PassiveWaits pc.2

/-- The tables of control blocks and records are the same. -/
structure SameTcps (h h' : Host τ) : Prop where
  tcps : h'.tcps = h.tcps
  brk : h'.brk = h.brk
  tcp : ∀ fd, (h'.sockets fd).tcp = (h.sockets fd).tcp

section Frame

omit [TimerLib τ]

theorem SameTcps.refl (h : Host τ) : SameTcps h h :=
  ⟨rfl, rfl, fun _ => rfl⟩

theorem SameTcps.trans {h₁ h₂ h₃ : Host τ} (h : SameTcps h₁ h₂) (h' : SameTcps h₂ h₃) :
    SameTcps h₁ h₃ :=
  ⟨h'.tcps.trans h.tcps, h'.brk.trans h.brk, fun fd => (h'.tcp fd).trans (h.tcp fd)⟩

theorem SameTcps.attached {h h' : Host τ} (hs : SameTcps h h') (fd : ℕ) :
    h'.attached fd = h.attached fd := by
  have htcb : h'.tcb = h.tcb := by
    funext p
    simp [Host.tcb, hs.tcps]
  simp [Host.attached, hs.tcp, htcb]

theorem SameTcps.hostInv {h h' : Host τ} (hs : SameTcps h h') (hh : HostInv h) : HostInv h' := by
  rcases hh with ⟨hnodup, hbelow, hpointers, hown, hwaits⟩
  refine ⟨?_, ?_, ?_, ?_, ?_⟩
  · rw [hs.tcps]
    exact hnodup
  · rw [hs.tcps, hs.brk]
    exact hbelow
  · intro fd p hp
    rw [hs.tcp] at hp
    rw [hs.brk]
    exact hpointers fd p hp
  · intro fd fd' p hp hp'
    rw [hs.tcp] at hp hp'
    exact hown fd fd' p hp hp'
  · rw [hs.tcps]
    exact hwaits

/-- A record is rewritten and keeps its pointer. -/
theorem sameTcps_setSocket (h : Host τ) {fd : ℕ} {sk : SocketT} (hsk : sk.tcp = (h.sockets fd).tcp) :
    SameTcps h (h.setSocket fd sk) := by
  refine ⟨rfl, rfl, fun fd' => ?_⟩
  by_cases hfd : fd' = fd
  · subst hfd
    simp [Host.setSocket, hsk]
  · simp [Host.setSocket, hfd]

theorem sameTcps_initSocketApi (h : Host τ) : SameTcps h (initSocketApi h) := by
  unfold initSocketApi
  split
  · exact .refl h
  · exact ⟨rfl, rfl, fun _ => rfl⟩

theorem sameTcps_socket (domain type protocol : ℤ) (h : Host τ) :
    SameTcps h (socket domain type protocol h).1 := by
  have hinit := sameTcps_initSocketApi h
  unfold socket
  split
  · split
    · cases hfree : (initSocketApi h).freeList with
      | nil =>
          simpa [memAllocSocket, hfree] using hinit
      | cons fd rest =>
          have hpop : SameTcps (initSocketApi h) { initSocketApi h with freeList := rest } :=
            ⟨rfl, rfl, fun _ => rfl⟩
          simp only [memAllocSocket, hfree]
          exact (hinit.trans hpop).trans (sameTcps_setSocket _ rfl)
    · exact hinit
  · exact hinit

theorem sameTcps_bind (allocUdp : Bool) (nifs : List Netif) (fd : ℕ) (hostAddr : SockaddrIn)
    (h : Host τ) : SameTcps h (bind allocUdp nifs fd hostAddr h).1 := by
  unfold bind
  cases ipFindNetif nifs (nacv hostAddr) with
  | none =>
      exact .refl h
  | some ip =>
      dsimp only
      split
      · have hset : SameTcps h (h.setSocket fd { h.sockets fd with rxQueue := [] }) :=
          sameTcps_setSocket h rfl
        split <;> exact hset.trans ⟨rfl, rfl, fun _ => rfl⟩
      · split
        · exact sameTcps_setSocket h rfl
        · exact .refl h

theorem sameTcps_udpIpRecv (alloc : Bool) (ip : Netif) (destPort : UInt16) (data : List Byte)
    (h : Host τ) : SameTcps h (udpIpRecv alloc ip destPort data h) := by
  unfold udpIpRecv
  split
  · split
    · unfold udpRecv
      split
      · exact sameTcps_setSocket h rfl
      · exact .refl h
    · exact .refl h
  · exact .refl h

/-! ## New control blocks -/

/-- `tcp_open` adds a control block at a fresh address, or nothing. -/
theorem tcpOpenAt_cases [TimerLib τ] {env : Env} {nifs : List Netif} {loc : IpAddr} {port : UInt32}
    {dest : Option IpAddr} {destPort : UInt16} {h h' : Host τ} {tcp : Option ℕ}
    (hopen : tcpOpenAt env nifs loc port dest destPort h = some (h', tcp)) :
    h' = h ∧ tcp = none ∨
      ∃ ip c, tcpOpenConn env ip port dest destPort = some c ∧ tcp = some h.brk ∧
        h' = { h with tcps := h.tcps ++ [(h.brk, c)], brk := h.brk + 1 } := by
  unfold tcpOpenAt at hopen
  split at hopen
  · split at hopen
    · cases hopen
      exact Or.inl ⟨rfl, rfl⟩
    · split at hopen
      · rcases Option.map_eq_some_iff.1 hopen with ⟨c, hc, heq⟩
        cases heq
        exact Or.inr ⟨_, c, hc, rfl, rfl⟩
      · cases hopen
        exact Or.inl ⟨rfl, rfl⟩
  · cases hopen
    exact Or.inl ⟨rfl, rfl⟩

/-- The pointer that a record gets is null or that of a control block which no other record has. -/
theorem HostInv.setPointer {h : Host τ} (hh : HostInv h) {fd : ℕ} {sk : SocketT}
    (hsk : ∀ p, sk.tcp = some p → p < h.brk ∧ ∀ fd', fd' ≠ fd → (h.sockets fd').tcp ≠ some p) :
    HostInv (h.setSocket fd sk) := by
  rcases hh with ⟨hnodup, hbelow, hpointers, hown, hwaits⟩
  refine ⟨hnodup, hbelow, ?_, ?_, hwaits⟩
  · intro fd' p hp
    by_cases hfd : fd' = fd
    · subst hfd
      exact (hsk p (by simpa [Host.setSocket] using hp)).1
    · exact hpointers fd' p (by simpa [Host.setSocket, hfd] using hp)
  · intro fd₁ fd₂ p h₁ h₂
    by_cases hfd₁ : fd₁ = fd
    · by_cases hfd₂ : fd₂ = fd
      · rw [hfd₁, hfd₂]
      · have hp : sk.tcp = some p := by simpa [Host.setSocket, hfd₁] using h₁
        exact absurd (by simpa [Host.setSocket, hfd₂] using h₂) ((hsk p hp).2 fd₂ hfd₂)
    · by_cases hfd₂ : fd₂ = fd
      · have hp : sk.tcp = some p := by simpa [Host.setSocket, hfd₂] using h₂
        exact absurd (by simpa [Host.setSocket, hfd₁] using h₁) ((hsk p hp).2 fd₁ hfd₁)
      · exact hown fd₁ fd₂ p (by simpa [Host.setSocket, hfd₁] using h₁)
          (by simpa [Host.setSocket, hfd₂] using h₂)

theorem HostInv.append {h : Host τ} (hh : HostInv h) {c : Conn τ} (hc : PassiveWaits c) :
    HostInv { h with tcps := h.tcps ++ [(h.brk, c)], brk := h.brk + 1 } := by
  rcases hh with ⟨hnodup, hbelow, hpointers, hown, hwaits⟩
  refine ⟨?_, ?_, ?_, hown, ?_⟩
  · have hnot : h.brk ∉ h.tcps.map Prod.fst := by
      intro hmem
      rcases List.mem_map.1 hmem with ⟨pc, hpc, heq⟩
      have := hbelow pc hpc
      omega
    rw [List.map_append, List.nodup_append]
    refine ⟨hnodup, by simp, ?_⟩
    intro p hp q hq
    have hq : q = h.brk := by simpa using hq
    rintro rfl
    exact hnot (hq ▸ hp)
  · intro pc hpc
    rcases List.mem_append.1 hpc with hpc | hpc
    · exact Nat.lt_succ_of_lt (hbelow pc hpc)
    · rw [List.mem_singleton.1 hpc]
      exact Nat.lt_succ_self _
  · intro fd p hp
    exact Nat.lt_succ_of_lt (hpointers fd p hp)
  · intro pc hpc
    rcases List.mem_append.1 hpc with hpc | hpc
    · exact hwaits pc hpc
    · rw [List.mem_singleton.1 hpc]
      exact hc

/-- After `tcp_open` the pointer it returned goes into a record. -/
theorem HostInv.opened [TimerLib τ] {env : Env} {nifs : List Netif} {loc : IpAddr} {port : UInt32}
    {dest : Option IpAddr} {destPort : UInt16} {h h' : Host τ} {tcp : Option ℕ} (hh : HostInv h)
    (hopen : tcpOpenAt env nifs loc port dest destPort h = some (h', tcp)) {fd : ℕ} {sk : SocketT}
    (hsk : sk.tcp = tcp) : HostInv (h'.setSocket fd sk) := by
  rcases tcpOpenAt_cases hopen with ⟨rfl, rfl⟩ | ⟨ip, c, hc, rfl, rfl⟩
  · refine hh.setPointer ?_
    intro p hp
    rw [hsk] at hp
    cases hp
  · have hwaits : PassiveWaits c := passiveWaits_opened ⟨env, ip, port, dest, destPort, hc⟩
    refine (hh.append hwaits).setPointer ?_
    intro p hp
    rw [hsk] at hp
    cases hp
    refine ⟨Nat.lt_succ_self _, fun fd' _ hfd' => ?_⟩
    exact absurd (hh.pointers fd' _ hfd') (Nat.lt_irrefl _)

theorem HostInv.onTcb {h : Host τ} (hh : HostInv h) {p : ℕ} {f : Conn τ → Conn τ}
    (hf : ∀ c, PassiveWaits c → PassiveWaits (f c)) : HostInv (h.onTcb p f) := by
  rcases hh with ⟨hnodup, hbelow, hpointers, hown, hwaits⟩
  refine ⟨?_, ?_, hpointers, hown, ?_⟩
  · simpa [Host.onTcb] using hnodup
  · intro pc hpc
    rcases Keyed.mem_adjust hpc with hpc | ⟨c, hc, rfl⟩
    · exact hbelow pc hpc
    · exact hbelow (p, c) hc
  · intro pc hpc
    rcases Keyed.mem_adjust hpc with hpc | ⟨c, hc, rfl⟩
    · exact hwaits pc hpc
    · exact hf c (hwaits _ hc)

end Frame

/-! ## Every step keeps the invariant -/

theorem listen_cases {env : Env} {nifs : List Netif} {fd : ℕ} {h h' : Host τ} {r : ℤ}
    (hlisten : listen env nifs fd h = some (h', r)) :
    isTcpSock (h.sockets fd) = false ∧ h' = h ∧ r = -1 ∨
      ∃ ip h₁ tcp, isTcpSock (h.sockets fd) = true ∧ (h.sockets fd).ip = some ip ∧
        tcpOpenAt env nifs ip.addr (h.sockets fd).port none 0 h = some (h₁, tcp) ∧
        h' = h₁.setSocket fd { h.sockets fd with tcp := tcp } ∧
        r = if tcp.isSome then 0 else -1 := by
  cases htcp : isTcpSock (h.sockets fd) with
  | false =>
      simp only [listen, htcp, Bool.false_eq_true, if_false] at hlisten
      cases hlisten
      exact Or.inl ⟨rfl, rfl, rfl⟩
  | true =>
      simp only [listen, htcp, if_true] at hlisten
      rcases Option.bind_eq_some_iff.1 hlisten with ⟨ip, hip, hmap⟩
      rcases Option.map_eq_some_iff.1 hmap with ⟨⟨h₁, tcp⟩, hopen, heq⟩
      cases heq
      exact Or.inr ⟨ip, h₁, tcp, rfl, hip, hopen, rfl, rfl⟩

/-- `accept` moves the pointer to a record `c` of the pool and opens a new control block. -/
theorem accept_cases {env : Env} {nifs : List Netif} {fd : ℕ} {h h' : Host τ} {r : ℤ}
    (haccept : accept env nifs fd h = some (h', r)) :
    SameTcps h h' ∨
      ∃ ip c h₁ h₂ tcp, tcpStatus h (h.sockets fd).tcp = some .established ∧
        (h.sockets fd).ip = some ip ∧ SameTcps h h₁ ∧
        tcpOpenAt env nifs ip.addr (h.sockets fd).port none 0
          (h₁.setSocket c { h₁.sockets c with tcp := (h.sockets fd).tcp }) = some (h₂, tcp) ∧
        h' = h₂.setSocket fd { h₂.sockets fd with tcp := tcp } := by
  cases htcp : isTcpSock (h.sockets fd) with
  | false =>
      simp only [accept, htcp, Bool.false_eq_true, if_false] at haccept
      cases haccept
      exact Or.inl (.refl h)
  | true =>
      simp only [accept, htcp, if_true] at haccept
      rcases Option.bind_eq_some_iff.1 haccept with ⟨status, hstatus, hrest⟩
      by_cases hest : status = .established
      · have hsame := sameTcps_socket (h.sockets fd).domain (h.sockets fd).type
          (h.sockets fd).protocol h
        simp only [hest, if_true] at hrest
        split at hrest
        · rcases Option.bind_eq_some_iff.1 hrest with ⟨ip, hip, hmap⟩
          rcases Option.map_eq_some_iff.1 hmap with ⟨⟨h₂, tcp⟩, hopen, heq⟩
          cases heq
          exact Or.inr ⟨ip, _, _, h₂, tcp, hest ▸ hstatus, hip, hsame, hopen, rfl⟩
        · cases hrest
          exact Or.inl hsame
      · simp only [hest, if_false] at hrest
        cases hrest
        exact Or.inl (.refl h)

theorem sendto_cases {env : Env} {udpSendto : IpAddr → UInt16 → List Byte → Bool} {fd : ℕ}
    {buf : List Byte} {destAddr : Option SockaddrIn} {h h' : Host τ} {r : ℤ}
    (hsend : sendto env udpSendto fd buf destAddr h = some (h', r)) :
    h' = h ∨ ∃ p, (h.sockets fd).tcp = some p ∧ h' = h.onTcb p fun c => (tcpSend env c buf).1 := by
  cases hudp : isUdpSock (h.sockets fd) with
  | true =>
      simp only [sendto, hudp, if_true] at hsend
      rcases Option.map_eq_some_iff.1 hsend with ⟨sin, _, heq⟩
      left
      split at heq <;> cases heq <;> rfl
  | false =>
      simp only [sendto, hudp, Bool.false_eq_true, if_false] at hsend
      split at hsend
      · cases hp : (h.sockets fd).tcp with
        | none =>
            simp only [hp] at hsend
            cases hsend
            exact Or.inl rfl
        | some p =>
            simp only [hp] at hsend
            rcases Option.map_eq_some_iff.1 hsend with ⟨c, _, heq⟩
            split at heq
            · cases heq
              exact Or.inr ⟨p, rfl, rfl⟩
            · cases heq
              exact Or.inl rfl
      · cases hsend
        exact Or.inl rfl

omit [TimerLib τ] in
/-- `recv` reads from the queue of the record, or from its control block, or not at all. -/
theorem recvfrom_host {fd : ℕ} {buf : List Byte} {len flags : ℕ} {h h' : Host τ}
    {r : List Byte × ℤ} (hrecv : recvfrom fd buf len flags h = some (h', r)) :
    h' = h ∨
      h' = h.setSocket fd
        { h.sockets fd with rxQueue := (recvLoop (h.sockets fd).rxQueue buf len 0).1 } ∨
      ∃ p, (h.sockets fd).tcp = some p ∧ h' = h.onTcb p fun c => recvEvent c buf len := by
  cases hudp : isUdpSock (h.sockets fd) with
  | true =>
      simp only [recvfrom, hudp, if_true] at hrecv
      split at hrecv
      · cases hrecv
        exact Or.inl rfl
      · cases hrecv
        exact Or.inr (Or.inl rfl)
  | false =>
      simp only [recvfrom, hudp, Bool.false_eq_true, if_false] at hrecv
      split at hrecv
      · cases hp : (h.sockets fd).tcp with
        | none =>
            simp only [hp] at hrecv
            cases hrecv
            exact Or.inl rfl
        | some p =>
            simp only [hp] at hrecv
            rcases Option.map_eq_some_iff.1 hrecv with ⟨c, _, heq⟩
            split at heq
            · cases heq
              exact Or.inr (Or.inr ⟨p, rfl, rfl⟩)
            · split at heq <;> cases heq <;> exact Or.inl rfl
      · cases hrecv
        exact Or.inl rfl

omit [TimerLib τ] in
theorem recvfrom_cases {fd : ℕ} {buf : List Byte} {len flags : ℕ} {h h' : Host τ}
    {r : List Byte × ℤ} (hrecv : recvfrom fd buf len flags h = some (h', r)) :
    SameTcps h h' ∨
      ∃ p, (h.sockets fd).tcp = some p ∧ h' = h.onTcb p fun c => recvEvent c buf len := by
  rcases recvfrom_host hrecv with rfl | rfl | hconn
  · exact Or.inl (.refl _)
  · exact Or.inl (sameTcps_setSocket h rfl)
  · exact Or.inr hconn

/-- `close` as the control block sees it. -/
def closeConn (env : Env) (c : Conn τ) : Conn τ :=
  tcpClose env { c with tcp.timeWaitSeconds := 1 }

theorem close_cases {env : Env} {fd : ℕ} {h h' : Host τ} {r : ℤ}
    (hclose : close env fd h = some (h', r)) :
    h' = memFreeSocket h fd ∨
      ∃ p, (h.sockets fd).tcp = some p ∧ h' = memFreeSocket (h.onTcb p (closeConn env)) fd := by
  unfold close at hclose
  dsimp only at hclose
  split at hclose
  · next p _ hp =>
      rcases Option.map_eq_some_iff.1 hclose with ⟨c, _, heq⟩
      cases heq
      exact Or.inr ⟨p, hp, rfl⟩
  · cases hclose
    exact Or.inl rfl

/-- The address of the control block that gets a segment. -/
def Host.receiver (h : Host τ) (ip : Netif) (dg : Datagram) : Option ℕ :=
  (bestMatch ip dg h.table).bind fun b => h.tcps[b.2]?.map Prod.fst

omit [TimerLib τ] in
theorem receiver_of_bestMatch {h : Host τ} {ip : Netif} {dg : Datagram} {c : Conn τ} {i : ℕ}
    (hbest : bestMatch ip dg h.table = some (c, i)) :
    ∃ q, h.tcps[i]? = some (q, c) ∧ h.receiver ip dg = some q := by
  have hi : (h.tcps.map Prod.snd)[i]? = some c := bestMatch_getElem? hbest
  rw [List.getElem?_map] at hi
  rcases Option.map_eq_some_iff.1 hi with ⟨⟨q, c'⟩, hget, heq⟩
  cases heq
  exact ⟨q, hget, by simp [Host.receiver, hbest, hget]⟩

/-- An arriving segment acts on the control block at one address, or on none. -/
theorem tcpIpRecv_eq {h : Host τ} (hh : HostInv h) (env : Env) (ip : Netif) (dg : Datagram)
    (beyond : List Byte) :
    tcpIpRecv env ip dg beyond h =
      match h.receiver ip dg with
      | some q => h.onTcb q fun c => tcpReceived env c (dg.received beyond)
      | none => h := by
  cases hbest : bestMatch ip dg h.table with
  | none =>
      simp [tcpIpRecv, Host.receiver, hbest]
  | some b =>
      rcases b with ⟨c, i⟩
      rcases receiver_of_bestMatch hbest with ⟨q, hget, hreceiver⟩
      simp only [tcpIpRecv, hbest, hreceiver, Host.onTcb]
      rw [Keyed.modify_eq_adjust hh.nodup hget (f := fun c => tcpReceived env c (dg.received beyond))]

omit [TimerLib τ] in
/-- `tcp_open` does not look at the records. -/
theorem tcpOpenAt_setSocket [TimerLib τ] (env : Env) (nifs : List Netif) (loc : IpAddr)
    (port : UInt32) (dest : Option IpAddr) (destPort : UInt16) (h : Host τ) (fd : ℕ) (sk : SocketT) :
    tcpOpenAt env nifs loc port dest destPort (h.setSocket fd sk) =
      (tcpOpenAt env nifs loc port dest destPort h).map fun r => (r.1.setSocket fd sk, r.2) := by
  unfold tcpOpenAt Host.setSocket
  cases ipFindNetif nifs loc with
  | none =>
      rfl
  | some ip =>
      dsimp only
      split
      · rfl
      · split
        · cases tcpOpenConn (τ := τ) env ip port dest destPort <;> rfl
        · rfl

/-- What `accept` leaves: `c` has the pointer to the established control block, and `fd` the new
one, unless `c` is `fd` itself. -/
theorem accept_moves {env : Env} {nifs : List Netif} {fd : ℕ} {h h' : Host τ} {r : ℤ}
    (haccept : accept env nifs fd h = some (h', r)) :
    SameTcps h h' ∨
      ∃ ip c h₁ h₂ tcp, tcpStatus h (h.sockets fd).tcp = some .established ∧
        (h.sockets fd).ip = some ip ∧ SameTcps h h₁ ∧
        tcpOpenAt env nifs ip.addr (h.sockets fd).port none 0 h₁ = some (h₂, tcp) ∧
        (h' = h₂.setSocket fd { h₁.sockets fd with tcp := tcp } ∨
          c ≠ fd ∧ h' = (h₂.setSocket fd { h₂.sockets fd with tcp := tcp }).setSocket c
            { h₁.sockets c with tcp := (h.sockets fd).tcp }) := by
  rcases accept_cases haccept with hsame | ⟨ip, c, h₁, h₂, tcp, hstatus, hip, hsame, hopen, rfl⟩
  · exact Or.inl hsame
  · right
    rw [tcpOpenAt_setSocket] at hopen
    rcases Option.map_eq_some_iff.1 hopen with ⟨⟨h₃, tcp'⟩, hopen₁, heq⟩
    cases heq
    refine ⟨ip, c, h₁, h₃, tcp', hstatus, hip, hsame, hopen₁, ?_⟩
    by_cases hc : c = fd
    · left
      subst hc
      simp [Host.setSocket]
    · right
      refine ⟨hc, ?_⟩
      simp [Host.setSocket, Function.update_comm hc, Function.update_of_ne (Ne.symm hc)]

theorem hostInv_accept {env : Env} {nifs : List Netif} {fd : ℕ} {h h' : Host τ} {r : ℤ}
    (hh : HostInv h) (haccept : accept env nifs fd h = some (h', r)) : HostInv h' := by
  rcases accept_moves haccept with hsame | ⟨ip, c, h₁, h₂, tcp, _, _, hsame, hopen, hset⟩
  · exact hsame.hostInv hh
  · have hh₁ : HostInv h₁ := hsame.hostInv hh
    rcases hset with rfl | ⟨hc, rfl⟩
    · exact hh₁.opened hopen rfl
    · refine (hh₁.opened hopen rfl).setPointer ?_
      intro p hp
      have hp : (h₁.sockets fd).tcp = some p := by rw [hsame.tcp]; exact hp
      have hlt := hh₁.pointers fd p hp
      -- `fd` no longer has the pointer, and no other record ever had it
      have hother : ∀ fd', fd' ≠ fd → (h₁.sockets fd').tcp ≠ some p :=
        fun fd' hne hfd' => hne (hh₁.own fd' fd p hfd' hp)
      rcases tcpOpenAt_cases hopen with ⟨rfl, rfl⟩ | ⟨_, _, _, rfl, rfl⟩
      · refine ⟨hlt, fun fd' _ => ?_⟩
        by_cases hfd : fd' = fd
        · simp [Host.setSocket, hfd]
        · simpa [Host.setSocket, hfd] using hother fd' hfd
      · refine ⟨Nat.lt_succ_of_lt hlt, fun fd' _ => ?_⟩
        by_cases hfd : fd' = fd
        · have hne : h₁.brk ≠ p := by omega
          simp [Host.setSocket, hfd, hne]
        · simpa [Host.setSocket, hfd] using hother fd' hfd

theorem hostInv_listen {env : Env} {nifs : List Netif} {fd : ℕ} {h h' : Host τ} {r : ℤ}
    (hh : HostInv h) (hlisten : listen env nifs fd h = some (h', r)) : HostInv h' := by
  rcases listen_cases hlisten with ⟨_, rfl, _⟩ | ⟨ip, h₁, tcp, _, _, hopen, rfl, _⟩
  · exact hh
  · exact hh.opened hopen rfl

theorem hostInv_connectLoop {nifs : List Netif} {fd : ℕ} {ip : Netif} {dest : IpAddr}
    {destPort : UInt16} {attempts : List (Env × UInt32)} {h h' : Host τ} {r : ℤ} (hh : HostInv h)
    (hloop : connectLoop nifs fd ip dest destPort attempts h = some (h', r)) : HostInv h' := by
  induction attempts generalizing h with
  | nil =>
      cases hloop
      exact hh
  | cons attempt attempts ih =>
      rcases attempt with ⟨env, rand⟩
      rcases Option.bind_eq_some_iff.1 hloop with ⟨⟨h₁, tcp⟩, hopen, hrest⟩
      have hh₁ : HostInv (h₁.setSocket fd { h₁.sockets fd with tcp := tcp }) := hh.opened hopen rfl
      cases tcp with
      | some p =>
          cases hrest
          exact hh₁
      | none =>
          exact ih hh₁ hrest

theorem hostInv_tcpLoop {h : Host τ} (hh : HostInv h) (envs : ℕ → Env) :
    HostInv (tcpLoop envs h) := by
  have hkeys : (h.tcps.mapIdx fun i pc => (pc.1, tcpLoopVisit (envs i) pc.2)).map Prod.fst =
      h.tcps.map Prod.fst := by
    refine List.ext_getElem? fun j => ?_
    cases hj : h.tcps[j]? <;> simp [hj]
  have hmem : ∀ pc ∈ (tcpLoop envs h).tcps, ∃ i c, (pc.1, c) ∈ h.tcps ∧
      pc.2 = tcpLoopVisit (envs i) c := by
    intro pc hpc
    rcases List.mem_mapIdx.1 (List.mem_filter.1 hpc).1 with ⟨i, hi, rfl⟩
    exact ⟨i, _, List.getElem_mem hi, rfl⟩
  refine ⟨?_, ?_, hh.pointers, hh.own, ?_⟩
  · have hsub := (List.filter_sublist (p := fun pc : ℕ × Conn τ => pc.2.tcp.state != .closed)
      (l := h.tcps.mapIdx fun i pc => (pc.1, tcpLoopVisit (envs i) pc.2))).map Prod.fst
    rw [hkeys] at hsub
    exact hh.nodup.sublist hsub
  · intro pc hpc
    rcases hmem pc hpc with ⟨_, c, hc, _⟩
    exact hh.below (pc.1, c) hc
  · intro pc hpc
    rcases hmem pc hpc with ⟨i, c, hc, heq⟩
    rw [heq]
    exact passiveWaits_step c (.loop (envs i)) (hh.waits _ hc)

theorem hostInv_connect {attempts : Fin 3 → Env × UInt32} {nifs : List Netif} {fd : ℕ}
    {destAddr : SockaddrIn} {h h' : Host τ} {r : ℤ} (hh : HostInv h)
    (hconnect : connect attempts nifs fd destAddr h = some (h', r)) : HostInv h' := by
  unfold connect at hconnect
  split at hconnect
  · split at hconnect
    · exact hostInv_connectLoop hh hconnect
    · cases hconnect
      exact hh
  · cases hconnect
    exact hh

theorem passiveWaits_closeConn (env : Env) (c : Conn τ) (hc : PassiveWaits c) :
    PassiveWaits (closeConn env c) :=
  passiveWaits_step _ (.close env) hc

theorem hostInv_step {h h' : Host τ} {e : HostEvent} (hh : HostInv h)
    (hstep : hostStep h e = some h') : HostInv h' := by
  cases e with
  | socket domain type protocol =>
      cases hstep
      exact (sameTcps_socket domain type protocol h).hostInv hh
  | bind allocUdp nifs fd hostAddr =>
      cases hstep
      exact (sameTcps_bind allocUdp nifs fd hostAddr h).hostInv hh
  | listen env nifs fd =>
      rcases Option.map_eq_some_iff.1 hstep with ⟨⟨h₁, r⟩, hlisten, rfl⟩
      exact hostInv_listen hh hlisten
  | accept env nifs fd =>
      rcases Option.map_eq_some_iff.1 hstep with ⟨⟨h₁, r⟩, haccept, rfl⟩
      exact hostInv_accept hh haccept
  | connect attempts nifs fd destAddr =>
      rcases Option.map_eq_some_iff.1 hstep with ⟨⟨h₁, r⟩, hconnect, rfl⟩
      exact hostInv_connect hh hconnect
  | sendto env udpSendto fd buf destAddr =>
      rcases Option.map_eq_some_iff.1 hstep with ⟨⟨h₁, r⟩, hsend, rfl⟩
      rcases sendto_cases hsend with rfl | ⟨p, _, rfl⟩
      · exact hh
      · exact hh.onTcb fun c hc => passiveWaits_step c (.send env buf) hc
  | recvfrom fd buf len flags =>
      rcases Option.map_eq_some_iff.1 hstep with ⟨⟨h₁, r⟩, hrecv, rfl⟩
      rcases recvfrom_cases hrecv with hsame | ⟨p, _, rfl⟩
      · exact hsame.hostInv hh
      · exact hh.onTcb fun c hc => passiveWaits_step c (.recv buf len) hc
  | close env fd =>
      rcases Option.map_eq_some_iff.1 hstep with ⟨⟨h₁, r⟩, hclose, rfl⟩
      have hfree : ∀ h : Host τ, SameTcps h (memFreeSocket h fd) :=
        fun h => ⟨rfl, rfl, fun _ => rfl⟩
      rcases close_cases hclose with rfl | ⟨p, _, rfl⟩
      · exact (hfree h).hostInv hh
      · exact (hfree _).hostInv (hh.onTcb (passiveWaits_closeConn env))
  | udpArrives alloc ip destPort data =>
      cases hstep
      exact (sameTcps_udpIpRecv alloc ip destPort data h).hostInv hh
  | tcpArrives env ip dg beyond =>
      cases hstep
      rw [tcpIpRecv_eq hh]
      cases h.receiver ip dg with
      | none =>
          exact hh
      | some q =>
          exact hh.onTcb fun c hc => passiveWaits_step c (.received env (dg.received beyond)) hc
  | loops envs =>
      cases hstep
      exact hostInv_tcpLoop hh envs

omit [TimerLib τ] in
theorem hostInv_init : HostInv (Host.init : Host τ) :=
  ⟨by simp [Host.init], by simp [Host.init], by simp [Host.init, SocketT.zero],
    by simp [Host.init, SocketT.zero], by simp [Host.init]⟩

theorem hostInv_of_reachable {h : Host τ} (hh : ReachableHost h) : HostInv h := by
  rcases hh with ⟨es, hrun⟩
  exact Machine.tryRun_invariant (fun _ _ _ hinv hstep => hostInv_step hinv hstep) hostInv_init hrun

/-! ## The host keeps the list of connections as the TCP module does -/

omit [TimerLib τ] in
theorem table_onTcb (h : Host τ) (p : ℕ) (f : Conn τ → Conn τ) :
    (h.onTcb p f).table = h.tcps.map fun pc => if pc.1 = p then f pc.2 else pc.2 := by
  simp only [Host.table, Host.onTcb, Keyed.adjust, List.map_map]
  refine List.map_congr_left fun pc _ => ?_
  by_cases hp : pc.1 = p <;> simp [hp]

theorem table_tcpIpRecv (env : Env) (ip : Netif) (dg : Datagram) (beyond : List Byte) (h : Host τ) :
    (tcpIpRecv env ip dg beyond h).table = Tcp.tcpIpRecv env ip dg beyond h.table := by
  cases hbest : bestMatch ip dg h.table with
  | none =>
      simp [tcpIpRecv, Tcp.tcpIpRecv, hbest]
  | some b =>
      rcases b with ⟨c, i⟩
      rcases receiver_of_bestMatch hbest with ⟨q, hget, _⟩
      have hlt : i < h.tcps.length := (List.getElem?_eq_some_iff.1 hget).1
      have hnew : (tcpIpRecv env ip dg beyond h).tcps =
          h.tcps.modify i fun pc => (pc.1, tcpReceived env pc.2 (dg.received beyond)) := by
        simp [tcpIpRecv, hbest]
      rw [Host.table, hnew, Tcp.tcpIpRecv, hbest, Host.table]
      refine List.ext_getElem? fun j => ?_
      by_cases hij : i = j
      · subst hij
        have hq : h.tcps[i] = (q, c) := (List.getElem?_eq_some_iff.1 hget).2
        simp [hlt, hq]
      · simp [hij]

theorem table_tcpLoop (envs : ℕ → Env) (h : Host τ) :
    (tcpLoop envs h).table = Tcp.tcpLoop envs h.table := by
  have hmap : (h.tcps.mapIdx fun i pc => (pc.1, tcpLoopVisit (envs i) pc.2)).map Prod.snd =
      h.table.mapIdx fun i c => tcpLoopVisit (envs i) c := by
    refine List.ext_getElem? fun j => ?_
    cases hj : h.tcps[j]? <;> simp [Host.table, hj]
  rw [Tcp.tcpLoop, ← hmap, List.filter_map]
  rfl

theorem table_tcpOpenAt (env : Env) (nifs : List Netif) (loc : IpAddr) (port : UInt32)
    (dest : Option IpAddr) (destPort : UInt16) (h : Host τ) :
    (tcpOpenAt env nifs loc port dest destPort h).map (fun r => r.1.table) =
      tcpOpen env nifs loc port dest destPort h.table := by
  unfold tcpOpenAt tcpOpen
  cases ipFindNetif nifs loc with
  | none =>
      rfl
  | some ip =>
      have hany : (h.table.any fun c => onPort ip port c && !c.tcp.passive) =
          h.tcps.any fun pc => onPort ip port pc.2 && !pc.2.tcp.passive := by
        simp [Host.table, List.any_map, Function.comp_def]
      dsimp only
      rw [hany]
      split
      · rfl
      · split
        · cases tcpOpenConn (τ := τ) env ip port dest destPort with
          | none =>
              rfl
          | some c =>
              simp [Host.table]
        · rfl

end Socket
end DtsNet
