import DtsNet.Socket.Host

/-!
# Slots — what a call does to the pool and to `udp_list`

Most calls leave `udp_list` alone and change one record at most; `Frame` says so.  `slotFor` and
`acceptSlot` are the record that a call takes from the pool, and `bindEntry` the entry that `bind`
makes.  `PortsOk` is what holds of `udp_list` and of the queues in every state.
-/

namespace DtsNet
namespace Socket

open Ip Dblk Tcp Udp

variable {τ : Type} [TimerLib τ]

/-! ## What the calls change -/

/-- `udp_list` is the same, no queue was filled, and a record outside `fds` is of the same kind and
has the same pointer. -/
structure Frame (fds : List ℕ) (h h' : Host τ) : Prop where
  udps : h'.udps = h.udps
  queue : ∀ fd, (h'.sockets fd).rxQueue ≠ [] → (h.sockets fd).rxQueue ≠ []
  kind : ∀ fd, fd ∉ fds → isTcpSock (h'.sockets fd) = isTcpSock (h.sockets fd)
  tcp : ∀ fd, fd ∉ fds → (h'.sockets fd).tcp = (h.sockets fd).tcp

section Frames

omit [TimerLib τ]

theorem Frame.of_eq {fds : List ℕ} {h h' : Host τ} (hudps : h'.udps = h.udps)
    (hsockets : h'.sockets = h.sockets) : Frame fds h h' := by
  refine ⟨hudps, ?_, ?_, ?_⟩ <;> intro fd <;> simp [hsockets]

theorem Frame.trans {fds : List ℕ} {h₁ h₂ h₃ : Host τ} (h : Frame fds h₁ h₂)
    (h' : Frame fds h₂ h₃) : Frame fds h₁ h₃ :=
  ⟨h'.udps.trans h.udps, fun fd hne => h.queue fd (h'.queue fd hne),
    fun fd hfd => (h'.kind fd hfd).trans (h.kind fd hfd),
    fun fd hfd => (h'.tcp fd hfd).trans (h.tcp fd hfd)⟩

theorem Frame.mono {fds fds' : List ℕ} {h h' : Host τ} (hframe : Frame fds h h')
    (hsub : fds ⊆ fds') : Frame fds' h h' :=
  ⟨hframe.udps, hframe.queue, fun fd hfd => hframe.kind fd fun hmem => hfd (hsub hmem),
    fun fd hfd => hframe.tcp fd fun hmem => hfd (hsub hmem)⟩

/-- A record of `fds` is rewritten. -/
theorem frame_setSocket {fds : List ℕ} (h : Host τ) {fd : ℕ} {sk : SocketT} (hfd : fd ∈ fds)
    (hqueue : sk.rxQueue ≠ [] → (h.sockets fd).rxQueue ≠ []) :
    Frame fds h (h.setSocket fd sk) := by
  refine ⟨rfl, fun fd' => ?_, fun fd' hfd' => ?_, fun fd' hfd' => ?_⟩
  · by_cases heq : fd' = fd
    · subst heq
      simpa [Host.setSocket] using hqueue
    · simp [Host.setSocket, heq]
  · have hne : fd' ≠ fd := fun heq => hfd' (heq ▸ hfd)
    simp [Host.setSocket, hne]
  · have hne : fd' ≠ fd := fun heq => hfd' (heq ▸ hfd)
    simp [Host.setSocket, hne]

/-- A record is rewritten and stays of its kind, with its pointer. -/
theorem frame_keepSocket {fds : List ℕ} (h : Host τ) {fd : ℕ} {sk : SocketT}
    (hkind : isTcpSock sk = isTcpSock (h.sockets fd)) (htcp : sk.tcp = (h.sockets fd).tcp)
    (hqueue : sk.rxQueue ≠ [] → (h.sockets fd).rxQueue ≠ []) :
    Frame fds h (h.setSocket fd sk) := by
  refine ⟨rfl, fun fd' => ?_, fun fd' _ => ?_, fun fd' _ => ?_⟩
  · by_cases heq : fd' = fd
    · subst heq
      simpa [Host.setSocket] using hqueue
    · simp [Host.setSocket, heq]
  · by_cases heq : fd' = fd
    · subst heq
      simpa [Host.setSocket] using hkind
    · simp [Host.setSocket, heq]
  · by_cases heq : fd' = fd
    · subst heq
      simpa [Host.setSocket] using htcp
    · simp [Host.setSocket, heq]

theorem initSocketApi_sockets (h : Host τ) : (initSocketApi h).sockets = h.sockets := by
  unfold initSocketApi
  split <;> rfl

theorem frame_initSocketApi (fds : List ℕ) (h : Host τ) : Frame fds h (initSocketApi h) := by
  unfold initSocketApi
  split <;> exact .of_eq rfl rfl

end Frames

/-! ### Descriptors that are handed out -/

/-- The record that `socket` takes from the pool; its descriptor is positive. -/
def slotFor (domain type protocol : ℤ) (h : Host τ) : Option ℕ :=
  if domain = afInet ∧ protocol = 0 ∧ (type = sockDgram ∨ type = sockStream) then
    (initSocketApi h).freeList.head?.filter fun fd => 0 < fd
  else
    none

/-- The record that `accept` takes from the pool. -/
def acceptSlot (fd : ℕ) (h : Host τ) : Option ℕ :=
  let sk := h.sockets fd
  if isTcpSock sk ∧ tcpStatus h sk.tcp = some .established then
    slotFor sk.domain sk.type sk.protocol h
  else
    none

section Slots

omit [TimerLib τ]

theorem socket_slot {domain type protocol : ℤ} {h : Host τ} {fd : ℕ}
    (hslot : slotFor domain type protocol h = some fd) :
    0 < fd ∧ domain = afInet ∧ protocol = 0 ∧ (socket domain type protocol h).2 = fd ∧
      (socket domain type protocol h).1 =
        { initSocketApi h with freeList := (initSocketApi h).freeList.tail }.setSocket fd
          { h.sockets fd with domain := domain, type := type, protocol := protocol } := by
  unfold slotFor at hslot
  split at hslot
  · next hargs =>
      rcases hargs with ⟨hdomain, hprotocol, htype⟩
      cases hfree : (initSocketApi h).freeList with
      | nil =>
          simp [hfree] at hslot
      | cons fd' rest =>
          simp only [hfree, List.head?_cons, Option.filter_some, decide_eq_true_eq] at hslot
          split at hslot
          · next hpos =>
              cases hslot
              refine ⟨hpos, hdomain, hprotocol, ?_, ?_⟩ <;>
                simp [socket, hdomain, hprotocol, htype, memAllocSocket, hfree,
                  initSocketApi_sockets]
          · cases hslot
  · cases hslot

theorem socket_no_slot {domain type protocol : ℤ} {h : Host τ}
    (hslot : slotFor domain type protocol h = none) :
    (socket domain type protocol h).2 ≤ 0 ∧ Frame [0] h (socket domain type protocol h).1 := by
  have hinit := frame_initSocketApi [0] h
  unfold slotFor at hslot
  by_cases hargs : domain = afInet ∧ protocol = 0
  · by_cases htype : type = sockDgram ∨ type = sockStream
    · rw [if_pos ⟨hargs.1, hargs.2, htype⟩] at hslot
      cases hfree : (initSocketApi h).freeList with
      | nil =>
          simpa [socket, hargs, htype, memAllocSocket, hfree, enomem] using hinit
      | cons fd rest =>
          -- a null pointer in the pool comes back as the result 0
          have hzero : fd = 0 := by simpa [hfree] using hslot
          subst hzero
          have hpop : Frame [0] (initSocketApi h) { initSocketApi h with freeList := rest } :=
            .of_eq rfl rfl
          simp only [socket, hargs, htype, memAllocSocket, hfree, and_self, if_true]
          exact ⟨by simp, (hinit.trans hpop).trans (frame_setSocket _ (by simp) id)⟩
    · simpa [socket, hargs, htype, einval] using hinit
  · simpa [socket, hargs, einval] using hinit

theorem frame_socket {domain type protocol : ℤ} {h : Host τ} {fd : ℕ}
    (hslot : slotFor domain type protocol h = some fd) :
    Frame [fd] h (socket domain type protocol h).1 := by
  rcases socket_slot hslot with ⟨_, _, _, _, hhost⟩
  rw [hhost]
  have hpop : Frame [fd] (initSocketApi h)
      { initSocketApi h with freeList := (initSocketApi h).freeList.tail } :=
    .of_eq rfl rfl
  refine ((frame_initSocketApi [fd] h).trans hpop).trans (frame_setSocket _ (by simp) ?_)
  simp [initSocketApi_sockets]

end Slots

/-! ### Pointers that are set -/

/-- `tcp_open` leaves the records and `udp_list` alone. -/
theorem frame_tcpOpenAt {fds : List ℕ} {env : Env} {nifs : List Netif} {loc : IpAddr}
    {port : UInt32} {dest : Option IpAddr} {destPort : UInt16} {h h' : Host τ} {tcp : Option ℕ}
    (hopen : tcpOpenAt env nifs loc port dest destPort h = some (h', tcp)) : Frame fds h h' := by
  rcases tcpOpenAt_cases hopen with ⟨rfl, _⟩ | ⟨_, _, _, _, rfl⟩ <;> exact .of_eq rfl rfl

/-- A call that attaches a control block to the record succeeds, or leaves the null pointer or
what was there. -/
def Attaches (fd : ℕ) (h h' : Host τ) (result : ℤ) : Prop :=
  result = 0 ∨ (h'.sockets fd).tcp = none ∨ h'.sockets fd = h.sockets fd

theorem listen_attaches {env : Env} {nifs : List Netif} {fd : ℕ} {h h' : Host τ} {r : ℤ}
    (hlisten : listen env nifs fd h = some (h', r)) : Frame [fd] h h' ∧ Attaches fd h h' r := by
  rcases listen_cases hlisten with ⟨_, rfl, _⟩ | ⟨ip, h₁, tcp, _, _, hopen, rfl, rfl⟩
  · exact ⟨.of_eq rfl rfl, Or.inr (Or.inr rfl)⟩
  · have hsockets : h₁.sockets = h.sockets := by
      rcases tcpOpenAt_cases hopen with ⟨rfl, _⟩ | ⟨_, _, _, _, rfl⟩ <;> rfl
    refine ⟨(frame_tcpOpenAt hopen).trans (frame_setSocket _ (by simp) (by simp [hsockets])), ?_⟩
    cases tcp with
    | none =>
        exact Or.inr (Or.inl (by simp [Host.setSocket]))
    | some p =>
        exact Or.inl (by simp)

theorem connectLoop_attaches {nifs : List Netif} {fd : ℕ} {ip : Netif} {dest : IpAddr}
    {destPort : UInt16} {attempts : List (Env × UInt32)} {h h' : Host τ} {r : ℤ}
    (hloop : connectLoop nifs fd ip dest destPort attempts h = some (h', r)) :
    Frame [fd] h h' ∧ Attaches fd h h' r := by
  induction attempts generalizing h with
  | nil =>
      cases hloop
      exact ⟨.of_eq rfl rfl, Or.inr (Or.inr rfl)⟩
  | cons attempt attempts ih =>
      rcases attempt with ⟨env, rand⟩
      rcases Option.bind_eq_some_iff.1 hloop with ⟨⟨h₁, tcp⟩, hopen, hrest⟩
      have hset : Frame [fd] h (h₁.setSocket fd { h₁.sockets fd with tcp := tcp }) :=
        (frame_tcpOpenAt hopen).trans (frame_setSocket _ (by simp) id)
      cases tcp with
      | some p =>
          cases hrest
          exact ⟨hset, Or.inl rfl⟩
      | none =>
          -- a failed attempt leaves the null pointer, whatever the later ones do
          rcases ih hrest with ⟨hframe, hzero | hnone | hsame⟩
          · exact ⟨hset.trans hframe, Or.inl hzero⟩
          · exact ⟨hset.trans hframe, Or.inr (Or.inl hnone)⟩
          · exact ⟨hset.trans hframe, Or.inr (Or.inl (by simp [hsame, Host.setSocket]))⟩

theorem connect_attaches {attempts : Fin 3 → Env × UInt32} {nifs : List Netif} {fd : ℕ}
    {destAddr : SockaddrIn} {h h' : Host τ} {r : ℤ}
    (hconnect : connect attempts nifs fd destAddr h = some (h', r)) :
    Frame [fd] h h' ∧ Attaches fd h h' r := by
  unfold connect at hconnect
  split at hconnect
  · split at hconnect
    · exact connectLoop_attaches hconnect
    · cases hconnect
      exact ⟨.of_eq rfl rfl, Or.inr (Or.inr rfl)⟩
  · cases hconnect
    exact ⟨.of_eq rfl rfl, Or.inr (Or.inr rfl)⟩

/-- `accept` hands the record out that it took, and changes no record but this and its own. -/
theorem accept_slot {env : Env} {nifs : List Netif} {fd c : ℕ} {h h' : Host τ} {r : ℤ}
    (hslot : acceptSlot fd h = some c) (haccept : accept env nifs fd h = some (h', r)) :
    0 < c ∧ r = c ∧ Frame [c, fd] h h' := by
  unfold acceptSlot at hslot
  dsimp only at hslot
  split at hslot
  · next hest =>
      rcases socket_slot hslot with ⟨hpos, _, _, hc, _⟩
      simp only [accept, hest.1, hest.2, if_true, Option.bind_some, hc] at haccept
      rw [if_pos (by exact_mod_cast hpos)] at haccept
      rcases Option.bind_eq_some_iff.1 haccept with ⟨ip, _, hmap⟩
      rcases Option.map_eq_some_iff.1 hmap with ⟨⟨h₂, tcp⟩, hopen, heq⟩
      cases heq
      refine ⟨hpos, rfl, ?_⟩
      -- the record is taken and gets the pointer, then the listener gets a new one
      have hsocket : Frame [c, fd] h
          (socket (h.sockets fd).domain (h.sockets fd).type (h.sockets fd).protocol h).1 :=
        (frame_socket hslot).mono (by simp)
      have hattach (h₁ : Host τ) (tcp : Option ℕ) :
          Frame [c, fd] h₁
            (h₁.setSocket (c : ℤ).toNat { h₁.sockets (c : ℤ).toNat with tcp := tcp }) :=
        frame_setSocket _ (by simp) id
      exact ((hsocket.trans (hattach _ _)).trans (frame_tcpOpenAt hopen)).trans
        (frame_setSocket _ (by simp) id)
  · cases hslot

theorem accept_no_slot {env : Env} {nifs : List Netif} {fd : ℕ} {h h' : Host τ} {r : ℤ}
    (hslot : acceptSlot fd h = none) (haccept : accept env nifs fd h = some (h', r)) :
    r ≤ 0 ∧ Frame [0] h h' := by
  unfold acceptSlot at hslot
  dsimp only at hslot
  by_cases htcp : isTcpSock (h.sockets fd) = true
  · simp only [accept, htcp, if_true] at haccept
    rcases Option.bind_eq_some_iff.1 haccept with ⟨status, hstatus, hrest⟩
    by_cases hest : status = .established
    · rw [if_pos ⟨htcp, hest ▸ hstatus⟩] at hslot
      rcases socket_no_slot hslot with ⟨hle, hframe⟩
      simp only [hest, if_true] at hrest
      rw [if_neg (by omega)] at hrest
      cases hrest
      exact ⟨hle, hframe⟩
    · simp only [hest, if_false] at hrest
      cases hrest
      exact ⟨by simp, .of_eq rfl rfl⟩
  · simp only [accept, htcp, Bool.false_eq_true, if_false] at haccept
    cases haccept
    exact ⟨by simp, .of_eq rfl rfl⟩

/-! ### The other calls -/

omit [TimerLib τ] in
theorem frame_recvfrom (fds : List ℕ) {fd : ℕ} {buf : List Byte} {len flags : ℕ} {h h' : Host τ}
    {r : List Byte × ℤ} (hrecv : recvfrom fd buf len flags h = some (h', r)) :
    Frame fds h h' := by
  rcases recvfrom_host hrecv with rfl | rfl | ⟨p, _, rfl⟩
  · exact .of_eq rfl rfl
  · refine frame_keepSocket _ rfl rfl ?_
    -- what is read is taken from the queue
    intro hne hnil
    simp [hnil, recvLoop] at hne
  · exact .of_eq rfl rfl

theorem frame_sendto (fds : List ℕ) {env : Env}
    {udpSendto : IpAddr → UInt16 → List Byte → Bool} {fd : ℕ} {buf : List Byte}
    {destAddr : Option SockaddrIn} {h h' : Host τ} {r : ℤ}
    (hsend : sendto env udpSendto fd buf destAddr h = some (h', r)) : Frame fds h h' := by
  rcases sendto_cases hsend with rfl | ⟨p, _, rfl⟩ <;> exact .of_eq rfl rfl

theorem frame_close (fds : List ℕ) {env : Env} {fd : ℕ} {h h' : Host τ} {r : ℤ}
    (hclose : close env fd h = some (h', r)) : Frame fds h h' := by
  rcases close_cases hclose with rfl | ⟨p, _, rfl⟩ <;> exact .of_eq rfl rfl

theorem frame_tcpIpRecv (fds : List ℕ) (env : Env) (ip : Netif) (dg : Datagram) (beyond : List Byte)
    (h : Host τ) : Frame fds h (tcpIpRecv env ip dg beyond h) := by
  unfold tcpIpRecv
  split <;> exact .of_eq rfl rfl

/-- The interface for which `bind` makes an entry of `udp_list`. -/
def bindEntry (allocUdp : Bool) (nifs : List Netif) (fd : ℕ) (hostAddr : SockaddrIn)
    (h : Host τ) : Option Netif :=
  (ipFindNetif nifs (nacv hostAddr)).filter fun ip =>
    isUdpSock (h.sockets fd) && allocUdp &&
      (findUdpByAddr h.udps ip hostAddr.sinPort.toUInt32).isNone

section Bind

omit [TimerLib τ]

theorem bind_entry {allocUdp : Bool} {nifs : List Netif} {fd : ℕ} {hostAddr : SockaddrIn}
    {h : Host τ} {ip : Netif} (hentry : bindEntry allocUdp nifs fd hostAddr h = some ip) :
    ipFindNetif nifs (nacv hostAddr) = some ip ∧ isUdpSock (h.sockets fd) = true ∧
      findUdpByAddr h.udps ip hostAddr.sinPort.toUInt32 = none ∧
      bind allocUdp nifs fd hostAddr h =
        ({ h.setSocket fd { h.sockets fd with rxQueue := [] } with
            udps := ⟨ip, hostAddr.sinPort.toUInt32, some fd⟩ :: h.udps }, 0) := by
  rcases Option.filter_eq_some_iff.1 hentry with ⟨hip, hcond⟩
  simp only [Bool.and_eq_true, Option.isNone_iff_eq_none] at hcond
  rcases hcond with ⟨⟨hudp, hmem⟩, hfree⟩
  refine ⟨hip, hudp, hfree, ?_⟩
  simp [bind, hip, hudp, udpBind, Host.setSocket, hfree, hmem]

theorem bind_succeeds {nifs : List Netif} {fd : ℕ} {hostAddr : SockaddrIn} {ip : Netif}
    {h : Host τ} (hudp : isUdpSock (h.sockets fd) = true)
    (hip : ipFindNetif nifs (nacv hostAddr) = some ip)
    (hfree : findUdpByAddr h.udps ip hostAddr.sinPort.toUInt32 = none) :
    (bind true nifs fd hostAddr h).2 = 0 := by
  have hentry : bindEntry true nifs fd hostAddr h = some ip := by
    simp [bindEntry, hip, hudp, hfree]
  rw [(bind_entry hentry).2.2.2]

/-- A UDP socket for which there is no entry gets an error. -/
theorem bind_no_entry {allocUdp : Bool} {nifs : List Netif} {fd : ℕ} {hostAddr : SockaddrIn}
    {h : Host τ} (hentry : bindEntry allocUdp nifs fd hostAddr h = none) :
    Frame [0] h (bind allocUdp nifs fd hostAddr h).1 ∧
      (isUdpSock (h.sockets fd) = true → (bind allocUdp nifs fd hostAddr h).2 ≠ 0) := by
  have hcleared : Frame [0] h (h.setSocket fd { h.sockets fd with rxQueue := [] }) :=
    frame_keepSocket h rfl rfl (by simp)
  cases hip : ipFindNetif nifs (nacv hostAddr) with
  | none =>
      simpa [bind, hip, einval] using (Frame.of_eq rfl rfl : Frame [0] h h)
  | some ip =>
      cases hudp : isUdpSock (h.sockets fd) with
      | true =>
          cases hfind : findUdpByAddr h.udps ip hostAddr.sinPort.toUInt32 with
          | some udp =>
              simpa [bind, hip, hudp, udpBind, Host.setSocket, hfind, einval] using hcleared
          | none =>
              have halloc : allocUdp = false := by
                simpa [bindEntry, hip, hudp, hfind] using hentry
              simpa [bind, hip, hudp, udpBind, Host.setSocket, hfind, halloc, einval]
                using hcleared
      | false =>
          refine ⟨?_, by simp⟩
          cases htcp : isTcpSock (h.sockets fd) with
          | true =>
              simp only [bind, hip, hudp, htcp, Bool.false_eq_true, if_false, if_true]
              exact frame_keepSocket h rfl rfl id
          | false =>
              simpa [bind, hip, hudp, htcp] using (Frame.of_eq rfl rfl : Frame [0] h h)

/-! ## The entries of `udp_list` -/

/-- No entry of `udp_list` names the record. -/
def Unnamed (h : Host τ) (fd : ℕ) : Prop :=
  ∀ udp ∈ h.udps, udp.callback ≠ some fd

/-- `udp_list` has an entry once, and what is queued came through one. -/
structure PortsOk (h : Host τ) : Prop where
  found : ∀ udp ∈ h.udps, findUdpByAddr h.udps udp.lowLevel udp.port = some udp
  port : ∀ udp ∈ h.udps, ∃ port : UInt16, udp.port = port.toUInt32
  named : ∀ udp ∈ h.udps, ∃ fd, udp.callback = some fd
  queue : ∀ fd, (h.sockets fd).rxQueue ≠ [] → ¬ Unnamed h fd

theorem boundAt_iff {ip : Netif} {port : UInt32} {udp : UdpT ℕ} :
    boundAt ip port udp = true ↔ udp.lowLevel.handle = ip.handle ∧ udp.port = port := by
  simp [boundAt]

/-- The record that a datagram reaches, through the entry for its address. -/
theorem udpIpRecv_cases (alloc : Bool) (ip : Netif) (destPort : UInt16) (data : List Byte)
    (h : Host τ) :
    udpIpRecv alloc ip destPort data h = h ∨
      ∃ udp fd rx, udp ∈ h.udps ∧ udp.callback = some fd ∧
        udp.lowLevel.handle = ip.handle ∧ udp.port = destPort.toUInt32 ∧
        udpIpRecv alloc ip destPort data h =
          h.setSocket fd { h.sockets fd with rxQueue := (h.sockets fd).rxQueue ++ [rx] } := by
  unfold udpIpRecv
  cases hfind : findUdpByAddr h.udps ip destPort.toUInt32 with
  | none =>
      exact Or.inl rfl
  | some udp =>
      rcases boundAt_iff.1 (List.find?_some hfind) with ⟨hhandle, hport⟩
      cases hfd : udp.callback with
      | none =>
          simp [hfd]
      | some fd =>
          simp only [hfd]
          unfold udpRecv
          split
          · exact Or.inr ⟨udp, fd, _, List.mem_of_find?_eq_some hfind, hfd, hhandle, hport, rfl⟩
          · exact Or.inl rfl

/-- A datagram to the address of an entry is queued on the record that the entry names. -/
theorem queues_of_mem {h : Host τ} (hports : PortsOk h) {udp : UdpT ℕ} (hudp : udp ∈ h.udps)
    {fd : ℕ} (hfd : udp.callback = some fd) :
    ∃ destPort : UInt16, udp.port = destPort.toUInt32 ∧
      ((udpIpRecv true udp.lowLevel destPort [] h).sockets fd).rxQueue ≠
        (h.sockets fd).rxQueue := by
  rcases hports.port udp hudp with ⟨destPort, hport⟩
  refine ⟨destPort, hport, ?_⟩
  have hfound := hports.found udp hudp
  rw [hport] at hfound
  simp [udpIpRecv, hfound, hfd, udpRecv, Host.setSocket]

theorem PortsOk.frame {h h' : Host τ} (hports : PortsOk h) {fds : List ℕ}
    (hframe : Frame fds h h') : PortsOk h' := by
  rcases hports with ⟨hfound, hport, hnamed, hqueue⟩
  refine ⟨?_, ?_, ?_, ?_⟩
  · rw [hframe.udps]
    exact hfound
  · rw [hframe.udps]
    exact hport
  · rw [hframe.udps]
    exact hnamed
  · intro fd hne
    have hold := hqueue fd (hframe.queue fd hne)
    unfold Unnamed at hold ⊢
    rwa [hframe.udps]

theorem portsOk_bind {h : Host τ} (hports : PortsOk h) (allocUdp : Bool) (nifs : List Netif)
    (fd : ℕ) (hostAddr : SockaddrIn) : PortsOk (bind allocUdp nifs fd hostAddr h).1 := by
  cases hentry : bindEntry allocUdp nifs fd hostAddr h with
  | none =>
      exact hports.frame (bind_no_entry hentry).1
  | some ip =>
      rcases bind_entry hentry with ⟨_, _, hfree, hbind⟩
      rw [hbind]
      refine ⟨?_, ?_, ?_, ?_⟩
      · intro udp hudp
        rcases List.mem_cons.1 hudp with rfl | hudp
        · simp [findUdpByAddr, boundAt]
        · -- the new entry is for an address that no older one has
          have hnew : boundAt udp.lowLevel udp.port
              ⟨ip, hostAddr.sinPort.toUInt32, some fd⟩ = false := by
            have hold := List.find?_eq_none.1 hfree udp hudp
            rw [boundAt_iff] at hold
            rw [Bool.eq_false_iff, ne_eq, boundAt_iff]
            exact fun heq => hold ⟨heq.1.symm, heq.2.symm⟩
          have hfound := hports.found udp hudp
          unfold findUdpByAddr at hfound ⊢
          rw [List.find?_cons_of_neg (by simpa using hnew)]
          exact hfound
      · -- a port comes from a `sockaddr_in`
        intro udp hudp
        rcases List.mem_cons.1 hudp with rfl | hudp
        · exact ⟨hostAddr.sinPort, rfl⟩
        · exact hports.port udp hudp
      · intro udp hudp
        rcases List.mem_cons.1 hudp with rfl | hudp
        · exact ⟨fd, rfl⟩
        · exact hports.named udp hudp
      · intro fd' hne hun
        by_cases heq : fd' = fd
        · -- `bind` empties the queue of its own record
          subst heq
          simp [Host.setSocket] at hne
        · have hold : (h.sockets fd').rxQueue ≠ [] := by simpa [Host.setSocket, heq] using hne
          exact hports.queue fd' hold fun udp hudp => hun udp (List.mem_cons_of_mem _ hudp)

theorem portsOk_udpIpRecv {h : Host τ} (hports : PortsOk h) (alloc : Bool) (ip : Netif)
    (destPort : UInt16) (data : List Byte) : PortsOk (udpIpRecv alloc ip destPort data h) := by
  rcases udpIpRecv_cases alloc ip destPort data h with
    hsame | ⟨udp, fd, rx, hudp, hfd, _, _, hset⟩
  · rw [hsame]
    exact hports
  · rw [hset]
    refine ⟨hports.found, hports.port, hports.named, fun fd' hne hun => ?_⟩
    by_cases heq : fd' = fd
    · subst heq
      exact hun udp hudp hfd
    · exact hports.queue fd' (by simpa [Host.setSocket, heq] using hne) hun

end Bind

theorem portsOk_step {h h' : Host τ} {e : HostEvent} (hports : PortsOk h)
    (hstep : hostStep h e = some h') : PortsOk h' := by
  cases e with
  | socket domain type protocol =>
      cases hstep
      cases hslot : slotFor domain type protocol h with
      | none =>
          exact hports.frame (socket_no_slot hslot).2
      | some fd =>
          exact hports.frame (frame_socket hslot)
  | bind allocUdp nifs fd hostAddr =>
      cases hstep
      exact portsOk_bind hports allocUdp nifs fd hostAddr
  | listen env nifs fd =>
      rcases Option.map_eq_some_iff.1 hstep with ⟨⟨h₁, r⟩, hlisten, rfl⟩
      exact hports.frame (listen_attaches hlisten).1
  | accept env nifs fd =>
      rcases Option.map_eq_some_iff.1 hstep with ⟨⟨h₁, r⟩, haccept, rfl⟩
      cases hslot : acceptSlot fd h with
      | none =>
          exact hports.frame (accept_no_slot hslot haccept).2
      | some c =>
          exact hports.frame (accept_slot hslot haccept).2.2
  | connect attempts nifs fd destAddr =>
      rcases Option.map_eq_some_iff.1 hstep with ⟨⟨h₁, r⟩, hconnect, rfl⟩
      exact hports.frame (connect_attaches hconnect).1
  | sendto env udpSendto fd buf destAddr =>
      rcases Option.map_eq_some_iff.1 hstep with ⟨⟨h₁, r⟩, hsend, rfl⟩
      exact hports.frame (frame_sendto [] hsend)
  | recvfrom fd buf len flags =>
      rcases Option.map_eq_some_iff.1 hstep with ⟨⟨h₁, r⟩, hrecv, rfl⟩
      exact hports.frame (frame_recvfrom [] hrecv)
  | close env fd =>
      rcases Option.map_eq_some_iff.1 hstep with ⟨⟨h₁, r⟩, hclose, rfl⟩
      exact hports.frame (frame_close [] hclose)
  | udpArrives alloc ip destPort data =>
      cases hstep
      exact portsOk_udpIpRecv hports alloc ip destPort data
  | tcpArrives env ip dg beyond =>
      cases hstep
      exact hports.frame (frame_tcpIpRecv [] env ip dg beyond h)
  | loops envs =>
      cases hstep
      exact hports.frame (.of_eq rfl rfl : Frame [] h (tcpLoop envs h))

end Socket
end DtsNet
