import DtsNet.Socket.Host

/-!
# Projection — one control block in the run of its host

A host has many control blocks, and calls on descriptors reach them through the records of the
sockets.  Seen from the address of one control block, a step of the host is an event of that
connection, a `close` of its socket, or nothing.  A control block is therefore at every moment what the
machine of one connection makes of the events seen from its address since `tcp_open` put it there.
-/

namespace DtsNet
namespace Socket

open Ip Dblk Tcp Udp

variable {τ : Type} [TimerLib τ]

/-! ## What is seen from an address -/

/-- What the host does with one control block. -/
inductive Touch
  | event (e : Event)
  /-- `close` of its socket, which also shortens TIME_WAIT. -/
  | close (env : Env)

def touchStep (c : Conn τ) : Touch → Conn τ
  | .event e => step c e
  | .close env => closeConn env c

abbrev runTouches (c : Conn τ) (ts : List Touch) : Conn τ :=
  Machine.run touchStep c ts

/-- `send` and `recv` on `fd` reach the control block at `p`. -/
def Host.streams (h : Host τ) (fd p : ℕ) : Bool :=
  isTcpSock (h.sockets fd) && (h.sockets fd).tcp == some p &&
    tcpStatus h (some p) == some .established

/-- What an event of the host is for the control block at `p`. -/
def Host.touch (p : ℕ) (h : Host τ) : HostEvent → Option Touch
  | .sendto env _ fd buf _ => if h.streams fd p then some (.event (.send env buf)) else none
  | .recvfrom fd buf len _ => if h.streams fd p then some (.event (.recv buf len)) else none
  | .close env fd =>
      if isTcpSock (h.sockets fd) && (h.sockets fd).tcp == some p then some (.close env) else none
  | .tcpArrives env ip dg beyond =>
      if h.receiver ip dg = some p then some (.event (.received env (dg.received beyond))) else none
  | .loops envs => (h.tcps.findIdx? fun pc => pc.1 == p).map fun i => .event (.loop (envs i))
  | _ => none

/-- What the events of a run are for it. -/
abbrev touches (p : ℕ) (h : Host τ) (es : List HostEvent) : List Touch :=
  Machine.labels hostStep (Host.touch p) h es

/-- Every allocation of the event succeeds. -/
def HostEvent.AllocOk : HostEvent → Prop
  | .listen env _ _ | .accept env _ _ | .sendto env _ _ _ _ | .close env _
  | .tcpArrives env _ _ _ => env.AllocOk
  | .connect attempts _ _ _ => ∀ i, (attempts i).1.AllocOk
  | .loops envs => ∀ i, (envs i).AllocOk
  | _ => True

/-! ## Steps that leave a control block alone -/

section Frame

omit [TimerLib τ]

theorem tcb_same {h h' : Host τ} (hs : SameTcps h h') (p : ℕ) : h'.tcb p = h.tcb p := by
  simp [Host.tcb, hs.tcps]

theorem tcb_onTcb_self (h : Host τ) (p : ℕ) (f : Conn τ → Conn τ) :
    (h.onTcb p f).tcb p = (h.tcb p).map f :=
  Keyed.lookup_adjust_self _ _ _

theorem tcb_onTcb_of_ne (h : Host τ) {p q : ℕ} (hpq : p ≠ q) (f : Conn τ → Conn τ) :
    (h.onTcb q f).tcb p = h.tcb p :=
  Keyed.lookup_adjust_of_ne _ hpq _

/-- An address that was never given out has no control block. -/
theorem HostInv.tcb_none {h : Host τ} (hh : HostInv h) {p : ℕ} (hp : h.brk ≤ p) : h.tcb p = none := by
  refine Keyed.lookup_eq_none_of_not_mem fun hmem => ?_
  rcases List.mem_map.1 hmem with ⟨pc, hpc, rfl⟩
  exact Nat.not_le.2 (hh.below pc hpc) hp

theorem HostInv.tcb_lt {h : Host τ} (hh : HostInv h) {p : ℕ} {c : Conn τ} (hc : h.tcb p = some c) :
    p < h.brk := by
  by_contra hp
  rw [hh.tcb_none (Nat.not_lt.1 hp)] at hc
  cases hc

theorem HostInv.tcb_iff {h : Host τ} (hh : HostInv h) {p : ℕ} {c : Conn τ} :
    h.tcb p = some c ↔ (p, c) ∈ h.tcps :=
  Keyed.lookup_eq_some_iff_mem hh.nodup

end Frame

/-! ## New control blocks -/

/-- What `tcp_open` made for some step of the host. -/
def MadeBy (e : HostEvent) (c : Conn τ) : Prop :=
  ∃ env ip port dest destPort, (e.AllocOk → env.AllocOk) ∧
    tcpOpenConn env ip port dest destPort = some c

theorem MadeBy.opened {e : HostEvent} {c : Conn τ} (h : MadeBy e c) : Opened c := by
  rcases h with ⟨env, ip, port, dest, destPort, _, hopen⟩
  exact ⟨env, ip, port, dest, destPort, hopen⟩

/-- No control block changes, and at most one is added, at the next address. -/
structure Adds (e : HostEvent) (h h' : Host τ) : Prop where
  brk : h.brk ≤ h'.brk
  old : ∀ p c, h.tcb p = some c → h'.tcb p = some c
  new : ∀ p c, h.tcb p = none → h'.tcb p = some c → p = h.brk ∧ MadeBy e c

theorem Adds.of_same {e : HostEvent} {h h' : Host τ} (hs : SameTcps h h') : Adds e h h' := by
  refine ⟨Nat.le_of_eq hs.brk.symm, fun p c hc => ?_, fun p c hnone hc => ?_⟩
  · rw [tcb_same hs, hc]
  · rw [tcb_same hs, hnone] at hc
    cases hc

theorem Adds.same_left {e : HostEvent} {h h₁ h' : Host τ} (hs : SameTcps h h₁) (ha : Adds e h₁ h') :
    Adds e h h' := by
  refine ⟨hs.brk ▸ ha.brk, fun p c hc => ha.old p c (by rw [tcb_same hs, hc]),
    fun p c hnone hc => ?_⟩
  rcases ha.new p c (by rw [tcb_same hs, hnone]) hc with ⟨hp, hmade⟩
  exact ⟨hp.trans hs.brk, hmade⟩

/-- The records that are rewritten afterwards do not matter. -/
theorem adds_tcpOpenAt {e : HostEvent} {env : Env} {nifs : List Netif} {loc : IpAddr} {port : UInt32}
    {dest : Option IpAddr} {destPort : UInt16} {h h₁ h' : Host τ} {tcp : Option ℕ} (hh : HostInv h)
    (hopen : tcpOpenAt env nifs loc port dest destPort h = some (h₁, tcp))
    (hmem : e.AllocOk → env.AllocOk) (htcb : ∀ p, h'.tcb p = h₁.tcb p) (hbrk : h'.brk = h₁.brk) :
    Adds e h h' := by
  rcases tcpOpenAt_cases hopen with ⟨rfl, _⟩ | ⟨ip, c₀, hmade, _, rfl⟩
  · refine ⟨Nat.le_of_eq hbrk.symm, fun p c hc => by rw [htcb, hc], fun p c hnone hc => ?_⟩
    rw [htcb, hnone] at hc
    cases hc
  · have hother : ∀ p, p ≠ h.brk → h'.tcb p = h.tcb p := fun p hp =>
      (htcb p).trans (Keyed.lookup_append_of_ne h.tcps hp c₀)
    have hlast : h'.tcb h.brk = some c₀ := by
      have hnone : h.tcps.lookup h.brk = none := hh.tcb_none (Nat.le_refl _)
      rw [htcb]
      simp [Host.tcb, List.lookup_append, hnone]
    refine ⟨hbrk ▸ Nat.le_succ _, fun p c hc => ?_, fun p c hnone hc => ?_⟩
    · rw [hother p (Nat.ne_of_lt (hh.tcb_lt hc)), hc]
    · by_cases hp : p = h.brk
      · subst hp
        rw [hlast] at hc
        cases hc
        exact ⟨rfl, env, ip, port, dest, destPort, hmem, hmade⟩
      · rw [hother p hp, hnone] at hc
        cases hc

theorem adds_listen {env : Env} {nifs : List Netif} {fd : ℕ} {h h' : Host τ} {r : ℤ} (hh : HostInv h)
    (hlisten : listen env nifs fd h = some (h', r)) : Adds (.listen env nifs fd) h h' := by
  rcases listen_cases hlisten with ⟨_, rfl, _⟩ | ⟨ip, h₁, tcp, _, _, hopen, rfl, _⟩
  · exact .of_same (.refl _)
  · exact adds_tcpOpenAt hh hopen (fun h => h) (fun p => rfl) rfl

theorem adds_accept {env : Env} {nifs : List Netif} {fd : ℕ} {h h' : Host τ} {r : ℤ} (hh : HostInv h)
    (haccept : accept env nifs fd h = some (h', r)) : Adds (.accept env nifs fd) h h' := by
  rcases accept_moves haccept with hsame | ⟨ip, c, h₁, h₂, tcp, _, _, hsame, hopen, hset⟩
  · exact .of_same hsame
  · refine .same_left hsame
      (adds_tcpOpenAt (hsame.hostInv hh) hopen (fun h => h) (fun p => ?_) ?_)
    · rcases hset with rfl | ⟨_, rfl⟩ <;> rfl
    · rcases hset with rfl | ⟨_, rfl⟩ <;> rfl

theorem adds_connectLoop {e : HostEvent} {nifs : List Netif} {fd : ℕ} {ip : Netif} {dest : IpAddr}
    {destPort : UInt16} {attempts : List (Env × UInt32)} {h h' : Host τ} {r : ℤ} (hh : HostInv h)
    (hmem : ∀ a ∈ attempts, e.AllocOk → a.1.AllocOk)
    (hloop : connectLoop nifs fd ip dest destPort attempts h = some (h', r)) : Adds e h h' := by
  induction attempts generalizing h with
  | nil =>
      cases hloop
      exact .of_same (.refl _)
  | cons attempt attempts ih =>
      rcases attempt with ⟨env, rand⟩
      rcases Option.bind_eq_some_iff.1 hloop with ⟨⟨h₁, tcp⟩, hopen, hrest⟩
      have hmem₁ := hmem (env, rand) (by simp)
      cases tcp with
      | some p =>
          cases hrest
          exact adds_tcpOpenAt hh hopen hmem₁ (fun p => rfl) rfl
      | none =>
          -- a failed attempt adds nothing
          rcases tcpOpenAt_cases hopen with ⟨heq, _⟩ | ⟨_, _, _, htcp, _⟩
          · rcases ih (hh.opened hopen rfl) (fun a ha => hmem a (by simp [ha])) hrest with
              ⟨hbrk, hold, hnew⟩
            subst heq
            exact ⟨hbrk, hold, hnew⟩
          · cases htcp

theorem adds_connect {attempts : Fin 3 → Env × UInt32} {nifs : List Netif} {fd : ℕ}
    {destAddr : SockaddrIn} {h h' : Host τ} {r : ℤ} (hh : HostInv h)
    (hconnect : connect attempts nifs fd destAddr h = some (h', r)) :
    Adds (.connect attempts nifs fd destAddr) h h' := by
  unfold connect at hconnect
  split at hconnect
  · split at hconnect
    · refine adds_connectLoop hh (fun a ha hmem => ?_) hconnect
      rcases (List.mem_ofFn' attempts a).1 ha with ⟨i, rfl⟩
      exact hmem i
    · cases hconnect
      exact .of_same (.refl _)
  · cases hconnect
    exact .of_same (.refl _)

/-! ## Steps of one control block -/

omit [TimerLib τ] in
/-- The control blocks of `h` seen from `p` when the step changes the one at `q`. -/
theorem tcb_onTcb {h : Host τ} {p q : ℕ} {c : Conn τ} (hc : h.tcb p = some c) (f : Conn τ → Conn τ) :
    (h.onTcb q f).tcb p = some (if q = p then f c else c) := by
  by_cases hq : q = p
  · subst hq
    rw [tcb_onTcb_self, hc, if_pos rfl]
    rfl
  · rw [tcb_onTcb_of_ne h (Ne.symm hq), hc, if_neg hq]

omit [TimerLib τ] in
theorem tcb_onTcb_none {h : Host τ} {p : ℕ} (hp : h.tcb p = none) (q : ℕ) (f : Conn τ → Conn τ) :
    (h.onTcb q f).tcb p = none := by
  by_cases hq : p = q
  · subst hq
    rw [tcb_onTcb_self, hp]
    rfl
  · rw [tcb_onTcb_of_ne h hq, hp]

/-- The control block at `p` takes part in the step as its own machine would, and is dropped only by
`tcp_loop`, once CLOSED; a new one has the next address. -/
structure TakesPart (p : ℕ) (e : HostEvent) (h h' : Host τ) : Prop where
  brk : h.brk ≤ h'.brk
  old : ∀ c, h.tcb p = some c →
    h'.tcb p = some (runTouches c (h.touch p e).toList) ∨
      h'.tcb p = none ∧ (runTouches c (h.touch p e).toList).tcp.state = .closed
  new : ∀ c, h.tcb p = none → h'.tcb p = some c → p = h.brk ∧ MadeBy e c

theorem Adds.takesPart {e : HostEvent} {h h' : Host τ} (ha : Adds e h h') {p : ℕ}
    (htouch : h.touch p e = none) : TakesPart p e h h' := by
  refine ⟨ha.brk, fun c hc => Or.inl ?_, ha.new p⟩
  rw [htouch]
  exact ha.old p c hc

/-- The step acts on the control block at `q`. -/
theorem takesPart_onTcb {p q : ℕ} {e : HostEvent} {h : Host τ} {f : Conn τ → Conn τ}
    (htouch : ∀ c, h.tcb p = some c → q = p → runTouches c (h.touch p e).toList = f c)
    (hother : q ≠ p → h.touch p e = none) : TakesPart p e h (h.onTcb q f) := by
  refine ⟨Nat.le_refl _, fun c hc => Or.inl ?_, fun c hnone hc => ?_⟩
  · rw [tcb_onTcb hc]
    by_cases hq : q = p
    · rw [if_pos hq, htouch c hc hq]
    · rw [if_neg hq, hother hq]
      rfl
  · rw [tcb_onTcb_none hnone] at hc
    cases hc

omit [TimerLib τ] in
theorem streams_of {h : Host τ} {fd p : ℕ} {c : Conn τ} (htcp : isTcpSock (h.sockets fd) = true)
    (hp : (h.sockets fd).tcp = some p) (hc : h.tcb p = some c)
    (hest : c.tcp.state = .established) : h.streams fd p = true := by
  simp [Host.streams, htcp, hp, tcpStatus, hc, hest]

omit [TimerLib τ] in
theorem streams_iff {h : Host τ} {fd p : ℕ} :
    h.streams fd p = true ↔ isTcpSock (h.sockets fd) = true ∧ (h.sockets fd).tcp = some p ∧
      ∃ c, h.tcb p = some c ∧ c.tcp.state = .established := by
  simp [Host.streams, tcpStatus, and_assoc]

omit [TimerLib τ] in
theorem streams_none {h : Host τ} {fd : ℕ}
    (hno : ∀ p c, isTcpSock (h.sockets fd) = true → (h.sockets fd).tcp = some p → h.tcb p = some c →
      c.tcp.state ≠ .established) (p : ℕ) : h.streams fd p = false := by
  refine Bool.eq_false_iff.2 fun hstr => ?_
  rcases streams_iff.1 hstr with ⟨htcp, hp, c, hc, hest⟩
  exact hno p c htcp hp hc hest

theorem not_isTcpSock_of_isUdpSock {sk : SocketT} (h : isUdpSock sk = true) :
    isTcpSock sk = false := by
  simp only [isUdpSock, Bool.and_eq_true, beq_iff_eq] at h
  simp [isTcpSock, h.1.2, sockDgram, sockStream]

/-- `send` reaches the control block of an ESTABLISHED connection only. -/
theorem sendto_eq {env : Env} {udpSendto : IpAddr → UInt16 → List Byte → Bool} {fd : ℕ}
    {buf : List Byte} {destAddr : Option SockaddrIn} {h h' : Host τ} {r : ℤ}
    (hsend : sendto env udpSendto fd buf destAddr h = some (h', r)) :
    h' = h ∧ (∀ p, h.streams fd p = false) ∨
      ∃ p, h.streams fd p = true ∧ h' = h.onTcb p fun c => (tcpSend env c buf).1 := by
  cases hudp : isUdpSock (h.sockets fd) with
  | true =>
      left
      simp only [sendto, hudp, if_true] at hsend
      rcases Option.map_eq_some_iff.1 hsend with ⟨sin, _, heq⟩
      refine ⟨by split at heq <;> cases heq <;> rfl, streams_none fun p c htcp => ?_⟩
      rw [not_isTcpSock_of_isUdpSock hudp] at htcp
      cases htcp
  | false =>
      cases htcp : isTcpSock (h.sockets fd) with
      | false =>
          left
          simp only [sendto, hudp, htcp, Bool.false_eq_true, if_false] at hsend
          cases hsend
          exact ⟨rfl, streams_none fun p c htcp' => by simp [htcp] at htcp'⟩
      | true =>
          simp only [sendto, hudp, htcp, Bool.false_eq_true, if_false, if_true] at hsend
          cases hp : (h.sockets fd).tcp with
          | none =>
              left
              simp only [hp] at hsend
              cases hsend
              exact ⟨rfl, streams_none fun p c _ hp' => by simp [hp] at hp'⟩
          | some p =>
              simp only [hp] at hsend
              rcases Option.map_eq_some_iff.1 hsend with ⟨c, hc, heq⟩
              by_cases hest : c.tcp.state = .established
              · right
                rw [if_pos hest] at heq
                cases heq
                exact ⟨p, streams_of htcp hp hc hest, rfl⟩
              · left
                rw [if_neg hest] at heq
                cases heq
                refine ⟨rfl, streams_none fun q d _ hq hd => ?_⟩
                rw [hp] at hq
                cases hq
                rw [hc] at hd
                cases hd
                exact hest

omit [TimerLib τ] in
/-- `recv` reads from the queue of the record, or from the control block of an ESTABLISHED
connection. -/
theorem recvfrom_eq {fd : ℕ} {buf : List Byte} {len flags : ℕ} {h h' : Host τ} {r : List Byte × ℤ}
    (hrecv : recvfrom fd buf len flags h = some (h', r)) :
    SameTcps h h' ∧ (∀ p, h.streams fd p = false) ∨
      ∃ p, h.streams fd p = true ∧ h' = h.onTcb p fun c => recvEvent c buf len := by
  cases hudp : isUdpSock (h.sockets fd) with
  | true =>
      left
      have hno := not_isTcpSock_of_isUdpSock hudp
      simp only [recvfrom, hudp, if_true] at hrecv
      refine ⟨?_, streams_none fun p c htcp => by simp [hno] at htcp⟩
      split at hrecv
      · cases hrecv
        exact .refl _
      · cases hrecv
        exact sameTcps_setSocket h rfl
  | false =>
      cases htcp : isTcpSock (h.sockets fd) with
      | false =>
          left
          simp only [recvfrom, hudp, htcp, Bool.false_eq_true, if_false] at hrecv
          cases hrecv
          exact ⟨.refl _, streams_none fun p c htcp' => by simp [htcp] at htcp'⟩
      | true =>
          simp only [recvfrom, hudp, htcp, Bool.false_eq_true, if_false, if_true] at hrecv
          cases hp : (h.sockets fd).tcp with
          | none =>
              left
              simp only [hp] at hrecv
              cases hrecv
              exact ⟨.refl _, streams_none fun p c _ hp' => by simp [hp] at hp'⟩
          | some p =>
              simp only [hp] at hrecv
              rcases Option.map_eq_some_iff.1 hrecv with ⟨c, hc, heq⟩
              by_cases hest : c.tcp.state = .established
              · right
                rw [if_pos hest] at heq
                cases heq
                exact ⟨p, streams_of htcp hp hc hest, rfl⟩
              · left
                rw [if_neg hest] at heq
                refine ⟨by split at heq <;> cases heq <;> exact .refl _, ?_⟩
                refine streams_none fun q d _ hq hd => ?_
                rw [hp] at hq
                cases hq
                rw [hc] at hd
                cases hd
                exact hest

/-- `close` acts on the control block of a TCP socket, if there is one. -/
theorem close_eq {env : Env} {fd : ℕ} {h h' : Host τ} {r : ℤ}
    (hclose : close env fd h = some (h', r)) :
    h' = memFreeSocket h fd ∧
        (∀ p, (isTcpSock (h.sockets fd) && (h.sockets fd).tcp == some p) = false) ∨
      ∃ p, (isTcpSock (h.sockets fd) && (h.sockets fd).tcp == some p) = true ∧
        h' = memFreeSocket (h.onTcb p (closeConn env)) fd := by
  unfold close at hclose
  dsimp only at hclose
  cases htcp : isTcpSock (h.sockets fd) with
  | false =>
      left
      simp only [htcp] at hclose
      cases hclose
      exact ⟨rfl, fun p => rfl⟩
  | true =>
      cases hp : (h.sockets fd).tcp with
      | none =>
          left
          simp only [htcp, hp] at hclose
          cases hclose
          exact ⟨rfl, fun p => rfl⟩
      | some p =>
          right
          simp only [htcp, hp] at hclose
          rcases Option.map_eq_some_iff.1 hclose with ⟨c, _, heq⟩
          cases heq
          exact ⟨p, by simp, rfl⟩

/-- `tcp_loop` visits the control block at `p` with the environment of its place in the list. -/
theorem takesPart_loops {h : Host τ} (hh : HostInv h) (envs : ℕ → Env) (p : ℕ) :
    TakesPart p (.loops envs) h (tcpLoop envs h) := by
  have hh' : HostInv (tcpLoop envs h) := hostInv_tcpLoop hh envs
  have hmem : ∀ c', (p, c') ∈ (tcpLoop envs h).tcps ↔ ∃ i c, h.tcps[i]? = some (p, c) ∧
      c' = tcpLoopVisit (envs i) c ∧ c'.tcp.state ≠ .closed := by
    intro c'
    simp only [tcpLoop, List.mem_filter, List.mem_mapIdx, bne_iff_ne]
    constructor
    · rintro ⟨⟨i, hi, heq⟩, hst⟩
      have hget : h.tcps[i]? = some (p, h.tcps[i].2) := by
        rw [List.getElem?_eq_getElem hi, ← (Prod.mk.inj heq).1]
      exact ⟨i, h.tcps[i].2, hget, ((Prod.mk.inj heq).2).symm, hst⟩
    · rintro ⟨i, c, hget, rfl, hst⟩
      rcases List.getElem?_eq_some_iff.1 hget with ⟨hi, heq⟩
      exact ⟨⟨i, hi, by rw [heq]⟩, hst⟩
  refine ⟨Nat.le_refl _, fun c hc => ?_, fun c hnone hc => ?_⟩
  · rcases List.mem_iff_getElem?.1 (hh.tcb_iff.1 hc) with ⟨i, hi⟩
    have htouch : h.touch p (.loops envs) = some (.event (.loop (envs i))) := by
      simp only [Host.touch, Keyed.findIdx?_eq_some hh.nodup hi, Option.map_some]
    have hrun : runTouches c (h.touch p (.loops envs)).toList = tcpLoopVisit (envs i) c := by
      rw [htouch]
      rfl
    rw [hrun]
    by_cases hst : (tcpLoopVisit (envs i) c).tcp.state = .closed
    · right
      refine ⟨Option.eq_none_iff_forall_ne_some.2 fun c' hc' => ?_, hst⟩
      rcases (hmem c').1 (hh'.tcb_iff.1 hc') with ⟨j, d, hj, rfl, hne⟩
      have hj' := Keyed.findIdx?_eq_some hh.nodup hj
      rw [Keyed.findIdx?_eq_some hh.nodup hi] at hj'
      cases hj'
      rw [hi] at hj
      cases hj
      exact hne hst
    · exact Or.inl (hh'.tcb_iff.2 ((hmem _).2 ⟨i, c, hi, rfl, hst⟩))
  · rcases (hmem c).1 (hh'.tcb_iff.1 hc) with ⟨i, d, hi, _⟩
    rw [hh.tcb_iff.2 (List.mem_of_getElem? hi)] at hnone
    cases hnone

theorem takesPart_step {h h' : Host τ} {e : HostEvent} (hh : HostInv h)
    (hstep : hostStep h e = some h') (p : ℕ) : TakesPart p e h h' := by
  cases e with
  | socket domain type protocol =>
      cases hstep
      exact (Adds.of_same (sameTcps_socket domain type protocol h)).takesPart rfl
  | bind allocUdp nifs fd hostAddr =>
      cases hstep
      exact (Adds.of_same (sameTcps_bind allocUdp nifs fd hostAddr h)).takesPart rfl
  | listen env nifs fd =>
      rcases Option.map_eq_some_iff.1 hstep with ⟨⟨h₁, r⟩, hlisten, rfl⟩
      exact (adds_listen hh hlisten).takesPart rfl
  | accept env nifs fd =>
      rcases Option.map_eq_some_iff.1 hstep with ⟨⟨h₁, r⟩, haccept, rfl⟩
      exact (adds_accept hh haccept).takesPart rfl
  | connect attempts nifs fd destAddr =>
      rcases Option.map_eq_some_iff.1 hstep with ⟨⟨h₁, r⟩, hconnect, rfl⟩
      exact (adds_connect hh hconnect).takesPart rfl
  | sendto env udpSendto fd buf destAddr =>
      rcases Option.map_eq_some_iff.1 hstep with ⟨⟨h₁, r⟩, hsend, rfl⟩
      rcases sendto_eq hsend with ⟨rfl, hno⟩ | ⟨q, hq, rfl⟩
      · exact (Adds.of_same (.refl _)).takesPart (by simp [Host.touch, hno])
      · refine takesPart_onTcb (fun c _ hqp => ?_) fun hqp => ?_
        · subst hqp
          simp [Host.touch, hq, touchStep, step]
        · have hp : h.streams fd p = false := by
            refine Bool.eq_false_iff.2 fun hp => hqp ?_
            have hsome := (streams_iff.1 hp).2.1
            rw [(streams_iff.1 hq).2.1] at hsome
            exact Option.some.inj hsome
          simp [Host.touch, hp]
  | recvfrom fd buf len flags =>
      rcases Option.map_eq_some_iff.1 hstep with ⟨⟨h₁, r⟩, hrecv, rfl⟩
      rcases recvfrom_eq hrecv with ⟨hsame, hno⟩ | ⟨q, hq, rfl⟩
      · exact (Adds.of_same hsame).takesPart (by simp [Host.touch, hno])
      · refine takesPart_onTcb (fun c _ hqp => ?_) fun hqp => ?_
        · subst hqp
          simp [Host.touch, hq, touchStep, step]
        · have hp : h.streams fd p = false := by
            refine Bool.eq_false_iff.2 fun hp => hqp ?_
            have hsome := (streams_iff.1 hp).2.1
            rw [(streams_iff.1 hq).2.1] at hsome
            exact Option.some.inj hsome
          simp [Host.touch, hp]
  | close env fd =>
      rcases Option.map_eq_some_iff.1 hstep with ⟨⟨h₁, r⟩, hclose, rfl⟩
      rcases close_eq hclose with ⟨rfl, hno⟩ | ⟨q, hq, rfl⟩
      · have hsame : SameTcps h (memFreeSocket h fd) := ⟨rfl, rfl, fun _ => rfl⟩
        exact (Adds.of_same hsame).takesPart (by simp only [Host.touch, hno]; rfl)
      · have hact : TakesPart p (.close env fd) h (h.onTcb q (closeConn env)) := by
          refine takesPart_onTcb (fun c _ hqp => ?_) fun hqp => ?_
          · subst hqp
            simp only [Host.touch, hq, if_true]
            rfl
          · simp only [Bool.and_eq_true, beq_iff_eq] at hq
            simp [Host.touch, hq.2, hqp]
        exact ⟨hact.brk, hact.old, hact.new⟩
  | udpArrives alloc ip destPort data =>
      cases hstep
      exact (Adds.of_same (sameTcps_udpIpRecv alloc ip destPort data h)).takesPart rfl
  | tcpArrives env ip dg beyond =>
      cases hstep
      rw [tcpIpRecv_eq hh]
      cases hq : h.receiver ip dg with
      | none =>
          exact (Adds.of_same (.refl h)).takesPart (by simp [Host.touch, hq])
      | some q =>
          refine takesPart_onTcb (fun c _ hqp => ?_) fun hqp => ?_
          · subst hqp
            simp [Host.touch, hq, touchStep, step]
          · simp [Host.touch, hq, hqp]
  | loops envs =>
      cases hstep
      exact takesPart_loops hh envs p

/-! ## Runs -/

/-- Every control block of every reachable host is what the machine of one connection makes of the events
that the run meant for its address, since `tcp_open` put it there. -/
theorem host_refines {es : List HostEvent} {h : Host τ} (hrun : runHost .init es = some h) {p : ℕ}
    {c : Conn τ} (hc : h.tcb p = some c) :
    ∃ pre e post h₀ h₁ c₀, es = pre ++ e :: post ∧ runHost .init pre = some h₀ ∧
      hostStep h₀ e = some h₁ ∧ p = h₀.brk ∧ Opened c₀ ∧ h₁.tcb p = some c₀ ∧
      runHost h₁ post = some h ∧ c = runTouches c₀ (touches p h₁ post) := by
  have hacts : ∀ (h : Host τ) e h' c c', HostInv h → hostStep h e = some h' → h.tcb p = some c →
      h'.tcb p = some c' → c' = runTouches c (h.touch p e).toList := by
    intro h e h' c c' hh hstep hc hc'
    rcases (takesPart_step hh hstep p).old c hc with h | ⟨h, _⟩
    · exact Option.some.inj (hc'.symm.trans h)
    · rw [h] at hc'
      cases hc'
  rcases Machine.tryRun_part (V := fun h : Host τ => h.tcb p)
    (M := fun h e c => p = h.brk ∧ MadeBy e c) (fun _ _ _ hh hstep => hostInv_step hh hstep) hacts
    (fun _ _ _ c hh hstep hnone hc => (takesPart_step hh hstep p).new c hnone hc) hostInv_init rfl hrun hc
    with ⟨pre, e, post, h₀, h₁, c₀, hes, hpre, hstep, hnew, ⟨hp, hmade⟩, hpost, hact⟩
  exact ⟨pre, e, post, h₀, h₁, c₀, hes, hpre, hstep, hp, hmade.opened, hnew, hpost, hact⟩

/-- A host opens a connection, and the answer to its SYN arrives. -/
def sampleClient : List HostEvent :=
  [.socket afInet sockStream 0,
    .connect (fun _ => (.working 100, 5000)) [sampleIp] 1 ⟨⟨2, 1, 168, 192⟩, 80⟩,
    .tcpArrives (.working 102) sampleIp
      { src := samplePeer
        dest := sampleIp.addr
        seg := { peerSegment 200 101 (segFlagSyn ||| segFlagAck) [] with destPort := 6024 } } []]

theorem host_refines_sample :
    ∃ (h : Host Deadline) (c c₀ : Conn Deadline) (ts : List Touch),
      runHost .init sampleClient = some h ∧ h.tcb 1 = some c ∧ c.tcp.state = .established ∧
        Opened c₀ ∧ c = runTouches c₀ ts := by
  have hrun := (Option.some_get (x := runHost (Host.init : Host Deadline) sampleClient) (by decide)).symm
  have hc := (Option.some_get
    (x := ((runHost (Host.init : Host Deadline) sampleClient).get (by decide)).tcb 1) (by decide)).symm
  rcases host_refines hrun hc with ⟨_, _, post, _, h₁, c₀, _, _, _, _, hmade, _, _, hts⟩
  exact ⟨_, _, c₀, touches 1 h₁ post, hrun, hc, by decide, hmade, hts⟩

end Socket
end DtsNet
