import DtsNet.Socket.Host
import DtsNet.Tcp.MissingSegment

/-!
# Listening — whether a listening socket can still accept

`accept` takes a connection that is ESTABLISHED at the moment of the poll, and only then puts a new
listener in its place.  A peer whose FIN arrives between two polls takes the control block on to
CLOSE_WAIT, where it stays: from then on the socket accepts nothing.  `EarlyFin` describes the
arrivals that do this; as long as none happens the socket can accept.
-/

namespace DtsNet
namespace Socket

open Ip Dblk Tcp Udp

variable {τ : Type} [TimerLib τ]

/-! ## The property -/

/-- The states from which an `accept` can still succeed. -/
def Acceptable (s : State) : Prop :=
  s = .listen ∨ s = .synReceived ∨ s = .established

/-- The socket has a control block, and an `accept` can still succeed with it. -/
def CanAccept (fd : ℕ) (h : Host τ) : Prop :=
  ∃ c, h.attached fd = some c ∧ Acceptable c.tcp.state

/-- An acknowledgment that is looked at carries a FIN, and reaches the control block of the socket
in SYN_RECEIVED or ESTABLISHED. -/
def EarlyFin (fd : ℕ) (h : Host τ) : HostEvent → Prop
  | .tcpArrives _ ip dg _ =>
      ∃ p c, (h.sockets fd).tcp = some p ∧ h.receiver ip dg = some p ∧ h.tcb p = some c ∧
        (c.tcp.state = .synReceived ∨ c.tcp.state = .established) ∧
        AckLooked c.tcp dg.seg ∧ segCtrlF dg.seg = true
  | _ => False

/-- Where the step calls `tcp_open` for a listener, it succeeds. -/
def OpensOk (h : Host τ) : HostEvent → Prop
  | .listen env nifs fd | .accept env nifs fd =>
      ∀ ip, (h.sockets fd).ip = some ip →
        ∃ h' p, tcpOpenAt env nifs ip.addr (h.sockets fd).port none 0 h = some (h', some p)
  | _ => True

/-- The calls that end the listening of `fd`. -/
def HostEvent.Ends (fd : ℕ) : HostEvent → Prop
  | .close _ fd' => fd' = fd
  | .connect _ _ fd' _ => fd' = fd
  | _ => False

/-! ## What the steps do to the control block of the socket -/

section Frame

omit [TimerLib τ]

theorem attached_setSocket_self (h : Host τ) (fd : ℕ) (sk : SocketT) :
    (h.setSocket fd sk).attached fd = sk.tcp.bind h.tcb := by
  simp [Host.attached, Host.setSocket]
  rfl

theorem attached_setSocket_of_ne (h : Host τ) {fd fd' : ℕ} (hfd : fd' ≠ fd) (sk : SocketT) :
    (h.setSocket fd sk).attached fd' = h.attached fd' := by
  simp [Host.attached, Host.setSocket, Function.update_of_ne hfd]
  rfl

theorem attached_eq {h : Host τ} {fd p : ℕ} (hp : (h.sockets fd).tcp = some p) :
    h.attached fd = h.tcb p := by
  simp [Host.attached, hp]

/-- A step of the control block at the record's own address. -/
theorem attached_onTcb_self {h : Host τ} {fd p : ℕ} (hp : (h.sockets fd).tcp = some p)
    (f : Conn τ → Conn τ) : (h.onTcb p f).attached fd = (h.attached fd).map f := by
  have hp' : ((h.onTcb p f).sockets fd).tcp = some p := hp
  rw [attached_eq hp, attached_eq hp']
  exact Keyed.lookup_adjust_self _ _ _

theorem attached_onTcb_of_ne {h : Host τ} {fd p : ℕ} (hp : (h.sockets fd).tcp ≠ some p)
    (f : Conn τ → Conn τ) : (h.onTcb p f).attached fd = h.attached fd := by
  cases hq : (h.sockets fd).tcp with
  | none =>
      have hq' : ((h.onTcb p f).sockets fd).tcp = none := hq
      simp [Host.attached, hq, hq']
  | some q =>
      have hq' : ((h.onTcb p f).sockets fd).tcp = some q := hq
      have hne : q ≠ p := fun heq => hp (heq ▸ hq)
      rw [attached_eq hq, attached_eq hq']
      exact Keyed.lookup_adjust_of_ne _ hne _

end Frame

omit [TimerLib τ] in
/-- What a step of one control block keeps, it keeps for every record. -/
theorem CanAccept.onTcb {fd p : ℕ} {h : Host τ} (hfd : CanAccept fd h) {f : Conn τ → Conn τ}
    (hf : (h.sockets fd).tcp = some p → ∀ c, h.attached fd = some c → Acceptable c.tcp.state →
      Acceptable (f c).tcp.state) : CanAccept fd (h.onTcb p f) := by
  rcases hfd with ⟨c, hc, hacc⟩
  by_cases hp : (h.sockets fd).tcp = some p
  · exact ⟨f c, by rw [attached_onTcb_self hp, hc]; rfl, hf hp c hc hacc⟩
  · exact ⟨c, by rw [attached_onTcb_of_ne hp, hc], hacc⟩

omit [TimerLib τ] in
theorem CanAccept.same {fd : ℕ} {h h' : Host τ} (hfd : CanAccept fd h) (hsame : SameTcps h h') :
    CanAccept fd h' := by
  rcases hfd with ⟨c, hc, hacc⟩
  exact ⟨c, by rw [hsame.attached, hc], hacc⟩

/-- `tcp_open` leaves the control blocks that records point to as they are. -/
theorem attached_tcpOpenAt {env : Env} {nifs : List Netif} {loc : IpAddr} {port : UInt32}
    {dest : Option IpAddr} {destPort : UInt16} {h h' : Host τ} {tcp : Option ℕ} (hh : HostInv h)
    (hopen : tcpOpenAt env nifs loc port dest destPort h = some (h', tcp)) (fd : ℕ) :
    h'.attached fd = h.attached fd ∧ h'.sockets = h.sockets := by
  rcases tcpOpenAt_cases hopen with ⟨rfl, _⟩ | ⟨_, c, _, _, rfl⟩
  · exact ⟨rfl, rfl⟩
  · refine ⟨?_, rfl⟩
    cases hp : (h.sockets fd).tcp with
    | none =>
        simp [Host.attached, hp]
    | some p =>
        have hne : p ≠ h.brk := Nat.ne_of_lt (hh.pointers fd p hp)
        have hlookup := Keyed.lookup_append_of_ne h.tcps hne c
        simpa [Host.attached, Host.tcb, hp] using hlookup

/-- The record gets the new listener. -/
theorem canAccept_opened {env : Env} {nifs : List Netif} {loc : IpAddr} {port : UInt32}
    {destPort : UInt16} {h h' : Host τ} {p : ℕ} (hh : HostInv h)
    (hopen : tcpOpenAt env nifs loc port none destPort h = some (h', some p)) (fd : ℕ)
    {sk : SocketT} (hsk : sk.tcp = some p) : CanAccept fd (h'.setSocket fd sk) := by
  rcases tcpOpenAt_cases hopen with ⟨_, htcp⟩ | ⟨ip, c, hconn, htcp, rfl⟩
  · cases htcp
  · cases htcp
    have hstate : c.tcp.state = .listen := by
      rw [tcpOpenConn_passive] at hconn
      cases hconn
      rfl
    have hnot : h.tcps.lookup h.brk = none := by
      refine Keyed.lookup_eq_none_of_not_mem ?_
      intro hmem
      rcases List.mem_map.1 hmem with ⟨pc, hpc, heq⟩
      exact Nat.lt_irrefl _ (heq ▸ hh.below pc hpc)
    refine ⟨c, ?_, Or.inl hstate⟩
    rw [attached_setSocket_self, hsk]
    simp [Host.tcb, List.lookup_append, hnot]

/-- What `tcp_open` returns does not depend on the records. -/
theorem tcpOpenAt_same {env : Env} {nifs : List Netif} {loc : IpAddr} {port : UInt32}
    {dest : Option IpAddr} {destPort : UInt16} {h h₁ h' h₁' : Host τ} {tcp tcp₁ : Option ℕ}
    (hsame : SameTcps h h₁) (hopen : tcpOpenAt env nifs loc port dest destPort h = some (h', tcp))
    (hopen₁ : tcpOpenAt env nifs loc port dest destPort h₁ = some (h₁', tcp₁)) : tcp₁ = tcp := by
  have hsnd : (tcpOpenAt env nifs loc port dest destPort h₁).map Prod.snd =
      (tcpOpenAt env nifs loc port dest destPort h).map Prod.snd := by
    unfold tcpOpenAt
    rw [hsame.tcps, hsame.brk]
    cases ipFindNetif nifs loc with
    | none =>
        rfl
    | some ip =>
        dsimp only
        split
        · rfl
        · split
          · cases tcpOpenConn (τ := τ) env ip port dest destPort <;> rfl
          · rfl
  simpa [hopen, hopen₁] using hsnd

/-! ## The states of the control block -/

theorem acceptable_tcpReceived {c : Conn τ} (env : Env) (seg : Received)
    (hwaits : PassiveWaits c) (hacc : Acceptable c.tcp.state)
    (hfin : c.tcp.state = .synReceived ∨ c.tcp.state = .established →
      AckLooked c.tcp seg.toSegment → segCtrlF seg.toSegment = false) :
    Acceptable (tcpReceived env c seg).tcp.state := by
  rcases hacc with hst | hst | hst
  · have hmem := tcpReceived_mem_follows env c seg
    simp only [hst, follows, List.mem_cons, List.not_mem_nil, or_false] at hmem
    rcases hmem with h | h
    · exact Or.inl h
    · exact Or.inr (Or.inl h)
  · have h : tcpReceived env c seg = receivedWhenSynReceived env c seg := by
      simp [tcpReceived, hst, receivedEventProcess]
    rw [h]
    cases hseq : seqAccepted c.tcp seg.toSegment with
    | false =>
        exact Or.inr (Or.inl (by simp [receivedWhenSynReceived_of_rejected env c hseq, hst]))
    | true =>
        cases hR : segCtrlR seg.toSegment with
        | true =>
            -- a passive connection goes back to LISTEN
            have hpassive := hwaits (Or.inr hst)
            exact Or.inl (by simp [receivedWhenSynReceived_of_rst env c hseq hR, hpassive])
        | false =>
            cases hA : segCtrlA seg.toSegment with
            | false =>
                exact Or.inr (Or.inl (by
                  simp [receivedWhenSynReceived_of_no_ack env c hseq hR hA, hst]))
            | true =>
                have hF := hfin (Or.inl hst) ⟨hseq, hR, hA⟩
                rw [receivedWhenSynReceived_of_ack env c hseq hR hA, hF]
                cases hack : sncmp c.tcp.snd.una .le seg.ack .le c.tcp.snd.nxt with
                | true =>
                    exact Or.inr (Or.inr (by simp [ackSynReceived_of env c hack]))
                | false =>
                    exact Or.inr (Or.inl (by simp [ackSynReceived_of_not env c hack, hst]))
  · have h : tcpReceived env c seg = receivedWhenEstablished env c seg := by
      simp [tcpReceived, hst, receivedEventProcess]
    rw [h]
    cases hseq : seqAccepted c.tcp seg.toSegment with
    | false =>
        exact Or.inr (Or.inr (by simp [receivedWhenEstablished_of_rejected env c hseq, hst]))
    | true =>
        by_cases hRA : segCtrlR seg.toSegment = true ∨ segCtrlA seg.toSegment = false
        · exact Or.inr (Or.inr (by rw [receivedWhenEstablished_of_ignored env c hseq hRA, hst]))
        · rw [not_or, Bool.not_eq_true, Bool.not_eq_false] at hRA
          have hF := hfin (Or.inr hst) ⟨hseq, hRA.1, hRA.2⟩
          rw [receivedWhenEstablished_of_ack env c hseq hRA.1 hRA.2, hF]
          exact Or.inr (Or.inr (by simp [textEstablished, hst]))

/-- A FIN that is looked at leads to CLOSE_WAIT. -/
theorem closeWait_of_fin {c : Conn τ} (env : Env) {seg : Received}
    (hst : c.tcp.state = .synReceived ∨ c.tcp.state = .established)
    (hlooked : AckLooked c.tcp seg.toSegment) (hF : segCtrlF seg.toSegment = true) :
    (tcpReceived env c seg).tcp.state = .closeWait := by
  rcases hlooked with ⟨hseq, hR, hA⟩
  rcases hst with hst | hst
  · simp [tcpReceived, hst, receivedEventProcess, receivedWhenSynReceived_of_ack env c hseq hR hA, hF]
  · simp [tcpReceived, hst, receivedEventProcess, receivedWhenEstablished_of_ack env c hseq hR hA, hF]

theorem tcpLoopVisit_state_of_acceptable {c : Conn τ} (env : Env)
    (hacc : Acceptable c.tcp.state) : (tcpLoopVisit env c).tcp.state = c.tcp.state := by
  rcases tcpLoopVisit_cases env c with h | ⟨_, h⟩ | ⟨htw, _⟩ | ⟨_, _, h⟩
  · rw [h]
  · rw [h, tcpRetransmit_tcp]
    rfl
  · rcases hacc with hst | hst | hst <;> simp [hst] at htw
  · rw [h]
    rfl

/-! ## One step -/

/-- Another record gets a new pointer. -/
theorem CanAccept.opened_other {env : Env} {nifs : List Netif} {loc : IpAddr} {port : UInt32}
    {dest : Option IpAddr} {destPort : UInt16} {h h' : Host τ} {tcp : Option ℕ} {fd fd' : ℕ}
    (hfd : CanAccept fd h) (hh : HostInv h)
    (hopen : tcpOpenAt env nifs loc port dest destPort h = some (h', tcp)) (hne : fd ≠ fd')
    (sk : SocketT) : CanAccept fd (h'.setSocket fd' sk) := by
  rcases hfd with ⟨c, hc, hacc⟩
  refine ⟨c, ?_, hacc⟩
  rw [attached_setSocket_of_ne _ hne, (attached_tcpOpenAt hh hopen fd).1, hc]

theorem canAccept_listen {env : Env} {nifs : List Netif} {fd fd' : ℕ} {h h' : Host τ} {r : ℤ}
    (hh : HostInv h) (hfd : CanAccept fd h) (hopens : OpensOk h (.listen env nifs fd'))
    (hlisten : listen env nifs fd' h = some (h', r)) : CanAccept fd h' := by
  rcases listen_cases hlisten with ⟨_, rfl, _⟩ | ⟨ip, h₁, tcp, _, hip, hopen, rfl, _⟩
  · exact hfd
  · by_cases hne : fd = fd'
    · subst hne
      rcases hopens ip hip with ⟨h₂, p, hopen'⟩
      rw [hopen] at hopen'
      cases hopen'
      exact canAccept_opened hh hopen fd rfl
    · exact hfd.opened_other hh hopen hne _

theorem canAccept_accept {env : Env} {nifs : List Netif} {fd fd' : ℕ} {h h' : Host τ} {r : ℤ}
    (hh : HostInv h) (hfd : CanAccept fd h) (hopens : OpensOk h (.accept env nifs fd'))
    (haccept : accept env nifs fd' h = some (h', r)) : CanAccept fd h' := by
  rcases accept_moves haccept with hsame | ⟨ip, c, h₁, h₂, tcp, hstatus, hip, hsame, hopen, hset⟩
  · exact hfd.same hsame
  · have hh₁ : HostInv h₁ := hsame.hostInv hh
    have hfd₁ : CanAccept fd h₁ := hfd.same hsame
    have htcp : ∃ p, tcp = some p := by
      rcases hopens ip hip with ⟨h₃, p, hopen'⟩
      exact ⟨p, tcpOpenAt_same hsame hopen' hopen⟩
    rcases htcp with ⟨p, rfl⟩
    rcases hset with rfl | ⟨hc, rfl⟩
    · by_cases hne : fd = fd'
      · subst hne
        exact canAccept_opened hh₁ hopen fd rfl
      · exact hfd₁.opened_other hh₁ hopen hne _
    · by_cases hfc : fd = c
      · -- the socket gets the established control block of the other one
        subst hfc
        cases hq : (h.sockets fd').tcp with
        | none =>
            simp [tcpStatus, hq] at hstatus
        | some q =>
            rw [hq] at hstatus
            rcases Option.map_eq_some_iff.1 hstatus with ⟨d, hd, hst⟩
            have hd₂ : h₂.attached fd' = some d := by
              rw [(attached_tcpOpenAt hh₁ hopen fd').1, hsame.attached, attached_eq hq, hd]
            have hq₂ : (h₂.sockets fd').tcp = some q := by
              rw [(attached_tcpOpenAt hh₁ hopen fd').2, hsame.tcp, hq]
            refine ⟨d, ?_, Or.inr (Or.inr hst)⟩
            rw [attached_setSocket_self]
            rw [attached_eq hq₂] at hd₂
            exact hd₂
      · have hfd₂ : CanAccept fd (h₂.setSocket fd' { h₂.sockets fd' with tcp := some p }) := by
          by_cases hne : fd = fd'
          · subst hne
            exact canAccept_opened hh₁ hopen fd rfl
          · exact hfd₁.opened_other hh₁ hopen hne _
        rcases hfd₂ with ⟨d, hd, hacc⟩
        exact ⟨d, by rw [attached_setSocket_of_ne _ hfc, hd], hacc⟩

theorem canAccept_connect {attempts : Fin 3 → Env × UInt32} {nifs : List Netif} {fd fd' : ℕ}
    {destAddr : SockaddrIn} {h h' : Host τ} {r : ℤ} (hh : HostInv h) (hfd : CanAccept fd h)
    (hne : fd ≠ fd') (hconnect : connect attempts nifs fd' destAddr h = some (h', r)) :
    CanAccept fd h' := by
  have hloop : ∀ (ip : Netif) (dest : IpAddr) (destPort : UInt16) (l : List (Env × UInt32))
      (h : Host τ), HostInv h → CanAccept fd h →
      connectLoop nifs fd' ip dest destPort l h = some (h', r) → CanAccept fd h' := by
    intro ip dest destPort l
    induction l with
    | nil =>
        intro h _ hfd hloop
        cases hloop
        exact hfd
    | cons attempt l ih =>
        rcases attempt with ⟨env, rand⟩
        intro h hh hfd hloop
        rcases Option.bind_eq_some_iff.1 hloop with ⟨⟨h₁, tcp⟩, hopen, hrest⟩
        have hfd₁ : CanAccept fd (h₁.setSocket fd' { h₁.sockets fd' with tcp := tcp }) :=
          hfd.opened_other hh hopen hne _
        cases tcp with
        | some p =>
            cases hrest
            exact hfd₁
        | none =>
            exact ih _ (hh.opened hopen rfl) hfd₁ hrest
  unfold connect at hconnect
  split at hconnect
  · split at hconnect
    · exact hloop _ _ _ _ h hh hfd hconnect
    · cases hconnect
      exact hfd
  · cases hconnect
    exact hfd

theorem canAccept_tcpLoop {fd : ℕ} {h : Host τ} (hh : HostInv h) (hfd : CanAccept fd h)
    (envs : ℕ → Env) : CanAccept fd (tcpLoop envs h) := by
  rcases hfd with ⟨c, hc, hacc⟩
  rcases Option.bind_eq_some_iff.1 hc with ⟨p, hp, hc⟩
  have hmem : (p, c) ∈ h.tcps := (Keyed.lookup_eq_some_iff_mem hh.nodup).1 hc
  rcases List.mem_iff_getElem.1 hmem with ⟨i, hi, hget⟩
  have hstate := tcpLoopVisit_state_of_acceptable (envs i) hacc
  have hmem' : (p, tcpLoopVisit (envs i) c) ∈ (tcpLoop envs h).tcps := by
    refine List.mem_filter.2 ⟨?_, ?_⟩
    · refine List.mem_mapIdx.2 ⟨i, hi, ?_⟩
      simp [hget]
    · rcases hacc with hst | hst | hst <;> simp [hstate, hst]
  refine ⟨tcpLoopVisit (envs i) c, ?_, hstate ▸ hacc⟩
  have hp' : ((tcpLoop envs h).sockets fd).tcp = some p := hp
  rw [attached_eq hp']
  exact (Keyed.lookup_eq_some_iff_mem (hostInv_tcpLoop hh envs).nodup).2 hmem'

omit [TimerLib τ] in
/-- The control block of a record is one of the table. -/
theorem passiveWaits_attached {h : Host τ} (hh : HostInv h) {fd : ℕ} {c : Conn τ}
    (hc : h.attached fd = some c) : PassiveWaits c := by
  rcases Option.bind_eq_some_iff.1 hc with ⟨p, _, hc⟩
  exact hh.waits (p, c) ((Keyed.lookup_eq_some_iff_mem hh.nodup).1 hc)

theorem canAccept_step {fd : ℕ} {h h' : Host τ} {e : HostEvent} (hh : HostInv h)
    (hfd : CanAccept fd h) (hends : ¬ e.Ends fd) (hopens : OpensOk h e) (hfin : ¬ EarlyFin fd h e)
    (hstep : hostStep h e = some h') : CanAccept fd h' := by
  cases e with
  | socket domain type protocol =>
      cases hstep
      exact hfd.same (sameTcps_socket domain type protocol h)
  | bind allocUdp nifs fd' hostAddr =>
      cases hstep
      exact hfd.same (sameTcps_bind allocUdp nifs fd' hostAddr h)
  | listen env nifs fd' =>
      rcases Option.map_eq_some_iff.1 hstep with ⟨⟨h₁, r⟩, hlisten, rfl⟩
      exact canAccept_listen hh hfd hopens hlisten
  | accept env nifs fd' =>
      rcases Option.map_eq_some_iff.1 hstep with ⟨⟨h₁, r⟩, haccept, rfl⟩
      exact canAccept_accept hh hfd hopens haccept
  | connect attempts nifs fd' destAddr =>
      rcases Option.map_eq_some_iff.1 hstep with ⟨⟨h₁, r⟩, hconnect, rfl⟩
      exact canAccept_connect hh hfd (fun heq => hends heq.symm) hconnect
  | sendto env udpSendto fd' buf destAddr =>
      rcases Option.map_eq_some_iff.1 hstep with ⟨⟨h₁, r⟩, hsend, rfl⟩
      rcases sendto_cases hsend with rfl | ⟨p, _, rfl⟩
      · exact hfd
      · refine hfd.onTcb ?_
        intro _ c _ hacc
        rwa [tcpSend_state]
  | recvfrom fd' buf len flags =>
      rcases Option.map_eq_some_iff.1 hstep with ⟨⟨h₁, r⟩, hrecv, rfl⟩
      rcases recvfrom_cases hrecv with hsame | ⟨p, _, rfl⟩
      · exact hfd.same hsame
      · refine hfd.onTcb ?_
        intro _ c _ hacc
        rwa [recvEvent_state]
  | close env fd' =>
      rcases Option.map_eq_some_iff.1 hstep with ⟨⟨h₁, r⟩, hclose, rfl⟩
      have hfree : ∀ h : Host τ, SameTcps h (memFreeSocket h fd') :=
        fun h => ⟨rfl, rfl, fun _ => rfl⟩
      rcases close_cases hclose with rfl | ⟨p, hp, rfl⟩
      · exact hfd.same (hfree h)
      · -- the control block that is closed belongs to another record
        refine (hfd.onTcb ?_).same (hfree _)
        intro hp' _ _ _
        exact absurd (hh.own fd' fd p hp hp') hends
  | udpArrives alloc ip destPort data =>
      cases hstep
      exact hfd.same (sameTcps_udpIpRecv alloc ip destPort data h)
  | tcpArrives env ip dg beyond =>
      cases hstep
      rw [tcpIpRecv_eq hh]
      cases hreceiver : h.receiver ip dg with
      | none =>
          exact hfd
      | some q =>
          refine hfd.onTcb ?_
          intro hq c hc hacc
          refine acceptable_tcpReceived env _ (passiveWaits_attached hh hc) hacc ?_
          intro hst hlooked
          by_contra hF
          rw [attached_eq hq] at hc
          exact hfin ⟨q, c, hq, hreceiver, hc, hst, hlooked, Bool.eq_true_of_not_eq_false hF⟩
  | loops envs =>
      cases hstep
      exact canAccept_tcpLoop hh hfd envs

/-- After a FIN between two polls the socket can accept nothing any more. -/
theorem not_canAccept_of_earlyFin {fd : ℕ} {h : Host τ} {e : HostEvent} (hh : HostInv h)
    (hfin : EarlyFin fd h e) : ∃ h', hostStep h e = some h' ∧ ¬ CanAccept fd h' := by
  cases e with
  | tcpArrives env ip dg beyond =>
      rcases hfin with ⟨p, c, hp, hreceiver, hc, hst, hlooked, hF⟩
      refine ⟨_, rfl, ?_⟩
      rw [tcpIpRecv_eq hh, hreceiver]
      rintro ⟨d, hd, hacc⟩
      have hclosed : (tcpReceived env c (dg.received beyond)).tcp.state = .closeWait :=
        closeWait_of_fin env hst hlooked hF
      rw [attached_onTcb_self hp, attached_eq hp, hc] at hd
      cases hd
      rcases hacc with h | h | h <;> simp [hclosed] at h
  | _ =>
      exact hfin.elim

/-! ## Runs -/

theorem canAccept_of_listen {env : Env} {nifs : List Netif} {fd : ℕ} {h h' : Host τ}
    (hh : HostInv h) (hlisten : listen env nifs fd h = some (h', 0)) : CanAccept fd h' := by
  rcases listen_cases hlisten with ⟨_, _, hr⟩ | ⟨ip, h₁, tcp, _, _, hopen, rfl, hr⟩
  · simp at hr
  · cases tcp with
    | none =>
        simp at hr
    | some p =>
        exact canAccept_opened hh hopen fd rfl

/-- From a successful `listen` until the socket is closed, in every run in which `tcp_open`
succeeds: the socket can accept in every state of the run exactly if no FIN arrives early. -/
theorem can_accept_iff_no_early_fin {h₀ h₁ : Host τ} {env : Env} {nifs : List Netif} {fd : ℕ}
    {es : List HostEvent} (h₀reachable : ReachableHost h₀)
    (hlisten : listen env nifs fd h₀ = some (h₁, 0)) (hends : ∀ e ∈ es, ¬ e.Ends fd)
    (hopens : Machine.TryAlong hostStep OpensOk h₁ es) :
    (∀ pre h, pre <+: es → runHost h₁ pre = some h → CanAccept fd h) ↔
      Machine.TryAlong hostStep (fun h e => ¬ EarlyFin fd h e) h₁ es := by
  have hinv := hostInv_of_reachable h₀reachable
  refine Machine.forall_prefix_iff_tryAlong (I := HostInv) (J := CanAccept fd)
    (D := fun h e => ¬ e.Ends fd ∧ OpensOk h e) ?_ ?_ ?_
    (hostInv_listen hinv hlisten) (canAccept_of_listen hinv hlisten) ?_
  · exact fun _ _ _ hh hstep => hostInv_step hh hstep
  · exact fun _ _ _ hh hfd hD hC hstep => canAccept_step hh hfd hD.1 hD.2 hC hstep
  · intro h e hh _ _ hC
    exact not_canAccept_of_earlyFin hh (not_not.1 hC)
  · exact (Machine.tryAlong_of_forall hends).and hopens

/-! ## A sample server -/

/-- A host whose socket 1 is bound to port 5000. -/
def sampleServer : Host Deadline :=
  (bind true [sampleIp] 1 ⟨⟨1, 1, 168, 192⟩, 5000⟩ (socket afInet sockStream 0 .init).1).1

/-- The same after `listen`. -/
def sampleListener : Host Deadline :=
  ((listen (.working 7) [sampleIp] 1 sampleServer).get (by decide)).1

theorem reachableHost_sampleServer : ReachableHost sampleServer :=
  ⟨[.socket afInet sockStream 0, .bind true [sampleIp] 1 ⟨⟨1, 1, 168, 192⟩, 5000⟩], rfl⟩

theorem listen_sampleServer :
    listen (.working 7) [sampleIp] 1 sampleServer = some (sampleListener, 0) := by
  have hsome : (listen (.working 7) [sampleIp] 1 sampleServer).isSome = true := by decide
  exact (Option.some_get hsome).symm.trans (congrArg some (Prod.ext rfl rfl))

/-- A segment of the peer arrives. -/
def peerArrives (now : ℕ) (seq ack : UInt32) (flags : UInt16) : HostEvent :=
  .tcpArrives (.working now) sampleIp
    { src := samplePeer, dest := sampleIp.addr, seg := (peerSegment seq ack flags []).toSegment } []

theorem can_accept_sample :
    CanAccept 1 ((runHost sampleListener
      [peerArrives 8 300 0 segFlagSyn, peerArrives 9 301 8 segFlagAck]).get (by decide)) := by
  have hends : ∀ e ∈ [peerArrives 8 300 0 segFlagSyn, peerArrives 9 301 8 segFlagAck],
      ¬ e.Ends 1 := by
    simp [peerArrives, HostEvent.Ends]
  have hopens : Machine.TryAlong hostStep OpensOk sampleListener
      [peerArrives 8 300 0 segFlagSyn, peerArrives 9 301 8 segFlagAck] := by
    simp [Machine.TryAlong, peerArrives, OpensOk]
  refine (can_accept_iff_no_early_fin reachableHost_sampleServer listen_sampleServer hends
    hopens).2 ?_ _ _ (List.prefix_refl _) (Option.some_get _).symm
  refine Machine.tryAlong_mono (fun h e he => ?_) (Machine.tryAlong_of_forall (P := fun e => e ∈
    [peerArrives 8 300 0 segFlagSyn, peerArrives 9 301 8 segFlagAck]) fun e he => he)
  -- neither segment carries a FIN
  simp only [List.mem_cons, List.not_mem_nil, or_false] at he
  rcases he with rfl | rfl <;>
  · rintro ⟨_, _, _, _, _, _, _, hF⟩
    revert hF
    decide

/-- The peer connects and closes its side before the next poll. -/
theorem early_fin_stops_accept :
    ¬ ∀ (h₀ h₁ : Host Deadline) (env : Env) (nifs : List Netif) (fd : ℕ) (es : List HostEvent),
      ReachableHost h₀ → listen env nifs fd h₀ = some (h₁, 0) → (∀ e ∈ es, ¬ e.Ends fd) →
      Machine.TryAlong hostStep OpensOk h₁ es →
      ∀ pre h, pre <+: es → runHost h₁ pre = some h → CanAccept fd h := by
  intro h
  let es := [peerArrives 8 300 0 segFlagSyn, peerArrives 9 301 8 segFlagAck,
    peerArrives 10 301 8 (segFlagFin ||| segFlagAck)]
  have hrun := h sampleServer sampleListener (.working 7) [sampleIp] 1 es
    reachableHost_sampleServer listen_sampleServer (by simp [es, peerArrives, HostEvent.Ends])
    (by simp [es, Machine.TryAlong, peerArrives, OpensOk]) es
    ((runHost sampleListener es).get (by decide)) (List.prefix_refl es) (Option.some_get _).symm
  rcases hrun with ⟨c, hc, hacc⟩
  have hstate : (((runHost sampleListener es).get (by decide)).attached 1).map
      (fun c => c.tcp.state) = some .closeWait := by decide
  rw [hc] at hstate
  have hcw : c.tcp.state = .closeWait := by simpa using hstate
  rcases hacc with h | h | h <;> simp [hcw] at h

end Socket
end DtsNet
