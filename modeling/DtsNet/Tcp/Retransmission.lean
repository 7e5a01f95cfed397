import DtsNet.Tcp.Sending

/-!
# Retransmission — no segment is left in `tx_seg` without a timer

`tcp_loop` disarms an expired timer before it looks up the handler of the state, so a segment in
`tx_seg` is sent again only in the states of `Retransmits`.  Two steps leave these states with a
segment pending: a FIN that moves ESTABLISHED to CLOSE_WAIT, which has no timeout handler, and a RST
that closes a connection in SYN_SENT.  `RetransmitOk` excludes them.
-/

namespace DtsNet
namespace Tcp

open Ip Dblk

variable {τ : Type} [TimerLib τ] [LawfulTimerLib τ] {fits : Prop}

/-! ## The invariant -/

/-- A segment in `tx_seg` is packed, and the timer runs for it. -/
structure Timed (c : Conn τ) : Prop where
  armed : c.tcp.txSeg ≠ none → LawfulTimerLib.armed c.tcp.tmr
  packed : ∀ seg, c.tcp.txSeg = some seg →
    ∃ raw, seg.rawData = some raw ∧ raw.identity = seg.toSegment.identity

structure RetransmitInv (c : Conn τ) : Prop extends Timed c where
  state : c.tcp.txSeg ≠ none → Retransmits c.tcp.state

/-- A segment that takes the connection to CLOSE_WAIT finds `tx_seg` empty or completes it for
good, and no acceptable RST arrives in SYN_SENT. -/
def RetransmitOk (c : Conn τ) : Event → Prop
  | .received _ seg =>
      match c.tcp.state with
      | .synSent =>
          segCtrlA seg.toSegment = true → segCtrlR seg.toSegment = true →
            sncmp c.tcp.snd.una .le seg.ack .le c.tcp.snd.nxt = false
      | .established =>
          seqAccepted c.tcp seg.toSegment = true → segCtrlR seg.toSegment = false →
            segCtrlAF seg.toSegment = true →
              c.tcp.txSeg = none ∨ ackCompletes c.tcp seg.ack = true ∧ c.tcp.txData = []
      | _ => True
  | _ => True

theorem timed_of_none {c : Conn τ} (hs : c.tcp.txSeg = none) : Timed c := by
  refine ⟨fun h => absurd hs h, ?_⟩
  intro seg hseg
  simp [hs] at hseg

theorem retransmitInv_of_none {c : Conn τ} (hs : c.tcp.txSeg = none) : RetransmitInv c :=
  ⟨timed_of_none hs, fun h => absurd hs h⟩

/-! ## Steps that keep it -/

theorem SendFrame.timed {c c' : Conn τ} (h : SendFrame c c') (htmr : c'.tcp.tmr = c.tcp.tmr)
    (hc : Timed c) : Timed c' := by
  refine ⟨?_, ?_⟩
  · intro hsome
    rw [htmr]
    exact hc.armed (mt h.txSeg_eq_none.2 hsome)
  · intro seg' hs'
    rcases h.exists_of_some hs' with ⟨seg, hs, hid⟩
    rcases hc.packed seg hs with ⟨raw, hraw, hrawid⟩
    exact ⟨raw, (h.rawData_eq hs hs').trans hraw, hrawid.trans hid.symm⟩

/-- A frame that leaves the timer and the state alone. -/
theorem SendFrame.retransmitInv {c c' : Conn τ} (h : SendFrame c c')
    (htmr : c'.tcp.tmr = c.tcp.tmr) (hst : c'.tcp.state = c.tcp.state) (hc : RetransmitInv c) :
    RetransmitInv c' := by
  refine ⟨h.timed htmr hc.toTimed, ?_⟩
  intro hsome
  rw [hst]
  exact hc.state (mt h.txSeg_eq_none.2 hsome)

variable {env : Env}

theorem timed_tcpConstructData {c : Conn τ} (hmem : env.AllocOk) (hc : Timed c) :
    Timed (tcpConstructData env c) := by
  rcases tcpConstructData_cases env c with heq | ⟨tx, rest, hs, hd⟩
  · rw [heq]
    exact hc
  · rcases tcpConstructData_cons env c hmem hs hd with ⟨htcp, _⟩
    refine ⟨?_, ?_⟩
    · intro _
      rw [htcp]
      exact LawfulTimerLib.armed_start _ _ _
    · intro seg hseg
      have heq : seg = packTxSegment true (dataSegment c.tcp tx) := by
        simpa [htcp] using hseg.symm
      rw [heq]
      exact ⟨_, packTxSegment_rawData _, rfl⟩

theorem timed_tcpContructFinAck {c : Conn τ} (hmem : env.AllocOk) (hc : Timed c) :
    Timed (tcpContructFinAck env c) := by
  rcases tcpContructFinAck_cases env c with heq | ⟨hs, hd, _⟩
  · rw [heq]
    exact hc
  · rw [tcpContructFinAck_of_empty env c hmem hs hd]
    refine ⟨?_, ?_⟩
    · intro _
      exact LawfulTimerLib.armed_start _ _ _
    · intro seg hseg
      have heq : seg = packTxSegment true (finSegment c.tcp) := by
        simpa using hseg.symm
      rw [heq]
      exact ⟨_, packTxSegment_rawData _, rfl⟩

theorem timed_tcpRetransmit {c : Conn τ} (hc : ∀ seg, c.tcp.txSeg = some seg →
    ∃ raw, seg.rawData = some raw ∧ raw.identity = seg.toSegment.identity) :
    Timed (tcpRetransmit env c) := by
  have htcp := tcpRetransmit_tcp env c
  refine ⟨?_, ?_⟩
  · intro _
    rw [htcp]
    exact LawfulTimerLib.armed_start _ _ _
  · rw [htcp]
    exact hc

/-! ## The handlers of arriving segments -/

theorem retransmitInv_receivedWhenSynSent {c : Conn τ} (hst : c.tcp.state = .synSent)
    (hc : RetransmitInv c) {seg : Received} (hok : RetransmitOk c (.received env seg)) :
    RetransmitInv (receivedWhenSynSent env c seg) := by
  simp only [RetransmitOk, hst] at hok
  rcases receivedWhenSynSent_cases env c seg with
      h | ⟨_, _, _, h⟩ | ⟨hA, hacc, ⟨hR, h⟩ | ⟨_, _, _, h⟩⟩
  · rw [h]
    exact hc
  · rw [h]
    exact (sendFrame_tcpSendCtrlSeg_rst env c seg.ack seg.seq).retransmitInv (by simp) (by simp) hc
  · simp [hok hA hR] at hacc
  · rw [h]
    rcases synAckReply_cases env c seg with ⟨_, htcp, _⟩ | ⟨_, _, h⟩
    · refine ⟨⟨?_, ?_⟩, ?_⟩
      · simpa [htcp, takeSynAck] using hc.armed
      · simpa [htcp, takeSynAck] using hc.packed
      · simpa [htcp, takeSynAck] using hc.state
    · rw [h]
      exact retransmitInv_of_none (tcpTxSegComplete_txSeg _ _)

theorem timed_ackEstablished {c : Conn τ} (hmem : env.AllocOk) (hc : Timed c) (seg : Received) :
    Timed (ackEstablished env c seg) := by
  rcases ackEstablished_cases env c seg with ⟨h, _⟩ | ⟨s, _, _, _, h⟩
  · rw [h]
    exact hc
  · rw [h]
    exact timed_tcpConstructData hmem (timed_of_none rfl)

omit [LawfulTimerLib τ] in
/-- Where `RetransmitOk` lets a FIN through, the acknowledgment part leaves `tx_seg` empty. -/
theorem ackEstablished_txSeg {c : Conn τ} (hsending : Sending fits c) {seg : Received}
    (hok : c.tcp.txSeg = none ∨ ackCompletes c.tcp seg.ack = true ∧ c.tcp.txData = []) :
    (ackEstablished env c seg).tcp.txSeg = none := by
  rcases ackEstablished_cases env c seg with ⟨h, hnot⟩ | ⟨s, hs, _, _, h⟩
  · rw [h]
    rcases hok with hs | ⟨hack, _⟩
    · exact hs
    · by_contra hsome
      rcases Option.ne_none_iff_exists'.1 hsome with ⟨s, hs⟩
      have hF : segCtrlF s.toSegment = false := (ctrl_of_flags_ack (hsending.flags s hs)).2.2.2
      simp [hnot s hs hF] at hack
  · rcases hok with hnone | ⟨_, hd⟩
    · simp [hnone] at hs
    · have hempty : (ackedConn c s).tcp.txData = [] := hd
      rw [h, tcpConstructData_of_empty env _ hempty]
      rfl

theorem retransmitInv_receivedWhenEstablished {c : Conn τ} (hmem : env.AllocOk)
    (hst : c.tcp.state = .established) (hsend : SendInv fits c) (hc : RetransmitInv c)
    {seg : Received} (hok : RetransmitOk c (.received env seg)) :
    RetransmitInv (receivedWhenEstablished env c seg) := by
  have hsending : Sending fits c := by
    have := hsend.shape
    rwa [hst] at this
  simp only [RetransmitOk, hst] at hok
  cases hacc : seqAccepted c.tcp seg.toSegment with
  | false =>
      rw [receivedWhenEstablished_of_rejected env c hacc]
      exact (sendFrame_processReceivedSeq env c seg).retransmitInv (by simp) (by simp) hc
  | true =>
      by_cases hRA : segCtrlR seg.toSegment = true ∨ segCtrlA seg.toSegment = false
      · rw [receivedWhenEstablished_of_ignored env c hacc hRA]
        exact hc
      · have hR : segCtrlR seg.toSegment = false := by simp_all
        have hA : segCtrlA seg.toSegment = true := by simp_all
        have hframe := sendFrame_tcpHandleData env (ackEstablished env c seg) seg
        have htext : Timed (textEstablished env c seg) :=
          hframe.timed (by simp) (timed_ackEstablished hmem hc.toTimed seg)
        rw [receivedWhenEstablished_of_ack env c hacc hR hA]
        cases hF : segCtrlF seg.toSegment with
        | false =>
            refine ⟨htext, ?_⟩
            intro _
            simp [textEstablished, hst, Retransmits]
        | true =>
            have hAF : segCtrlAF seg.toSegment = true := by simp [segCtrlAF, hF, hA]
            have hnone : (textEstablished env c seg).tcp.txSeg = none :=
              hframe.txSeg_eq_none.2 (ackEstablished_txSeg hsending (hok hacc hR hAF))
            exact retransmitInv_of_none
              ((sendFrame_tcpHandleFinAck env _ seg).txSeg_eq_none.2 hnone)

/-- What the acknowledgment part of FIN_WAIT_1 and LAST_ACK leaves is timed. -/
theorem timed_ackWhenClosing {c : Conn τ} (hmem : env.AllocOk) (hc : Timed c) (seg : Received)
    (next : State) : Timed (ackWhenClosing env c seg next) := by
  rcases ackWhenClosing_cases env c seg next with h | ⟨_, _, _, _, _, h⟩ | ⟨_, _, _, _, _, h⟩
  · rw [h]
    exact hc
  · rw [h]
    exact timed_of_none (tcpTxSegComplete_txSeg c seg.ack)
  · rw [h]
    exact timed_tcpConstructData hmem (timed_of_none rfl)

theorem retransmitInv_receivedWhenFinWait1 {c : Conn τ} (hmem : env.AllocOk)
    (hst : c.tcp.state = .finWait1) (hsend : SendInv fits c) (hc : RetransmitInv c)
    (seg : Received) : RetransmitInv (receivedWhenFinWait1 env c seg) := by
  have hclosing : Closing fits c := by
    have := hsend.shape
    rwa [hst] at this
  have htimed := timed_ackWhenClosing hmem hc.toTimed seg .finWait2
  rcases (closing_ackWhenClosing hmem hclosing hsend.each seg .finWait2).2 with
      ⟨hst', hs, _⟩ | ⟨hst', _⟩
  · rw [receivedWhenFinWait1, if_neg (by simp [hst'])]
    exact retransmitInv_of_none hs
  · rw [receivedWhenFinWait1, if_pos (hst'.trans hst)]
    refine ⟨timed_tcpContructFinAck hmem htimed, ?_⟩
    intro _
    simp [hst', hst, Retransmits]

theorem retransmitInv_receivedWhenLastAck {c : Conn τ} (hmem : env.AllocOk)
    (hst : c.tcp.state = .lastAck) (hsend : SendInv fits c) (hc : RetransmitInv c)
    (seg : Received) : RetransmitInv (receivedWhenLastAck env c seg) := by
  have hclosing : Closing fits c := by
    have := hsend.shape
    rwa [hst] at this
  have htimed := timed_ackWhenClosing hmem hc.toTimed seg .closed
  rcases (closing_ackWhenClosing hmem hclosing hsend.each seg .closed).2 with
      ⟨hst', hs, _⟩ | ⟨hst', _⟩
  · rw [receivedWhenLastAck, if_neg (by simp [hst'])]
    exact retransmitInv_of_none hs
  · rw [receivedWhenLastAck, if_pos (hst'.trans hst)]
    refine ⟨timed_tcpContructFinAck hmem htimed, ?_⟩
    intro _
    simp [hst', hst, Retransmits]

theorem retransmitInv_tcpReceived {c : Conn τ} (hmem : env.AllocOk) (hsend : SendInv fits c)
    (hc : RetransmitInv c) {seg : Received} (hok : RetransmitOk c (.received env seg)) :
    RetransmitInv (tcpReceived env c seg) := by
  -- TIME_WAIT and CLOSE_WAIT do the same
  have hfinAck : RetransmitInv
      (if segCtrlAF seg.toSegment then (tcpHandleFinAck env c seg).1 else c) := by
    cases segCtrlAF seg.toSegment with
    | true =>
        exact (sendFrame_tcpHandleFinAck env c seg).retransmitInv (by simp) (by simp) hc
    | false =>
        exact hc
  have hshape := hsend.shape
  cases hst : c.tcp.state with
  | listen =>
      rw [hst] at hshape
      have hnone := (sendFrame_receivedWhenListen env c seg).txSeg_eq_none.2 hshape.2.1
      simpa [tcpReceived, hst, receivedEventProcess] using retransmitInv_of_none hnone
  | synSent =>
      simpa [tcpReceived, hst, receivedEventProcess] using
        retransmitInv_receivedWhenSynSent hst hc hok
  | synReceived =>
      rw [hst] at hshape
      have hnone := (sendFrame_receivedWhenSynReceived env c seg).txSeg_eq_none.2 hshape.2.1
      simpa [tcpReceived, hst, receivedEventProcess] using retransmitInv_of_none hnone
  | established =>
      simpa [tcpReceived, hst, receivedEventProcess] using
        retransmitInv_receivedWhenEstablished hmem hst hsend hc hok
  | finWait1 =>
      simpa [tcpReceived, hst, receivedEventProcess] using
        retransmitInv_receivedWhenFinWait1 hmem hst hsend hc seg
  | lastAck =>
      simpa [tcpReceived, hst, receivedEventProcess] using
        retransmitInv_receivedWhenLastAck hmem hst hsend hc seg
  | finWait2 =>
      rw [hst] at hshape
      cases hAF : segCtrlAF seg.toSegment with
      | false =>
          simpa [tcpReceived, hst, receivedEventProcess, receivedWhenFinWait2, hAF] using hc
      | true =>
          let ct := { c with
            tcp.state := .timeWait
            tcp.tmr := TimerLib.start c.tcp.tmr env.now c.tcp.timeWaitSeconds }
          have hnone : (tcpHandleFinAck env ct seg).1.tcp.txSeg = none :=
            (sendFrame_tcpHandleFinAck env ct seg).txSeg_eq_none.2 hshape.1
          simpa [tcpReceived, hst, receivedEventProcess, receivedWhenFinWait2, hAF, ct] using
            retransmitInv_of_none hnone
  | timeWait =>
      simpa [tcpReceived, hst, receivedEventProcess, receivedWhenTimeWait] using hfinAck
  | closeWait =>
      simpa [tcpReceived, hst, receivedEventProcess, receivedWhenCloseWait] using hfinAck
  | closing =>
      simpa [tcpReceived, hst, receivedEventProcess] using hc
  | closed =>
      simpa [tcpReceived, hst, receivedEventProcess] using hc

/-! ## The other events -/

theorem retransmitInv_tcpSend {c : Conn τ} (hmem : env.AllocOk) (hc : RetransmitInv c)
    (data : List Byte) : RetransmitInv (tcpSend env c data).1 := by
  by_cases hst : c.tcp.state = .established
  · have haccept : Timed (acceptData c data) := ⟨hc.armed, hc.packed⟩
    rw [tcpSend_of_established env c hst, if_pos (hmem _ _)]
    refine ⟨timed_tcpConstructData hmem haccept, ?_⟩
    intro _
    simp [acceptData, hst, Retransmits]
  · rw [tcpSend_of_not env c hst]
    exact hc

theorem retransmitInv_tcpClose {c : Conn τ} (hmem : env.AllocOk) (hc : RetransmitInv c) :
    RetransmitInv (tcpClose env c) := by
  rcases tcpClose_cases env c with ⟨hst, h⟩ | h
  · have htimed := timed_tcpContructFinAck hmem hc.toTimed
    rw [h]
    refine ⟨(sendFrame_setState _ _).timed rfl htimed, ?_⟩
    intro _
    rcases hst with hst | hst <;> simp [hst, closeState, Retransmits]
  · rw [h]
    exact hc

/-- The expired timer is disarmed, and started again where a segment is pending. -/
theorem retransmitInv_tcpLoopVisit {c : Conn τ} (hsend : SendInv fits c) (hc : RetransmitInv c) :
    RetransmitInv (tcpLoopVisit env c) := by
  rcases tcpLoopVisit_cases env c with h | ⟨hre, h⟩ | ⟨hst, h⟩ | ⟨hre, _, h⟩
  · rw [h]
    exact hc
  · rw [h]
    refine ⟨timed_tcpRetransmit hc.packed, ?_⟩
    intro _
    simpa [tcpRetransmit_tcp, stopTimer] using hre
  · have hshape := hsend.shape
    rw [hst] at hshape
    rw [h]
    exact retransmitInv_of_none hshape.1
  · have hnone : c.tcp.txSeg = none := by
      by_contra hsome
      exact hre (hc.state hsome)
    rw [h]
    exact retransmitInv_of_none hnone

/-! ## Runs -/

theorem retransmitInv_step {c : Conn τ} {e : Event} (hsend : SendInv fits c)
    (hc : RetransmitInv c) (he : e.AllocOk) (hok : RetransmitOk c e) :
    RetransmitInv (step c e) := by
  cases e with
  | received env seg =>
      exact retransmitInv_tcpReceived he hsend hc hok
  | send env data =>
      exact retransmitInv_tcpSend he hc data
  | recv data size =>
      exact (sendFrame_recvEvent c data size).retransmitInv (by simp) (by simp) hc
  | close env =>
      exact retransmitInv_tcpClose he hc
  | loop env =>
      exact retransmitInv_tcpLoopVisit hsend hc

theorem retransmitInv_opened {c : Conn τ} (hc : OpenedOk c) : RetransmitInv c := by
  rcases hc with ⟨env, ip, port, dest, destPort, hmem, h⟩
  cases dest with
  | none =>
      rw [tcpOpenConn_passive] at h
      cases h
      exact retransmitInv_of_none rfl
  | some dest =>
      rcases tcpOpenConn_active (τ := τ) env hmem ip port dest destPort with ⟨sent, _, h'⟩
      rw [h'] at h
      cases h
      refine ⟨⟨?_, ?_⟩, ?_⟩
      · intro _
        exact LawfulTimerLib.armed_start _ _ _
      · intro seg hseg
        cases hseg
        exact ⟨_, rfl, rfl⟩
      · intro _
        exact Or.inl rfl

theorem retransmitInv_run {c₀ : Conn τ} {es : List Event} (h₀ : OpenedOk c₀)
    (hes : ∀ e ∈ es, e.AllocOk) (hok : Machine.Along step RetransmitOk c₀ es) :
    SendInv False (runConn c₀ es) ∧ RetransmitInv (runConn c₀ es) := by
  have hstep : ∀ (c : Conn τ) (e : Event), SendInv False c ∧ RetransmitInv c →
      e.AllocOk ∧ RetransmitOk c e → SendInv False (step c e) ∧ RetransmitInv (step c e) := by
    intro c e hc he
    exact ⟨sendInv_step hc.1 he.1 False.elim, retransmitInv_step hc.1 hc.2 he.1 he.2⟩
  exact Machine.run_invariant step hstep ⟨sendInv_opened h₀, retransmitInv_opened h₀⟩
    ((Machine.along_of_forall step hes).and step hok)

/-- In every run that keeps to `RetransmitOk`, a segment in `tx_seg` has its timer running, and the
timeout handler of the state sends it again. -/
theorem txSeg_retransmitted {c₀ : Conn τ} {es : List Event} (h₀ : OpenedOk c₀)
    (hes : ∀ e ∈ es, e.AllocOk) (hok : Machine.Along step RetransmitOk c₀ es)
    {seg : TxSegment} (hs : (runConn c₀ es).tcp.txSeg = some seg) :
    LawfulTimerLib.armed (runConn c₀ es).tcp.tmr ∧
      timeoutEventProcess (runConn c₀ es).tcp.state = some (tcpRetransmit (τ := τ)) ∧
      ∃ raw, raw.identity = seg.toSegment.identity ∧ ∀ env, ∃ sent,
        (tcpRetransmit env (runConn c₀ es)).log = (runConn c₀ es).log ++
          [.output (some (connDatagram (runConn c₀ es).tcp raw)) sent] := by
  have hinv := (retransmitInv_run h₀ hes hok).2
  have hsome : (runConn c₀ es).tcp.txSeg ≠ none := by simp [hs]
  rcases hinv.packed seg hs with ⟨raw, hraw, hid⟩
  refine ⟨hinv.armed hsome, timeoutEventProcess_of_retransmits (hinv.state hsome), raw, hid, ?_⟩
  intro env
  refine ⟨env.malloc .copy (runConn c₀ es).log && env.ipHlSend (runConn c₀ es).log, ?_⟩
  simp [tcpRetransmit, hs, hraw, tcpIpSend_log]

/-- A byte is sent, the SYN is acknowledged once more, the timer sends the byte again, and `tcp_close`
is called before it is acknowledged. -/
def sampleResend : List Event :=
  [.received (.working 101) (peerSegment 700 101 (segFlagSyn ||| segFlagAck) []),
    .send (.working 102) [65],
    .received (.working 103) (peerSegment 701 101 segFlagAck []),
    .loop (.working 110),
    .close (.working 111),
    .loop (.working 120)]

/-- The byte still waits in FIN_WAIT_1, with its timer running. -/
theorem txSeg_retransmitted_sample :
    let c := runConn (sampleConn 100 (some samplePeer)) sampleResend
    c.tcp.state = .finWait1 ∧ ∃ seg, c.tcp.txSeg = some seg ∧ seg.payload = [65] ∧
      LawfulTimerLib.armed c.tcp.tmr ∧
      timeoutEventProcess c.tcp.state = some (tcpRetransmit (τ := Deadline)) := by
  have hes : ∀ e ∈ sampleResend, e.AllocOk := by
    simp [sampleResend, Event.AllocOk, Env.allocOk_working]
  have hok : Machine.Along step RetransmitOk (sampleConn 100 (some samplePeer)) sampleResend := by
    refine ⟨fun _ hR => absurd hR (by decide), trivial, fun _ _ hAF => absurd hAF (by decide), trivial,
      trivial, trivial, trivial⟩
  rcases txSeg_retransmitted (openedOk_sampleConn 100 (some samplePeer)) hes hok rfl with
      ⟨harmed, hprocess, _⟩
  exact ⟨by decide, _, rfl, rfl, harmed, hprocess⟩

/-- The peer closes while a byte is on its way to it: the byte stays in `tx_seg`, and CLOSE_WAIT
has no handler that would send it again. -/
theorem txSeg_not_retransmitted :
    ∃ c₀ : Conn Deadline, ∃ es : List Event, OpenedOk c₀ ∧
      (∀ e ∈ es, e.AllocOk ∧ e.SendSize 1379) ∧ (runConn c₀ es).tcp.txSeg ≠ none ∧
      (timeoutEventProcess (τ := Deadline) (runConn c₀ es).tcp.state).isNone = true := by
  refine ⟨sampleConn 100 (some samplePeer),
    [.received (.working 101) (peerSegment 700 101 (segFlagSyn ||| segFlagAck) []),
      .send (.working 102) [65],
      .received (.working 103) (peerSegment 701 101 (segFlagFin ||| segFlagAck) [])],
    openedOk_sampleConn _ _, ?_, by decide, by decide⟩
  simp [Event.AllocOk, Event.SendSize, Env.allocOk_working]

end Tcp
end DtsNet
