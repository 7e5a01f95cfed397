import DtsNet.Library.History
import DtsNet.Tcp.Handlers

/-!
# Sending — what is built into `tx_seg`, over all runs

The sending side of a connection is `tx_data`, the queue of accepted blocks, and the single slot
`tx_seg`.  `SendShape` says what they hold in each state, `FinRule` what must lie in the record
before a segment is built.  Together they are preserved by every event whose allocations succeed.

`fits` says that every buffer handed to `tcp_send` is known to fit into a block; only then do the
blocks account for the accepted bytes.
-/

namespace DtsNet
namespace Tcp

open Ip Dblk History

variable {τ : Type} {fits : Prop}

/-! ## The record -/

def NoFin (log : List Action) : Prop :=
  ∀ seg ∈ builtSegments log, segCtrlF seg = false

/-- Segments with text were completed by an acknowledgment of everything sent. -/
def AckedInFull (log : List Action) : Prop :=
  ∀ seg ack nxt, .completed seg ack nxt ∈ log → seg.payload ≠ [] → ack = nxt

/-- Everything accepted was put into a segment, and every segment was acknowledged. -/
structure Settled (fits : Prop) (log : List Action) : Prop where
  accepted : fits → acceptedBytes log = (builtSegments log).flatMap Segment.payload
  completed : (builtSegments log).map Segment.identity =
    (completedSegments log).map Segment.identity
  acked : AckedInFull log

/-- What lies before an entry of the record: nothing is built or accepted behind a FIN, and a FIN
is built when everything is settled. -/
def FinRule (fits : Prop) (pre : List Action) : Action → Prop
  | .built seg => NoFin pre ∧ (segCtrlF seg = true → Settled fits pre)
  | .accepted _ => NoFin pre
  | _ => True

theorem finRule_of_neutral {a : Action} (ha : a.Neutral) (pre : List Action) : FinRule fits pre a := by
  cases a with
  | output dg sent => trivial
  | queued data => trivial
  | returned data => trivial
  | completed seg ack nxt => trivial
  | built seg => exact ha.elim
  | accepted data => exact ha.elim

/-! ## The slot and the queue -/

/-- Before a FIN is built: every accepted byte is in a segment or in `tx_data`, and every segment
but the one in `tx_seg` is completed. -/
structure OpenHistory (fits : Prop) (c : Conn τ) : Prop where
  noFin : NoFin c.log
  accepted : fits → acceptedBytes c.log =
    (builtSegments c.log).flatMap Segment.payload ++ c.tcp.txData.flatMap Block.bytes
  completed : (builtSegments c.log).map Segment.identity =
    (completedSegments c.log).map Segment.identity ++
      (c.tcp.txSeg.map fun seg => seg.toSegment.identity).toList
  acked : AckedInFull c.log

/-- Only data segments come into `tx_seg`. -/
structure Loading (fits : Prop) (c : Conn τ) : Prop extends OpenHistory fits c where
  flags : ∀ seg, c.tcp.txSeg = some seg → seg.flags = segFlagAck

/-- As `Loading`, and no block waits while `tx_seg` is free. -/
structure Sending (fits : Prop) (c : Conn τ) : Prop extends Loading fits c where
  busy : c.tcp.txSeg = none → c.tcp.txData = []

/-- The FIN is in `tx_seg`, and nothing is left to be sent before it. -/
structure Finishing (c : Conn τ) : Prop where
  txData : c.tcp.txData = []
  txSeg : ∃ seg, c.tcp.txSeg = some seg ∧ seg.flags = segFlagFin ||| segFlagAck ∧ seg.payload = []

/-- After `tcp_close`: data is in `tx_seg`, or else the FIN. -/
def Closing (fits : Prop) (c : Conn τ) : Prop :=
  Sending fits c ∧ c.tcp.txSeg ≠ none ∨ Finishing c

/-- The SYN of an active opener is in `tx_seg`. -/
structure Opening (fits : Prop) (c : Conn τ) : Prop extends OpenHistory fits c where
  txData : c.tcp.txData = []
  txSeg : ∃ seg, c.tcp.txSeg = some seg ∧ seg.flags = segFlagSyn ∧ seg.payload = []

def SendShape (fits : Prop) (c : Conn τ) : State → Prop
  | .listen | .synReceived => Sending fits c ∧ c.tcp.txSeg = none ∧ c.tcp.passive = true
  | .synSent => Opening fits c
  | .established | .closeWait => Sending fits c
  | .finWait1 | .lastAck => Closing fits c
  | .finWait2 | .timeWait => c.tcp.txSeg = none ∧ c.tcp.txData = []
  | .closing | .closed => True

structure SendInv (fits : Prop) (c : Conn τ) : Prop where
  each : Each (FinRule fits) c.log
  shape : SendShape fits c c.tcp.state

/-! ## What a frame preserves -/

section Frame

variable {c c' : Conn τ} (h : SendFrame c c')

include h

theorem SendFrame.each (hc : Each (FinRule fits) c.log) : Each (FinRule fits) c'.log := by
  rcases h.log with ⟨l, hlog, hl⟩
  rw [hlog]
  refine hc.append ?_
  intro a ha pre _
  exact finRule_of_neutral (hl a ha) pre

/-- Neutral actions leave the readings of the record as they are, except for what they output. -/
theorem SendFrame.builtSegments : builtSegments c'.log = builtSegments c.log := by
  rcases h.log with ⟨l, hlog, hl⟩
  simp [hlog, builtSegments_of_neutral hl]

theorem SendFrame.ackedInFull (hc : AckedInFull c.log) : AckedInFull c'.log := by
  rcases h.log with ⟨l, hlog, hl⟩
  intro seg ack nxt hmem
  rw [hlog] at hmem
  rcases List.mem_append.1 hmem with hmem | hmem
  · exact hc seg ack nxt hmem
  · exact (hl _ hmem).elim

theorem SendFrame.openHistory (hc : OpenHistory fits c) : OpenHistory fits c' := by
  rcases h.log with ⟨l, hlog, hl⟩
  have hbuilt := h.builtSegments
  have haccepted : acceptedBytes c'.log = acceptedBytes c.log :=
    h.acceptedBytes_eq
  have hcompleted : completedSegments c'.log = completedSegments c.log := by
    simp [hlog, completedSegments_of_neutral hl]
  refine ⟨?_, ?_, ?_, h.ackedInFull hc.acked⟩
  · rw [NoFin, hbuilt]
    exact hc.noFin
  · rw [haccepted, hbuilt, h.txData]
    exact hc.accepted
  · rw [hbuilt, hcompleted, h.txSeg]
    exact hc.completed

theorem SendFrame.loading (hc : Loading fits c) : Loading fits c' := by
  refine ⟨h.openHistory hc.toOpenHistory, ?_⟩
  intro seg' hs'
  rcases h.exists_of_some hs' with ⟨seg, hs, hid⟩
  have hflags : seg'.flags = seg.flags := Segment.flags_of_identity hid
  rw [hflags]
  exact hc.flags seg hs

theorem SendFrame.sending (hc : Sending fits c) : Sending fits c' := by
  refine ⟨h.loading hc.toLoading, ?_⟩
  intro hnone
  rw [h.txData]
  exact hc.busy (h.txSeg_eq_none.1 hnone)

theorem SendFrame.finishing (hc : Finishing c) : Finishing c' := by
  rcases hc.txSeg with ⟨seg, hs, hflags, hpayload⟩
  rcases h.exists_some hs with ⟨seg', hs', hid⟩
  have hflags' : seg'.flags = seg.flags := Segment.flags_of_identity hid
  have hpayload' : seg'.payload = seg.payload := Segment.payload_of_identity hid
  exact ⟨h.txData.trans hc.txData, seg', hs', hflags'.trans hflags, hpayload'.trans hpayload⟩

theorem SendFrame.closing (hc : Closing fits c) : Closing fits c' := by
  rcases hc with ⟨hc, hsome⟩ | hc
  · exact Or.inl ⟨h.sending hc, mt h.txSeg_eq_none.1 hsome⟩
  · exact Or.inr (h.finishing hc)

theorem SendFrame.opening (hc : Opening fits c) : Opening fits c' := by
  rcases hc.txSeg with ⟨seg, hs, hflags, hpayload⟩
  rcases h.exists_some hs with ⟨seg', hs', hid⟩
  have hflags' : seg'.flags = seg.flags := Segment.flags_of_identity hid
  have hpayload' : seg'.payload = seg.payload := Segment.payload_of_identity hid
  exact ⟨h.openHistory hc.toOpenHistory, h.txData.trans hc.txData, seg', hs',
    hflags'.trans hflags, hpayload'.trans hpayload⟩

theorem SendFrame.sendShape {s : State} (hc : SendShape fits c s) : SendShape fits c' s := by
  cases s with
  | listen =>
      exact ⟨h.sending hc.1, h.txSeg_eq_none.2 hc.2.1, h.passive.trans hc.2.2⟩
  | synReceived =>
      exact ⟨h.sending hc.1, h.txSeg_eq_none.2 hc.2.1, h.passive.trans hc.2.2⟩
  | synSent =>
      exact h.opening hc
  | established =>
      exact h.sending hc
  | closeWait =>
      exact h.sending hc
  | finWait1 =>
      exact h.closing hc
  | lastAck =>
      exact h.closing hc
  | finWait2 =>
      exact ⟨h.txSeg_eq_none.2 hc.1, h.txData.trans hc.2⟩
  | timeWait =>
      exact ⟨h.txSeg_eq_none.2 hc.1, h.txData.trans hc.2⟩
  | closing =>
      trivial
  | closed =>
      trivial

theorem SendFrame.sendInv (hstate : c'.tcp.state = c.tcp.state) (hc : SendInv fits c) :
    SendInv fits c' := by
  refine ⟨h.each hc.each, ?_⟩
  rw [hstate]
  exact h.sendShape hc.shape

end Frame

/-! ## The listener -/

section Listener

variable {env : Env}

theorem sendInv_receivedWhenListen {c : Conn τ} (hst : c.tcp.state = .listen)
    (hc : SendInv fits c) (seg : Received) : SendInv fits (receivedWhenListen env c seg) := by
  have hframe := sendFrame_receivedWhenListen env c seg
  have hshape : SendShape fits c .listen := by
    rw [← hst]
    exact hc.shape
  refine ⟨hframe.each hc.each, ?_⟩
  -- LISTEN and SYN_RECEIVED allow the same
  rcases receivedWhenListen_state env c hst seg with hst' | hst'
  · rw [hst']
    exact hframe.sendShape hshape
  · rw [hst']
    exact hframe.sendShape hshape

theorem sendInv_receivedWhenSynReceived {c : Conn τ} (hst : c.tcp.state = .synReceived)
    (hc : SendInv fits c) (seg : Received) : SendInv fits (receivedWhenSynReceived env c seg) := by
  have hshape : SendShape fits c .synReceived := by
    rw [← hst]
    exact hc.shape
  cases hacc : seqAccepted c.tcp seg.toSegment with
  | false =>
      rw [receivedWhenSynReceived_of_rejected env c hacc]
      exact (sendFrame_processReceivedSeq env c seg).sendInv (by simp) hc
  | true =>
      cases hR : segCtrlR seg.toSegment with
      | true =>
          rw [receivedWhenSynReceived_of_rst env c hacc hR, if_pos hshape.2.2]
          exact ⟨hc.each, (sendFrame_setState c .listen).sendShape hshape⟩
      | false =>
          cases hA : segCtrlA seg.toSegment with
          | false =>
              rw [receivedWhenSynReceived_of_no_ack env c hacc hR hA]
              exact hc
          | true =>
              have hframe := sendFrame_ackSynReceived env c seg
              rw [receivedWhenSynReceived_of_ack env c hacc hR hA]
              cases hF : segCtrlF seg.toSegment with
              | true =>
                  have hframe' := hframe.trans (sendFrame_setState _ .closeWait)
                  exact ⟨hframe'.each hc.each, hframe'.sending hshape.1⟩
              | false =>
                  refine ⟨hframe.each hc.each, ?_⟩
                  cases hack : sncmp c.tcp.snd.una .le seg.ack .le c.tcp.snd.nxt with
                  | true =>
                      have hst' : (ackSynReceived env c seg).tcp.state = .established := by
                        simp [ackSynReceived, hack]
                      simp only [Bool.false_eq_true, if_false, hst']
                      exact hframe.sending hshape.1
                  | false =>
                      have hst' : (ackSynReceived env c seg).tcp.state = .synReceived := by
                        simp [ackSynReceived, hack, hst]
                      simp only [Bool.false_eq_true, if_false, hst']
                      exact hframe.sendShape hshape

end Listener

/-! ## Building and completing segments -/

theorem Loading.noFin_built {c : Conn τ} (hc : Loading fits c) {seg : Segment}
    (hflags : seg.flags = segFlagAck) : NoFin (c.log ++ [.built seg]) := by
  intro s hs
  rw [builtSegments_append] at hs
  rcases List.mem_append.1 hs with hs | hs
  · exact hc.noFin s hs
  · have : s = seg := by simpa [builtSegments] using hs
    rw [this]
    exact (ctrl_of_flags_ack hflags).2.2.2

/-- With `tx_seg` and `tx_data` empty, everything accepted is acknowledged. -/
theorem OpenHistory.settled {c : Conn τ} (hc : OpenHistory fits c) (hs : c.tcp.txSeg = none)
    (hd : c.tcp.txData = []) : Settled fits c.log := by
  refine ⟨?_, ?_, hc.acked⟩
  · simpa [hd] using hc.accepted
  · simpa [hs] using hc.completed

variable [TimerLib τ] {env : Env}

/-- The slot is filled with the next block, if there is one. -/
theorem sending_tcpConstructData {c : Conn τ} (hmem : env.AllocOk) (hc : Loading fits c)
    (heach : Each (FinRule fits) c.log) :
    Sending fits (tcpConstructData env c) ∧ Each (FinRule fits) (tcpConstructData env c).log := by
  cases hs : c.tcp.txSeg with
  | some seg =>
      rw [tcpConstructData_of_pending env c hs]
      exact ⟨⟨hc, fun h => absurd (hs.symm.trans h) (by simp)⟩, heach⟩
  | none =>
      cases hd : c.tcp.txData with
      | nil =>
          rw [tcpConstructData_of_empty env c hd]
          exact ⟨⟨hc, fun _ => hd⟩, heach⟩
      | cons tx rest =>
          rcases tcpConstructData_cons env c hmem hs hd with ⟨htcp, sent, hlog⟩
          have hflags : (dataSegment c.tcp tx).flags = segFlagAck := rfl
          have hnoFin := hc.noFin_built hflags
          refine ⟨⟨⟨⟨?_, ?_, ?_, ?_⟩, ?_⟩, ?_⟩, ?_⟩
          · intro s hmem
            refine hnoFin s ?_
            simpa [hlog, builtSegments] using hmem
          · have haccepted := hc.accepted
            rw [hd] at haccepted
            simpa [hlog, htcp, builtSegments, acceptedBytes, dataSegment, newSegment] using haccepted
          · have hcompleted := hc.completed
            rw [hs] at hcompleted
            simpa [hlog, htcp, builtSegments, completedSegments] using hcompleted
          · intro s ack nxt hmem
            rw [hlog] at hmem
            refine hc.acked s ack nxt ?_
            simpa using hmem
          · intro s hs'
            rw [htcp] at hs'
            have : s = packTxSegment true (dataSegment c.tcp tx) := by simpa using hs'.symm
            rw [this]
            exact hflags
          · intro hnone
            rw [htcp] at hnone
            simp at hnone
          · have hsplit : (tcpConstructData env c).log =
                c.log ++ [.built (dataSegment c.tcp tx)] ++
                  [.output (some (connDatagram c.tcp (dataSegment c.tcp tx))) sent] := by
              simp [hlog]
            rw [hsplit, each_concat, each_concat]
            refine ⟨⟨heach, hc.noFin, ?_⟩, trivial⟩
            intro hF
            have := (ctrl_of_flags_ack hflags).2.2.2
            simp [this] at hF

theorem OpenHistory.complete {c : Conn τ} (hc : OpenHistory fits c) {seg : TxSegment}
    (hs : c.tcp.txSeg = some seg) {ack : UInt32} (hack : seg.payload ≠ [] → ack = c.tcp.snd.nxt) :
    OpenHistory fits (tcpTxSegComplete c ack) := by
  rw [tcpTxSegComplete_some c hs]
  refine ⟨?_, ?_, ?_, ?_⟩
  · intro s hmem
    refine hc.noFin s ?_
    simpa [builtSegments] using hmem
  · simpa [builtSegments, acceptedBytes] using hc.accepted
  · have hcompleted := hc.completed
    rw [hs] at hcompleted
    simpa [builtSegments, completedSegments] using hcompleted
  · intro s a nxt hmem hpayload
    have hmem' : .completed s a nxt ∈ c.log ∨
        s = seg.toSegment ∧ a = ack ∧ nxt = c.tcp.snd.nxt := by
      simpa using hmem
    rcases hmem' with hmem | ⟨rfl, rfl, rfl⟩
    · exact hc.acked s a nxt hmem hpayload
    · exact hack hpayload

theorem each_tcpTxSegComplete {c : Conn τ} (heach : Each (FinRule fits) c.log) (ack : UInt32) :
    Each (FinRule fits) (tcpTxSegComplete c ack).log := by
  cases hs : c.tcp.txSeg with
  | none =>
      simpa [tcpTxSegComplete, hs] using heach
  | some seg =>
      rw [tcpTxSegComplete_some c hs, each_concat]
      exact ⟨heach, trivial⟩

theorem ackedConn_eq {c : Conn τ} {seg : TxSegment} (hs : c.tcp.txSeg = some seg) :
    ackedConn c seg =
      tcpTxSegComplete { c with tcp.snd.una := c.tcp.snd.nxt } c.tcp.snd.nxt := by
  simp [ackedConn, tcpTxSegComplete, hs]

/-- A data segment is completed by an acknowledgment of everything sent, and the next block takes
its place. -/
theorem sending_ackedConn {c : Conn τ} (hmem : env.AllocOk) (hc : Loading fits c)
    (heach : Each (FinRule fits) c.log) {seg : TxSegment} (hs : c.tcp.txSeg = some seg) :
    Sending fits (tcpConstructData env (ackedConn c seg)) ∧
      Each (FinRule fits) (tcpConstructData env (ackedConn c seg)).log := by
  let cu := { c with tcp.snd.una := c.tcp.snd.nxt }
  have hframe : SendFrame c cu := .of_log rfl rfl rfl rfl
  have hopen : OpenHistory fits (tcpTxSegComplete cu c.tcp.snd.nxt) :=
    (hframe.openHistory hc.toOpenHistory).complete hs fun _ => rfl
  have hload : Loading fits (tcpTxSegComplete cu c.tcp.snd.nxt) := by
    refine ⟨hopen, ?_⟩
    intro s hs'
    rw [tcpTxSegComplete_some cu hs] at hs'
    simp at hs'
  rw [ackedConn_eq hs]
  exact sending_tcpConstructData hmem hload (each_tcpTxSegComplete (hframe.each heach) _)

/-- The SYN is completed, whatever acknowledges it. -/
theorem sending_tcpTxSegComplete {c : Conn τ} (hc : Opening fits c) (ack : UInt32) :
    Sending fits (tcpTxSegComplete c ack) ∧ (tcpTxSegComplete c ack).tcp.txSeg = none := by
  rcases hc.txSeg with ⟨seg, hs, _, hpayload⟩
  have hopen : OpenHistory fits (tcpTxSegComplete c ack) :=
    hc.toOpenHistory.complete hs fun h => absurd hpayload h
  rw [tcpTxSegComplete_some c hs] at hopen ⊢
  refine ⟨⟨⟨hopen, ?_⟩, ?_⟩, rfl⟩
  · intro s hs'
    simp at hs'
  · intro _
    exact hc.txData

/-- The FIN takes the slot as soon as it is free. -/
theorem closing_tcpContructFinAck {c : Conn τ} (hmem : env.AllocOk) (hc : Sending fits c)
    (heach : Each (FinRule fits) c.log) :
    Closing fits (tcpContructFinAck env c) ∧ Each (FinRule fits) (tcpContructFinAck env c).log := by
  cases hs : c.tcp.txSeg with
  | some seg =>
      rw [tcpContructFinAck_of_pending env c hs]
      exact ⟨Or.inl ⟨hc, by simp [hs]⟩, heach⟩
  | none =>
      have hd := hc.busy hs
      rw [tcpContructFinAck_of_empty env c hmem hs hd]
      refine ⟨Or.inr ⟨hd, _, rfl, rfl, rfl⟩, ?_⟩
      rw [each_concat]
      exact ⟨heach, hc.noFin, fun _ => hc.settled hs hd⟩

/-! ## The other handlers of arriving segments -/

theorem sendInv_receivedWhenSynSent {c : Conn τ} (hst : c.tcp.state = .synSent) (hc : SendInv fits c)
    (seg : Received) : SendInv fits (receivedWhenSynSent env c seg) := by
  rcases receivedWhenSynSent_cases env c seg with
      h | ⟨_, _, _, h⟩ | ⟨_, _, ⟨_, h⟩ | ⟨_, _, _, h⟩⟩
  · rw [h]
    exact hc
  · rw [h]
    exact (sendFrame_tcpSendCtrlSeg_rst env c seg.ack seg.seq).sendInv (by simp) hc
  · rw [h]
    exact ⟨hc.each, trivial⟩
  · rw [h]
    rcases synAckReply_cases env c seg with ⟨_, htcp, hlog | ⟨dg, _, hlog⟩⟩ | ⟨_, _, h⟩
    · exact (SendFrame.of_log (by simp [htcp, takeSynAck]) (by simp [htcp, takeSynAck])
        (by simp [htcp, takeSynAck]) hlog).sendInv (by simp [htcp, takeSynAck]) hc
    · exact (SendFrame.of_concat (by simp [htcp, takeSynAck]) (by simp [htcp, takeSynAck])
        (by simp [htcp, takeSynAck]) hlog trivial).sendInv (by simp [htcp, takeSynAck]) hc
    · rw [h]
      let ce : Conn τ :=
        { tcp := { takeSynAck c.tcp seg with state := .established }
          log := (tcpSendCtrlSeg env { c with tcp := takeSynAck c.tcp seg } seg.ack
            (seg.seq + 1) segFlagAck).1.log }
      have hframe : SendFrame c ce := .of_concat rfl rfl rfl (tcpSendCtrlSeg_log env _ _ _ _) trivial
      have hopening : Opening fits ce := by
        have := hc.shape
        rw [hst] at this
        exact hframe.opening this
      have hst' : (tcpTxSegComplete ce seg.ack).tcp.state = .established := by
        rcases hopening.txSeg with ⟨s, hs, _⟩
        rw [tcpTxSegComplete_some ce hs]
      refine ⟨each_tcpTxSegComplete (hframe.each hc.each) seg.ack, ?_⟩
      rw [hst']
      exact (sending_tcpTxSegComplete hopening seg.ack).1

/-- The acknowledgment part and the text part of `received_when_established`. -/
theorem sending_textEstablished {c : Conn τ} (hmem : env.AllocOk) (hc : Sending fits c)
    (heach : Each (FinRule fits) c.log) (seg : Received) :
    Sending fits (textEstablished env c seg) ∧ Each (FinRule fits) (textEstablished env c seg).log := by
  have hack : Sending fits (ackEstablished env c seg) ∧ Each (FinRule fits) (ackEstablished env c seg).log := by
    rcases ackEstablished_cases env c seg with ⟨h, _⟩ | ⟨s, hs, _, _, h⟩
    · rw [h]
      exact ⟨hc, heach⟩
    · rw [h]
      exact sending_ackedConn hmem hc.toLoading heach hs
  have hframe := sendFrame_tcpHandleData env (ackEstablished env c seg) seg
  exact ⟨hframe.sending hack.1, hframe.each hack.2⟩

theorem sendInv_receivedWhenEstablished {c : Conn τ} (hmem : env.AllocOk)
    (hst : c.tcp.state = .established) (hc : SendInv fits c) (seg : Received) :
    SendInv fits (receivedWhenEstablished env c seg) := by
  have hshape : Sending fits c := by
    have := hc.shape
    rwa [hst] at this
  cases hacc : seqAccepted c.tcp seg.toSegment with
  | false =>
      rw [receivedWhenEstablished_of_rejected env c hacc]
      exact (sendFrame_processReceivedSeq env c seg).sendInv (by simp) hc
  | true =>
      by_cases hRA : segCtrlR seg.toSegment = true ∨ segCtrlA seg.toSegment = false
      · rw [receivedWhenEstablished_of_ignored env c hacc hRA]
        exact hc
      · have hR : segCtrlR seg.toSegment = false := by simp_all
        have hA : segCtrlA seg.toSegment = true := by simp_all
        rcases sending_textEstablished hmem hshape hc.each seg with ⟨htext, heach⟩
        rw [receivedWhenEstablished_of_ack env c hacc hR hA]
        cases hF : segCtrlF seg.toSegment with
        | true =>
            have hframe := (sendFrame_tcpHandleFinAck env (textEstablished env c seg) seg).trans
              (sendFrame_setState _ .closeWait)
            exact ⟨hframe.each heach, hframe.sending htext⟩
        | false =>
            have hst' : (textEstablished env c seg).tcp.state = .established := by
              simp [textEstablished, hst]
            refine ⟨heach, ?_⟩
            simp only [Bool.false_eq_true, if_false, hst']
            exact htext

/-- What the acknowledgment part leaves in FIN_WAIT_1 and LAST_ACK: the FIN is acknowledged and
the next state entered, or the state stays and the slot is refilled. -/
theorem closing_ackWhenClosing {c : Conn τ} (hmem : env.AllocOk) (hc : Closing fits c)
    (heach : Each (FinRule fits) c.log) (seg : Received) (next : State) :
    let c' := ackWhenClosing env c seg next
    Each (FinRule fits) c'.log ∧ (c'.tcp.state = next ∧ c'.tcp.txSeg = none ∧ c'.tcp.txData = [] ∨
      c'.tcp.state = c.tcp.state ∧ (Sending fits c' ∨ Finishing c')) := by
  rcases hc with ⟨hc, hsome⟩ | hc
  · rcases Option.ne_none_iff_exists'.1 hsome with ⟨s, hs⟩
    have hF : segCtrlF s.toSegment = false := (ctrl_of_flags_ack (hc.flags s hs)).2.2.2
    rw [ackWhenClosing_of_data env c hs hF]
    cases h : segCtrlA seg.toSegment && ackCompletes c.tcp seg.ack with
    | true =>
        rcases sending_ackedConn hmem hc.toLoading heach hs with ⟨hsending, heach'⟩
        refine ⟨heach', Or.inr ⟨?_, Or.inl hsending⟩⟩
        simp [ackedConn]
    | false =>
        exact ⟨heach, Or.inr ⟨rfl, Or.inl hc⟩⟩
  · rcases hc.txSeg with ⟨s, hs, hflags, _⟩
    have hF : segCtrlF s.toSegment = true := (ctrl_of_flags_finAck hflags).2.2.2
    rw [ackWhenClosing_of_fin env c hs hF]
    cases h : segCtrlA seg.toSegment && s.seq + 1 == seg.ack with
    | true =>
        refine ⟨each_tcpTxSegComplete heach seg.ack, Or.inl ⟨rfl, ?_, ?_⟩⟩
        · simp [tcpTxSegComplete_some c hs]
        · simp [tcpTxSegComplete_some c hs, hc.txData]
    | false =>
        exact ⟨heach, Or.inr ⟨rfl, Or.inr hc⟩⟩

/-- FIN construction is tried again as long as the state stays. -/
theorem closing_retry {c : Conn τ} (hmem : env.AllocOk) (hc : Sending fits c ∨ Finishing c)
    (heach : Each (FinRule fits) c.log) :
    Closing fits (tcpContructFinAck env c) ∧ Each (FinRule fits) (tcpContructFinAck env c).log := by
  rcases hc with hc | hc
  · exact closing_tcpContructFinAck hmem hc heach
  · rcases hc.txSeg with ⟨s, hs, _⟩
    rw [tcpContructFinAck_of_pending env c hs]
    exact ⟨Or.inr hc, heach⟩

theorem sendInv_receivedWhenFinWait1 {c : Conn τ} (hmem : env.AllocOk)
    (hst : c.tcp.state = .finWait1) (hc : SendInv fits c) (seg : Received) :
    SendInv fits (receivedWhenFinWait1 env c seg) := by
  have hclosing : Closing fits c := by
    have := hc.shape
    rwa [hst] at this
  rcases closing_ackWhenClosing hmem hclosing hc.each seg .finWait2 with ⟨heach, h | h⟩
  · rcases h with ⟨hst', hs, hd⟩
    rw [receivedWhenFinWait1, if_neg (by simp [hst'])]
    refine ⟨heach, ?_⟩
    rw [hst']
    exact ⟨hs, hd⟩
  · rcases h with ⟨hst', hslot⟩
    rcases closing_retry hmem hslot heach with ⟨hclosing', heach'⟩
    rw [receivedWhenFinWait1, if_pos (hst'.trans hst)]
    refine ⟨heach', ?_⟩
    rw [tcpContructFinAck_state, hst', hst]
    exact hclosing'

theorem sendInv_receivedWhenLastAck {c : Conn τ} (hmem : env.AllocOk)
    (hst : c.tcp.state = .lastAck) (hc : SendInv fits c) (seg : Received) :
    SendInv fits (receivedWhenLastAck env c seg) := by
  have hclosing : Closing fits c := by
    have := hc.shape
    rwa [hst] at this
  rcases closing_ackWhenClosing hmem hclosing hc.each seg .closed with ⟨heach, h | h⟩
  · rw [receivedWhenLastAck, if_neg (by simp [h.1])]
    refine ⟨heach, ?_⟩
    rw [h.1]
    trivial
  · rcases h with ⟨hst', hslot⟩
    rcases closing_retry hmem hslot heach with ⟨hclosing', heach'⟩
    rw [receivedWhenLastAck, if_pos (hst'.trans hst)]
    refine ⟨heach', ?_⟩
    rw [tcpContructFinAck_state, hst', hst]
    exact hclosing'

theorem sendInv_receivedWhenFinWait2 {c : Conn τ} (hst : c.tcp.state = .finWait2)
    (hc : SendInv fits c) (seg : Received) : SendInv fits (receivedWhenFinWait2 env c seg) := by
  cases hAF : segCtrlAF seg.toSegment with
  | false =>
      simpa [receivedWhenFinWait2, hAF] using hc
  | true =>
      let ct := { c with
        tcp.state := .timeWait
        tcp.tmr := TimerLib.start c.tcp.tmr env.now c.tcp.timeWaitSeconds }
      have hct : SendFrame c ct := .of_log rfl rfl rfl rfl
      have hframe : SendFrame c (tcpHandleFinAck env ct seg).1 :=
        hct.trans (sendFrame_tcpHandleFinAck env ct seg)
      have hst' : (tcpHandleFinAck env ct seg).1.tcp.state = .timeWait := by
        simp [ct]
      have hshape : SendShape fits c .finWait2 := by
        rw [← hst]
        exact hc.shape
      have hres : receivedWhenFinWait2 env c seg = (tcpHandleFinAck env ct seg).1 := by
        simp [receivedWhenFinWait2, hAF, ct]
      rw [hres]
      refine ⟨hframe.each hc.each, ?_⟩
      rw [hst']
      exact hframe.sendShape hshape

theorem sendInv_tcpReceived {c : Conn τ} (hmem : env.AllocOk) (hc : SendInv fits c) (seg : Received) :
    SendInv fits (tcpReceived env c seg) := by
  -- TIME_WAIT and CLOSE_WAIT do the same
  have hfinAck : SendInv fits
      (if segCtrlAF seg.toSegment then (tcpHandleFinAck env c seg).1 else c) := by
    cases segCtrlAF seg.toSegment with
    | true =>
        exact (sendFrame_tcpHandleFinAck env c seg).sendInv (by simp) hc
    | false =>
        exact hc
  cases hst : c.tcp.state with
  | listen =>
      simpa [tcpReceived, hst, receivedEventProcess] using sendInv_receivedWhenListen hst hc seg
  | synSent =>
      simpa [tcpReceived, hst, receivedEventProcess] using sendInv_receivedWhenSynSent hst hc seg
  | synReceived =>
      simpa [tcpReceived, hst, receivedEventProcess] using
        sendInv_receivedWhenSynReceived hst hc seg
  | established =>
      simpa [tcpReceived, hst, receivedEventProcess] using
        sendInv_receivedWhenEstablished hmem hst hc seg
  | finWait1 =>
      simpa [tcpReceived, hst, receivedEventProcess] using
        sendInv_receivedWhenFinWait1 hmem hst hc seg
  | finWait2 =>
      simpa [tcpReceived, hst, receivedEventProcess] using sendInv_receivedWhenFinWait2 hst hc seg
  | timeWait =>
      simpa [tcpReceived, hst, receivedEventProcess, receivedWhenTimeWait] using hfinAck
  | closeWait =>
      simpa [tcpReceived, hst, receivedEventProcess, receivedWhenCloseWait] using hfinAck
  | lastAck =>
      simpa [tcpReceived, hst, receivedEventProcess] using
        sendInv_receivedWhenLastAck hmem hst hc seg
  | closing =>
      simpa [tcpReceived, hst, receivedEventProcess] using hc
  | closed =>
      simpa [tcpReceived, hst, receivedEventProcess] using hc

/-! ## The other events -/

omit [TimerLib τ] in
/-- An accepted buffer goes to the end of `tx_data`. -/
theorem loading_acceptData {c : Conn τ} (hc : Loading fits c) {data : List Byte}
    (hlen : fits → data.length < 65536) : Loading fits (acceptData c data) := by
  refine ⟨⟨?_, ?_, ?_, ?_⟩, hc.flags⟩
  · intro s hs
    refine hc.noFin s ?_
    simpa [acceptData, builtSegments] using hs
  · intro hfits
    have haccepted : acceptedBytes (acceptData c data).log = acceptedBytes c.log ++ data := by
      simp [acceptData, acceptedBytes]
    have hbuilt : builtSegments (acceptData c data).log = builtSegments c.log := by
      simp [acceptData, builtSegments]
    have hdata : (acceptData c data).tcp.txData.flatMap Block.bytes =
        c.tcp.txData.flatMap Block.bytes ++ data := by
      simp [acceptData, dblkCopyFrom_new, Block.bytes, Nat.mod_eq_of_lt (hlen hfits),
        memRead_eq_take]
    rw [haccepted, hbuilt, hdata, hc.accepted hfits, List.append_assoc]
  · simpa [acceptData, builtSegments, completedSegments] using hc.completed
  · intro s ack nxt hs
    refine hc.acked s ack nxt ?_
    simpa [acceptData] using hs

theorem sendInv_tcpSend {c : Conn τ} (hmem : env.AllocOk) (hc : SendInv fits c) {data : List Byte}
    (hlen : fits → data.length < 65536) : SendInv fits (tcpSend env c data).1 := by
  by_cases hst : c.tcp.state = .established
  · have hsending : Sending fits c := by
      have := hc.shape
      rwa [hst] at this
    have heach : Each (FinRule fits) (acceptData c data).log :=
      each_concat.2 ⟨hc.each, hsending.noFin⟩
    rcases sending_tcpConstructData hmem (loading_acceptData hsending.toLoading hlen) heach with
        ⟨hsending', heach'⟩
    rw [tcpSend_of_established env c hst, if_pos (hmem _ _)]
    refine ⟨heach', ?_⟩
    rw [tcpConstructData_state, acceptData, hst]
    exact hsending'
  · rw [tcpSend_of_not env c hst]
    exact hc

theorem sendInv_tcpClose {c : Conn τ} (hmem : env.AllocOk) (hc : SendInv fits c) :
    SendInv fits (tcpClose env c) := by
  rcases tcpClose_cases env c with ⟨hst, h⟩ | h
  · have hsending : Sending fits c := by
      have hshape := hc.shape
      rcases hst with hst | hst <;> rwa [hst] at hshape
    rcases closing_tcpContructFinAck hmem hsending hc.each with ⟨hclosing, heach⟩
    have hframe := sendFrame_setState (tcpContructFinAck env c) (closeState c.tcp.state)
    rw [h]
    refine ⟨hframe.each heach, ?_⟩
    -- FIN_WAIT_1 and LAST_ACK allow the same
    rcases hst with hst | hst <;> rw [hst] at hframe ⊢ <;> exact hframe.closing hclosing
  · rw [h]
    exact hc

theorem sendInv_tcpLoopVisit {c : Conn τ} (hc : SendInv fits c) : SendInv fits (tcpLoopVisit env c) := by
  have hstop : SendInv fits (stopTimer c) := (sendFrame_stopTimer c).sendInv rfl hc
  rcases tcpLoopVisit_cases env c with h | ⟨_, h⟩ | ⟨_, h⟩ | ⟨_, _, h⟩
  · rw [h]
    exact hc
  · rw [h]
    exact (sendFrame_tcpRetransmit env _).sendInv (by simp [tcpRetransmit_tcp]) hstop
  · rw [h]
    exact ⟨hc.each, trivial⟩
  · rw [h]
    exact hstop

/-! ## Runs -/

theorem sendInv_step {c : Conn τ} {e : Event} (hc : SendInv fits c) (he : e.AllocOk)
    (hsize : fits → e.SendSize 1379) : SendInv fits (step c e) := by
  cases e with
  | received env seg =>
      exact sendInv_tcpReceived he hc seg
  | send env data =>
      have hlen : fits → data.length < 65536 := fun hfits =>
        Nat.lt_of_le_of_lt (hsize hfits).2 (by decide)
      exact sendInv_tcpSend he hc hlen
  | recv data size =>
      exact (sendFrame_recvEvent c data size).sendInv (by simp) hc
  | close env =>
      exact sendInv_tcpClose he hc
  | loop env =>
      exact sendInv_tcpLoopVisit hc

theorem sendInv_opened {c : Conn τ} (hc : OpenedOk c) : SendInv fits c := by
  rcases hc with ⟨env, ip, port, dest, destPort, hmem, h⟩
  cases dest with
  | none =>
      rw [tcpOpenConn_passive] at h
      cases h
      refine ⟨each_nil, ⟨⟨⟨?_, fun _ => rfl, rfl, ?_⟩, ?_⟩, fun _ => rfl⟩, rfl, rfl⟩
      · intro seg hseg
        simp [builtSegments] at hseg
      · intro seg ack nxt hmem
        simp at hmem
      · intro seg hseg
        simp [listenTcb, tcpNew] at hseg
  | some dest =>
      rcases tcpOpenConn_active (τ := τ) env hmem ip port dest destPort with ⟨sent, _, h'⟩
      rw [h'] at h
      cases h
      let t : Tcb τ := synSentTcb env ip port dest destPort
      have hF : segCtrlF (synSegment t) = false := (ctrl_of_flags_syn rfl).2.2.2
      have hbuilt : Each (FinRule fits) ([] ++ [.built (synSegment t)]) := by
        refine each_concat.2 ⟨each_nil, ?_, ?_⟩
        · intro seg hseg
          simp [builtSegments] at hseg
        · intro h
          simp [hF] at h
      have hlog : Each (FinRule fits) ([] ++ [.built (synSegment t)] ++
          [.output (some (connDatagram t (synSegment t))) sent]) := by
        rw [each_concat]
        exact ⟨hbuilt, trivial⟩
      refine ⟨hlog, ⟨⟨?_, ?_, ?_, ?_⟩, rfl, _, rfl, rfl, rfl⟩⟩
      · intro seg hseg
        have : seg = synSegment t := by simpa [builtSegments] using hseg
        rw [this]
        exact hF
      · simp [builtSegments, acceptedBytes, synSegment, synSentTcb, tcpNew]
      · simp [builtSegments, completedSegments, synSentTcb, synSegment, newSegment]
      · intro seg ack nxt hmem
        simp at hmem

theorem sendInv_run {c₀ : Conn τ} {es : List Event} (h₀ : OpenedOk c₀)
    (hes : ∀ e ∈ es, e.AllocOk) (hsize : fits → ∀ e ∈ es, e.SendSize 1379) :
    SendInv fits (runConn c₀ es) := by
  have hes' : ∀ e ∈ es, e.AllocOk ∧ (fits → e.SendSize 1379) :=
    fun e he => ⟨hes e he, fun hfits => hsize hfits e he⟩
  exact Machine.run_invariant step (fun _ _ hc he => sendInv_step hc he.1 he.2)
    (sendInv_opened h₀) (Machine.along_of_forall step hes')

/-! ## The FIN comes last and once -/

/-- What surrounds the FIN in the record: no FIN before it and nothing built behind it, every
accepted byte in an earlier segment, and every earlier segment completed, those with text by an
acknowledgment of everything sent. -/
structure FinLast (pre post log : List Action) : Prop where
  once : NoFin pre
  last : builtSegments post = []
  accepted : acceptedBytes log = (builtSegments pre).flatMap Segment.payload
  completed : (builtSegments pre).map Segment.identity =
    (completedSegments pre).map Segment.identity
  acked : AckedInFull pre

/-- Nothing is built or accepted behind a FIN. -/
theorem neutral_or_completed_of_fin {pre post : List Action} {fin : Segment}
    (heach : Each (FinRule fits) (pre ++ .built fin :: post)) (hF : segCtrlF fin = true) :
    ∀ a ∈ post, (∀ seg, a ≠ .built seg) ∧ ∀ data, a ≠ .accepted data := by
  intro a ha
  rcases List.append_of_mem ha with ⟨p, q, rfl⟩
  have hrule : FinRule fits (pre ++ .built fin :: p) a :=
    heach (pre ++ .built fin :: p) a q (by simp)
  have hfin : ¬ NoFin (pre ++ .built fin :: p) := by
    intro hnoFin
    have := hnoFin fin (mem_builtSegments.2 (by simp))
    simp [hF] at this
  constructor
  · rintro seg rfl
    exact hfin hrule.1
  · rintro data rfl
    exact hfin hrule

theorem finLast_of_each {pre post : List Action} {fin : Segment}
    (heach : Each (FinRule True) (pre ++ .built fin :: post)) (hF : segCtrlF fin = true) :
    FinLast pre post (pre ++ .built fin :: post) := by
  have hpost := neutral_or_completed_of_fin heach hF
  rcases heach pre (.built fin) post rfl with ⟨hnoFin, hsettled⟩
  have hbuilt : builtSegments post = [] := by
    refine List.eq_nil_iff_forall_not_mem.2 ?_
    intro seg hseg
    exact (hpost _ (mem_builtSegments.1 hseg)).1 seg rfl
  have haccepted : acceptedBytes post = [] := by
    rw [acceptedBytes, List.flatMap_eq_nil_iff]
    intro a ha
    cases a with
    | accepted data => exact absurd rfl ((hpost _ ha).2 data)
    | _ => rfl
  have hsplit : acceptedBytes (pre ++ .built fin :: post) = acceptedBytes pre := by
    have : acceptedBytes (.built fin :: post) = acceptedBytes post := rfl
    rw [acceptedBytes_append, this, haccepted, List.append_nil]
  exact ⟨hnoFin, hbuilt, hsplit.trans ((hsettled hF).accepted trivial), (hsettled hF).completed,
    (hsettled hF).acked⟩

theorem fin_last_and_once {c₀ : Conn τ} {es : List Event} (h₀ : OpenedOk c₀)
    (hes : ∀ e ∈ es, e.AllocOk) (hsize : ∀ e ∈ es, e.SendSize 1379) :
    (∀ pre fin post, (runConn c₀ es).log = pre ++ .built fin :: post → segCtrlF fin = true →
      FinLast pre post (runConn c₀ es).log) ∧
    ((runConn c₀ es).tcp.state = .finWait1 ∨ (runConn c₀ es).tcp.state = .lastAck →
      (runConn c₀ es).tcp.txSeg ≠ none) := by
  have hinv : SendInv True (runConn c₀ es) := sendInv_run h₀ hes fun _ => hsize
  constructor
  · intro pre fin post hlog hF
    have heach := hinv.each
    rw [hlog] at heach ⊢
    exact finLast_of_each heach hF
  · intro hst
    have hclosing : Closing True (runConn c₀ es) := by
      have hshape := hinv.shape
      rcases hst with hst | hst <;> rwa [hst] at hshape
    rcases hclosing with ⟨_, hsome⟩ | hfin
    · exact hsome
    · rcases hfin.txSeg with ⟨seg, hs, _⟩
      simp [hs]

/-- A connection that sends one byte and is closed at once. -/
def sampleClosing : List Event :=
  [.received (.working 101) (peerSegment 700 101 (segFlagSyn ||| segFlagAck) []),
    .send (.working 102) [65],
    .close (.working 103),
    .received (.working 104) (peerSegment 701 102 segFlagAck [])]

theorem fin_last_and_once_sample :
    (runConn (sampleConn 100 (some samplePeer)) sampleClosing).tcp.state = .finWait1 ∧
      (runConn (sampleConn 100 (some samplePeer)) sampleClosing).tcp.txSeg ≠ none := by
  have hes : ∀ e ∈ sampleClosing, e.AllocOk := by
    simp [sampleClosing, Event.AllocOk, Env.allocOk_working]
  have hsize : ∀ e ∈ sampleClosing, e.SendSize 1379 := by
    simp [sampleClosing, Event.SendSize]
  have hst : (runConn (sampleConn 100 (some samplePeer)) sampleClosing).tcp.state = .finWait1 := by
    decide
  exact ⟨hst, (fin_last_and_once (openedOk_sampleConn _ _) hes hsize).2 (Or.inl hst)⟩

end Tcp
end DtsNet
