import DtsNet.Tcp.Sending

/-!
# SendSequence — `snd.nxt` and `snd.una` around the pending segment

While data or a FIN can be sent, `snd.nxt` should stand behind the segment in `tx_seg` and
`snd.una` at its start.  Most routines keep it so.  Three steps need not: `tcp_handle_fin_ack`
moves `snd.una` and leaves `tx_seg` where it is, SYN_RECEIVED is left with any acknowledgment from
`snd.una` on, and a listener that is entered again keeps the `snd.nxt` of its last SYN,ACK.
`SequenceOk` excludes exactly these.
-/

namespace DtsNet
namespace Tcp

open Ip Dblk

variable {τ : Type} {fits : Prop}

/-! ## The invariant -/

def txLength (t : Tcb τ) : ℕ :=
  match t.txSeg with
  | some seg => tcpSegmentLength seg.toSegment
  | none => 0

structure SendSequence (t : Tcb τ) : Prop where
  nxt : t.snd.nxt = t.snd.una + UInt32.ofNat (txLength t)
  seq : ∀ seg, t.txSeg = some seg → seg.seq = t.snd.una

/-- The states in which data or a FIN can be in `tx_seg`. -/
def Transfers (s : State) : Prop :=
  s = .established ∨ s = .closeWait ∨ s = .finWait1 ∨ s = .lastAck

structure SequenceInv (c : Conn τ) : Prop where
  opening : c.tcp.state = .synSent → c.tcp.snd.nxt = c.tcp.snd.iss + 1
  transfer : Transfers c.tcp.state → SendSequence c.tcp

/-- Between `snd.una` and `snd.nxt` an arriving segment acknowledges all or nothing where its
acknowledgment is taken without a look at `tx_seg`. -/
def SequenceOk (c : Conn τ) : Event → Prop
  | .received _ seg =>
      match c.tcp.state with
      | .synReceived =>
          seqAccepted c.tcp seg.toSegment = true → segCtrlR seg.toSegment = false →
            segCtrlA seg.toSegment = true →
              if sncmp c.tcp.snd.una .le seg.ack .le c.tcp.snd.nxt then seg.ack = c.tcp.snd.nxt
              else segCtrlF seg.toSegment = true → c.tcp.snd.una = c.tcp.snd.nxt
      | .established =>
          seqAccepted c.tcp seg.toSegment = true → segCtrlR seg.toSegment = false →
            segCtrlAF seg.toSegment = true →
              sncmp c.tcp.snd.una .ls seg.ack .le c.tcp.snd.nxt = true →
                seg.ack = c.tcp.snd.una ∨ seg.ack = c.tcp.snd.nxt
      | .closeWait =>
          segCtrlAF seg.toSegment = true →
            sncmp c.tcp.snd.una .ls seg.ack .le c.tcp.snd.nxt = true →
              seg.ack = c.tcp.snd.una
      | _ => True
  | _ => True

/-! ## Steps that keep it -/

theorem txLength_of_none {t : Tcb τ} (h : t.txSeg = none) : txLength t = 0 := by
  simp [txLength, h]

theorem txLength_of_some {t : Tcb τ} {seg : TxSegment} (h : t.txSeg = some seg) :
    txLength t = tcpSegmentLength seg.toSegment := by
  simp [txLength, h]

theorem SendSequence.una_eq {t : Tcb τ} (h : SendSequence t) (hs : t.txSeg = none) :
    t.snd.nxt = t.snd.una := by
  simpa [txLength_of_none hs] using h.nxt

theorem sendSequence_of_none {t : Tcb τ} (hs : t.txSeg = none) (h : t.snd.nxt = t.snd.una) :
    SendSequence t := by
  refine ⟨?_, ?_⟩
  · simpa [txLength_of_none hs] using h
  · intro seg hseg
    simp [hs] at hseg

theorem tcpSegmentLength_of_identity {seg seg' : Segment} (h : seg'.identity = seg.identity) :
    tcpSegmentLength seg' = tcpSegmentLength seg := by
  have hflags := Segment.flags_of_identity h
  have hpayload := Segment.payload_of_identity h
  simp [tcpSegmentLength, segCtrlS, segCtrlF, hflags, hpayload]

/-- A frame that leaves `snd` alone keeps the invariant. -/
theorem SendFrame.sendSequence {c c' : Conn τ} (h : SendFrame c c')
    (hsnd : c'.tcp.snd = c.tcp.snd) (hc : SendSequence c.tcp) : SendSequence c'.tcp := by
  cases hs : c.tcp.txSeg with
  | none =>
      refine sendSequence_of_none (h.txSeg_eq_none.2 hs) ?_
      rw [hsnd]
      exact hc.una_eq hs
  | some seg =>
      rcases h.exists_some hs with ⟨seg', hs', hid⟩
      have hlen : txLength c'.tcp = txLength c.tcp := by
        rw [txLength_of_some hs', txLength_of_some hs, tcpSegmentLength_of_identity hid]
      refine ⟨?_, ?_⟩
      · rw [hsnd, hlen]
        exact hc.nxt
      · intro s hseg
        have : s = seg' := by simpa [hs'] using hseg.symm
        rw [this, hsnd, Segment.seq_of_identity hid]
        exact hc.seq seg hs

/-- `tcp_handle_fin_ack` keeps it if the number it takes over is `snd.una` already. -/
theorem sendSequence_tcpHandleFinAck {c : Conn τ} (env : Env) (seg : Received)
    (hc : SendSequence c.tcp)
    (hack : sncmp c.tcp.snd.una .ls seg.ack .le c.tcp.snd.nxt = true → seg.ack = c.tcp.snd.una) :
    SendSequence (tcpHandleFinAck env c seg).1.tcp := by
  cases h : sncmp c.tcp.snd.una .ls seg.ack .le c.tcp.snd.nxt with
  | false =>
      rw [tcpHandleFinAck_of_not env c h]
      exact hc
  | true =>
      have hsnd : (tcpHandleFinAck env c seg).1.tcp.snd = c.tcp.snd := by
        rw [(tcpHandleFinAck_of env c h).1, takeFin, hack h]
      exact (sendFrame_tcpHandleFinAck env c seg).sendSequence hsnd hc

/-- Whether the handlers of ESTABLISHED, FIN_WAIT_1 and LAST_ACK complete `tx_seg` on this
acknowledgment. -/
def txCompletes (t : Tcb τ) (seg : TxSegment) (ack : UInt32) : Bool :=
  if segCtrlF seg.toSegment then seg.seq + 1 == ack else ackCompletes t ack

/-- `sncmp` misses the upper end of a range that wraps around. -/
theorem ackCompletes_iff {t : Tcb τ} (h : t.snd.una < t.snd.nxt) (ack : UInt32) :
    ackCompletes t ack = true ↔ ack = t.snd.nxt := by
  have hne : t.snd.una ≠ t.snd.nxt := by
    intro heq
    rw [heq] at h
    exact absurd h (by simp)
  simp only [ackCompletes, Bool.and_eq_true, beq_iff_eq]
  constructor
  · exact fun hack => hack.2
  · rintro rfl
    exact ⟨by simp [sncmp, hne, h], rfl⟩

theorem txCompletes_iff {c : Conn τ} (hsend : SendInv fits c) (hseq : SendSequence c.tcp)
    (hst : Transfers c.tcp.state) {seg : TxSegment} (hs : c.tcp.txSeg = some seg)
    (hwrap : segCtrlF seg.toSegment = true ∨ c.tcp.snd.una < c.tcp.snd.nxt) (ack : UInt32) :
    txCompletes c.tcp seg ack = true ↔ ack = c.tcp.snd.nxt := by
  cases hF : segCtrlF seg.toSegment with
  | false =>
      simp only [hF, Bool.false_eq_true, false_or] at hwrap
      simpa [txCompletes, hF] using ackCompletes_iff hwrap ack
  | true =>
      -- a FIN is pending in FIN_WAIT_1 and LAST_ACK only, and it is bare
      have hfin : Sending fits c ∨ Finishing c := by
        have hshape := hsend.shape
        rcases hst with hst | hst | hst | hst <;> rw [hst] at hshape
        · exact Or.inl hshape
        · exact Or.inl hshape
        · exact hshape.imp And.left id
        · exact hshape.imp And.left id
      have hlen : tcpSegmentLength seg.toSegment = 1 := by
        rcases hfin with hfin | hfin
        · have := (ctrl_of_flags_ack (hfin.flags seg hs)).2.2.2
          simp [hF] at this
        · rcases hfin.txSeg with ⟨seg', hs', hflags, hpayload⟩
          have heq : seg = seg' := by simpa [hs] using hs'
          rw [heq, tcpSegmentLength_of_flags_finAck hflags, hpayload]
          rfl
      have hnxt : c.tcp.snd.nxt = seg.seq + 1 := by
        rw [hseq.nxt, txLength_of_some hs, hlen, hseq.seq seg hs]
        rfl
      rw [txCompletes, if_pos hF, beq_iff_eq, hnxt]
      exact eq_comm

/-- Where the connection does not transfer, before and after, there is nothing to keep. -/
theorem sequenceInv_of_state {c : Conn τ} (h₁ : c.tcp.state ≠ .synSent)
    (h₂ : ¬ Transfers c.tcp.state) : SequenceInv c :=
  ⟨fun h => absurd h h₁, fun h => absurd h h₂⟩

theorem sequenceInv_of_transfer {c : Conn τ} (h₁ : c.tcp.state ≠ .synSent)
    (h₂ : SendSequence c.tcp) : SequenceInv c :=
  ⟨fun h => absurd h h₁, fun _ => h₂⟩

/-- A frame that leaves `snd` and the state alone. -/
theorem SendFrame.sequenceInv {c c' : Conn τ} (h : SendFrame c c')
    (hsnd : c'.tcp.snd = c.tcp.snd) (hst : c'.tcp.state = c.tcp.state) (hc : SequenceInv c) :
    SequenceInv c' := by
  refine ⟨?_, ?_⟩
  · rw [hst, hsnd]
    exact hc.opening
  · rw [hst]
    intro htransfers
    exact h.sendSequence hsnd (hc.transfer htransfers)

theorem sequenceInv_receivedWhenListen {c : Conn τ} (env : Env) (hst : c.tcp.state = .listen)
    (seg : Received) : SequenceInv (receivedWhenListen env c seg) := by
  rcases receivedWhenListen_state env c hst seg with hst' | hst'
  · exact sequenceInv_of_state (by simp [hst']) (by simp [hst', Transfers])
  · exact sequenceInv_of_state (by simp [hst']) (by simp [hst', Transfers])

theorem sequenceInv_receivedWhenSynReceived {c : Conn τ} (env : Env)
    (hst : c.tcp.state = .synReceived) (hsend : SendInv fits c) {seg : Received}
    (hok : SequenceOk c (.received env seg)) :
    SequenceInv (receivedWhenSynReceived env c seg) := by
  have hshape : SendShape fits c .synReceived := by
    rw [← hst]
    exact hsend.shape
  have hkeep : SequenceInv c := sequenceInv_of_state (by simp [hst]) (by simp [hst, Transfers])
  simp only [SequenceOk, hst] at hok
  cases hacc : seqAccepted c.tcp seg.toSegment with
  | false =>
      rw [receivedWhenSynReceived_of_rejected env c hacc]
      exact (sendFrame_processReceivedSeq env c seg).sequenceInv (by simp) (by simp) hkeep
  | true =>
      cases hR : segCtrlR seg.toSegment with
      | true =>
          rw [receivedWhenSynReceived_of_rst env c hacc hR, if_pos hshape.2.2]
          exact sequenceInv_of_state (by simp) (by simp [Transfers])
      | false =>
          cases hA : segCtrlA seg.toSegment with
          | false =>
              rw [receivedWhenSynReceived_of_no_ack env c hacc hR hA]
              exact hkeep
          | true =>
              have hok := hok hacc hR hA
              rw [receivedWhenSynReceived_of_ack env c hacc hR hA]
              cases hack : sncmp c.tcp.snd.una .le seg.ack .le c.tcp.snd.nxt with
              | true =>
                  simp only [hack, if_true] at hok
                  rw [ackSynReceived_of env c hack]
                  -- whether ESTABLISHED or CLOSE_WAIT, nothing is left to be acknowledged
                  cases hF : segCtrlF seg.toSegment with
                  | true =>
                      exact sequenceInv_of_transfer (by simp)
                        (sendSequence_of_none hshape.2.1 hok.symm)
                  | false =>
                      exact sequenceInv_of_transfer (by simp)
                        (sendSequence_of_none hshape.2.1 hok.symm)
              | false =>
                  simp only [hack, Bool.false_eq_true, if_false] at hok
                  rw [ackSynReceived_of_not env c hack]
                  cases hF : segCtrlF seg.toSegment with
                  | true =>
                      exact sequenceInv_of_transfer (by simp)
                        (sendSequence_of_none (by simp [hshape.2.1]) (by simp [hok hF]))
                  | false =>
                      exact sequenceInv_of_state (by simp [hst]) (by simp [hst, Transfers])

variable [TimerLib τ] {env : Env}

/-- The next data segment takes the first unused number. -/
theorem sendSequence_tcpConstructData {c : Conn τ} (hmem : env.AllocOk)
    (hc : SendSequence c.tcp) : SendSequence (tcpConstructData env c).tcp := by
  rcases tcpConstructData_cases env c with heq | ⟨tx, rest, hs, hd⟩
  · rw [heq]
    exact hc
  · rcases tcpConstructData_cons env c hmem hs hd with ⟨htcp, _⟩
    have hlen : tcpSegmentLength (dataSegment c.tcp tx) = tx.bytes.length :=
      tcpSegmentLength_of_flags_ack rfl
    rw [htcp]
    refine ⟨?_, ?_⟩
    · rw [txLength_of_some rfl, packTxSegment_toSegment, hlen, hc.una_eq hs]
    · intro seg hseg
      cases hseg
      rfl

theorem sendSequence_ackedConn (c : Conn τ) (seg : TxSegment) :
    SendSequence (ackedConn c seg).tcp :=
  sendSequence_of_none rfl rfl

/-- So does the FIN. -/
theorem sendSequence_tcpContructFinAck {c : Conn τ} (hmem : env.AllocOk)
    (hc : SendSequence c.tcp) : SendSequence (tcpContructFinAck env c).tcp := by
  rcases tcpContructFinAck_cases env c with heq | ⟨hs, hd, _⟩
  · rw [heq]
    exact hc
  · have hlen : tcpSegmentLength (finSegment c.tcp) = 1 :=
      tcpSegmentLength_of_flags_finAck rfl
    rw [tcpContructFinAck_of_empty env c hmem hs hd]
    refine ⟨?_, ?_⟩
    · rw [txLength_of_some rfl, packTxSegment_toSegment, hlen, hc.una_eq hs]
      rfl
    · intro seg hseg
      cases hseg
      rfl

/-! ## The other handlers of arriving segments -/

theorem sequenceInv_receivedWhenSynSent {c : Conn τ} (hst : c.tcp.state = .synSent)
    (hc : SequenceInv c) (seg : Received) : SequenceInv (receivedWhenSynSent env c seg) := by
  have hnxt := hc.opening hst
  rcases receivedWhenSynSent_cases env c seg with
      h | ⟨_, _, _, h⟩ | ⟨_, _, ⟨_, h⟩ | ⟨_, _, hiss, h⟩⟩
  · rw [h]
    exact hc
  · rw [h]
    exact (sendFrame_tcpSendCtrlSeg_rst env c seg.ack seg.seq).sequenceInv (by simp) (by simp) hc
  · rw [h]
    exact sequenceInv_of_state (by simp) (by simp [Transfers])
  · rw [h]
    rcases synAckReply_cases env c seg with ⟨_, htcp, _⟩ | ⟨hlt, _, h⟩
    · refine ⟨fun _ => ?_, fun htransfers => ?_⟩
      · simpa [htcp, takeSynAck] using hnxt
      · simp [htcp, takeSynAck, hst, Transfers] at htransfers
    · -- the only acknowledgment of the SYN is `iss + 1`, which is `snd.nxt`
      rw [hnxt] at hiss
      have hack : seg.ack = c.tcp.snd.iss + 1 := eq_of_sncmp_succ hlt hiss
      rw [h]
      cases hs : c.tcp.txSeg with
      | none =>
          exact sequenceInv_of_transfer (by simp [tcpTxSegComplete, takeSynAck, hs])
            (sendSequence_of_none (by simp [tcpTxSegComplete, takeSynAck, hs])
              (by simp [tcpTxSegComplete, takeSynAck, hs, hnxt, hack]))
      | some s =>
          exact sequenceInv_of_transfer (by simp [tcpTxSegComplete, takeSynAck, hs])
            (sendSequence_of_none (by simp [tcpTxSegComplete, takeSynAck, hs])
              (by simp [tcpTxSegComplete, takeSynAck, hs, hnxt, hack]))

/-- The acknowledgment part of `received_when_established`, and what it leaves for a FIN. -/
theorem sendSequence_ackEstablished {c : Conn τ} (hmem : env.AllocOk) (hsending : Sending fits c)
    (hc : SendSequence c.tcp) (seg : Received) :
    SendSequence (ackEstablished env c seg).tcp ∧
      (ackEstablished env c seg = c ∧ (c.tcp.txSeg ≠ none → ackCompletes c.tcp seg.ack = false) ∨
        seg.ack = c.tcp.snd.nxt ∧ (ackEstablished env c seg).tcp.snd.una = c.tcp.snd.nxt) := by
  rcases ackEstablished_cases env c seg with ⟨h, hnot⟩ | ⟨s, hs, _, hcompletes, h⟩
  · rw [h]
    refine ⟨hc, Or.inl ⟨rfl, fun hsome => ?_⟩⟩
    rcases Option.ne_none_iff_exists'.1 hsome with ⟨s, hs⟩
    exact hnot s hs (ctrl_of_flags_ack (hsending.flags s hs)).2.2.2
  · have hseq := sendSequence_tcpConstructData hmem (sendSequence_ackedConn c s)
    have hack : seg.ack = c.tcp.snd.nxt := by
      simp only [ackCompletes, Bool.and_eq_true, beq_iff_eq] at hcompletes
      exact hcompletes.2
    rw [h]
    exact ⟨hseq, Or.inr ⟨hack, by simp [ackedConn]⟩⟩

theorem sequenceInv_receivedWhenEstablished {c : Conn τ} (hmem : env.AllocOk)
    (hst : c.tcp.state = .established) (hsend : SendInv fits c) (hc : SequenceInv c) {seg : Received}
    (hok : SequenceOk c (.received env seg)) :
    SequenceInv (receivedWhenEstablished env c seg) := by
  have hsending : Sending fits c := by
    have := hsend.shape
    rwa [hst] at this
  have hseq : SendSequence c.tcp := hc.transfer (Or.inl hst)
  simp only [SequenceOk, hst] at hok
  cases hacc : seqAccepted c.tcp seg.toSegment with
  | false =>
      rw [receivedWhenEstablished_of_rejected env c hacc]
      exact (sendFrame_processReceivedSeq env c seg).sequenceInv (by simp) (by simp) hc
  | true =>
      by_cases hRA : segCtrlR seg.toSegment = true ∨ segCtrlA seg.toSegment = false
      · rw [receivedWhenEstablished_of_ignored env c hacc hRA]
        exact hc
      · have hR : segCtrlR seg.toSegment = false := by simp_all
        have hA : segCtrlA seg.toSegment = true := by simp_all
        rcases sendSequence_ackEstablished hmem hsending hseq seg with ⟨hack, hfin⟩
        have htext : SendSequence (textEstablished env c seg).tcp :=
          (sendFrame_tcpHandleData env _ seg).sendSequence (by simp) hack
        rw [receivedWhenEstablished_of_ack env c hacc hR hA]
        cases hF : segCtrlF seg.toSegment with
        | false =>
            exact sequenceInv_of_transfer (by simp [textEstablished, hst]) htext
        | true =>
            refine sequenceInv_of_transfer (by simp) ((sendFrame_setState _ .closeWait).sendSequence
              rfl (sendSequence_tcpHandleFinAck env seg htext fun hwin => ?_))
            have hsnd : (textEstablished env c seg).tcp.snd = (ackEstablished env c seg).tcp.snd := by
              simp [textEstablished]
            rw [hsnd] at hwin ⊢
            rcases hfin with ⟨hsame, hnot⟩ | ⟨hall, huna⟩
            · rw [hsame] at hwin ⊢
              have hAF : segCtrlAF seg.toSegment = true := by simp [segCtrlAF, hF, hA]
              rcases hok hacc hR hAF hwin with h | h
              · exact h
              · -- everything is acknowledged, so nothing was pending
                by_cases hs : c.tcp.txSeg = none
                · rw [h]
                  exact hseq.una_eq hs
                · have hall : ackCompletes c.tcp seg.ack = true := by
                    rw [ackCompletes, hwin, h]
                    simp
                  simp [hnot hs] at hall
            · rw [hall, huna]

/-- FIN_WAIT_1 and LAST_ACK look at `tx_seg` before they take an acknowledgment. -/
theorem sendSequence_ackWhenClosing {c : Conn τ} (hmem : env.AllocOk) (hc : SendSequence c.tcp)
    (seg : Received) {next : State} (hnext : (ackWhenClosing env c seg next).tcp.state ≠ next) :
    SendSequence (ackWhenClosing env c seg next).tcp := by
  rcases ackWhenClosing_cases env c seg next with h | ⟨_, _, _, _, _, h⟩ | ⟨s, _, _, _, _, h⟩
  · rw [h]
    exact hc
  · -- an acknowledged FIN takes the state on
    rw [h] at hnext
    exact absurd rfl hnext
  · rw [h]
    exact sendSequence_tcpConstructData hmem (sendSequence_ackedConn c s)

theorem sequenceInv_receivedWhenFinWait1 {c : Conn τ} (hmem : env.AllocOk)
    (hst : c.tcp.state = .finWait1) (hsend : SendInv fits c) (hc : SequenceInv c) (seg : Received) :
    SequenceInv (receivedWhenFinWait1 env c seg) := by
  have hclosing : Closing fits c := by
    have := hsend.shape
    rwa [hst] at this
  have hseq : SendSequence c.tcp := hc.transfer (by simp [hst, Transfers])
  rcases (closing_ackWhenClosing hmem hclosing hsend.each seg .finWait2).2 with
      ⟨hst', _⟩ | ⟨hst', _⟩
  · rw [receivedWhenFinWait1, if_neg (by simp [hst'])]
    exact sequenceInv_of_state (by simp [hst']) (by simp [hst', Transfers])
  · have hack : SendSequence (ackWhenClosing env c seg .finWait2).tcp :=
      sendSequence_ackWhenClosing hmem hseq seg (by simp [hst', hst])
    rw [receivedWhenFinWait1, if_pos (hst'.trans hst)]
    exact sequenceInv_of_transfer (by simp [hst', hst])
      (sendSequence_tcpContructFinAck hmem hack)

theorem sequenceInv_receivedWhenLastAck {c : Conn τ} (hmem : env.AllocOk)
    (hst : c.tcp.state = .lastAck) (hsend : SendInv fits c) (hc : SequenceInv c) (seg : Received) :
    SequenceInv (receivedWhenLastAck env c seg) := by
  have hclosing : Closing fits c := by
    have := hsend.shape
    rwa [hst] at this
  have hseq : SendSequence c.tcp := hc.transfer (by simp [hst, Transfers])
  rcases (closing_ackWhenClosing hmem hclosing hsend.each seg .closed).2 with
      ⟨hst', _⟩ | ⟨hst', _⟩
  · rw [receivedWhenLastAck, if_neg (by simp [hst'])]
    exact sequenceInv_of_state (by simp [hst']) (by simp [hst', Transfers])
  · have hack : SendSequence (ackWhenClosing env c seg .closed).tcp :=
      sendSequence_ackWhenClosing hmem hseq seg (by simp [hst', hst])
    rw [receivedWhenLastAck, if_pos (hst'.trans hst)]
    exact sequenceInv_of_transfer (by simp [hst', hst])
      (sendSequence_tcpContructFinAck hmem hack)

theorem sequenceInv_tcpReceived {c : Conn τ} (hmem : env.AllocOk) (hsend : SendInv fits c)
    (hc : SequenceInv c) {seg : Received} (hok : SequenceOk c (.received env seg)) :
    SequenceInv (tcpReceived env c seg) := by
  cases hst : c.tcp.state with
  | listen =>
      simpa [tcpReceived, hst, receivedEventProcess] using
        sequenceInv_receivedWhenListen env hst seg
  | synSent =>
      simpa [tcpReceived, hst, receivedEventProcess] using
        sequenceInv_receivedWhenSynSent hst hc seg
  | synReceived =>
      simpa [tcpReceived, hst, receivedEventProcess] using
        sequenceInv_receivedWhenSynReceived env hst hsend hok
  | established =>
      simpa [tcpReceived, hst, receivedEventProcess] using
        sequenceInv_receivedWhenEstablished hmem hst hsend hc hok
  | finWait1 =>
      simpa [tcpReceived, hst, receivedEventProcess] using
        sequenceInv_receivedWhenFinWait1 hmem hst hsend hc seg
  | lastAck =>
      simpa [tcpReceived, hst, receivedEventProcess] using
        sequenceInv_receivedWhenLastAck hmem hst hsend hc seg
  | closeWait =>
      have hseq : SendSequence c.tcp := hc.transfer (by simp [hst, Transfers])
      simp only [SequenceOk, hst] at hok
      cases hAF : segCtrlAF seg.toSegment with
      | true =>
          simpa [tcpReceived, hst, receivedEventProcess, receivedWhenCloseWait, hAF] using
            sequenceInv_of_transfer (by simp [hst])
              (sendSequence_tcpHandleFinAck env seg hseq (hok hAF))
      | false =>
          simpa [tcpReceived, hst, receivedEventProcess, receivedWhenCloseWait, hAF] using hc
  | finWait2 =>
      refine sequenceInv_of_state ?_ ?_ <;>
        cases hAF : segCtrlAF seg.toSegment <;>
          simp [tcpReceived, hst, receivedEventProcess, receivedWhenFinWait2, hAF, Transfers]
  | timeWait =>
      refine sequenceInv_of_state ?_ ?_ <;>
        cases hAF : segCtrlAF seg.toSegment <;>
          simp [tcpReceived, hst, receivedEventProcess, receivedWhenTimeWait, hAF, Transfers]
  | closing =>
      simpa [tcpReceived, hst, receivedEventProcess] using hc
  | closed =>
      simpa [tcpReceived, hst, receivedEventProcess] using hc

/-! ## The other events -/

theorem sequenceInv_tcpSend {c : Conn τ} (hmem : env.AllocOk) (hc : SequenceInv c)
    (data : List Byte) : SequenceInv (tcpSend env c data).1 := by
  by_cases hst : c.tcp.state = .established
  · have hseq : SendSequence c.tcp := hc.transfer (Or.inl hst)
    have haccept : SendSequence (acceptData c data).tcp := ⟨hseq.nxt, hseq.seq⟩
    rw [tcpSend_of_established env c hst, if_pos (hmem _ _)]
    exact sequenceInv_of_transfer (by simp [acceptData, hst])
      (sendSequence_tcpConstructData hmem haccept)
  · rw [tcpSend_of_not env c hst]
    exact hc

theorem sequenceInv_tcpClose {c : Conn τ} (hmem : env.AllocOk) (hc : SequenceInv c) :
    SequenceInv (tcpClose env c) := by
  rcases tcpClose_cases env c with ⟨hst, h⟩ | h
  · have hseq : SendSequence c.tcp :=
      hc.transfer (hst.elim Or.inl fun hst => Or.inr (Or.inl hst))
    rw [h]
    refine sequenceInv_of_transfer ?_ ((sendFrame_setState _ _).sendSequence rfl
      (sendSequence_tcpContructFinAck hmem hseq))
    rcases hst with hst | hst <;> simp [hst, closeState]
  · rw [h]
    exact hc

theorem sequenceInv_tcpLoopVisit {c : Conn τ} (hc : SequenceInv c) :
    SequenceInv (tcpLoopVisit env c) := by
  have hstop : SequenceInv (stopTimer c) := (sendFrame_stopTimer c).sequenceInv rfl rfl hc
  rcases tcpLoopVisit_cases env c with h | ⟨_, h⟩ | ⟨_, h⟩ | ⟨_, _, h⟩
  · rw [h]
    exact hc
  · rw [h]
    exact (sendFrame_tcpRetransmit env _).sequenceInv (by simp [tcpRetransmit_tcp])
      (by simp [tcpRetransmit_tcp]) hstop
  · rw [h]
    exact sequenceInv_of_state (by simp) (by simp [Transfers])
  · rw [h]
    exact hstop

/-! ## Runs -/

theorem sequenceInv_step {c : Conn τ} {e : Event} (hsend : SendInv fits c) (hc : SequenceInv c)
    (he : e.AllocOk) (hok : SequenceOk c e) : SequenceInv (step c e) := by
  cases e with
  | received env seg =>
      exact sequenceInv_tcpReceived he hsend hc hok
  | send env data =>
      exact sequenceInv_tcpSend he hc data
  | recv data size =>
      exact (sendFrame_recvEvent c data size).sequenceInv (by simp) (by simp) hc
  | close env =>
      exact sequenceInv_tcpClose he hc
  | loop env =>
      exact sequenceInv_tcpLoopVisit hc

theorem sequenceInv_opened {c : Conn τ} (hc : OpenedOk c) : SequenceInv c := by
  rcases hc with ⟨env, ip, port, dest, destPort, hmem, h⟩
  cases dest with
  | none =>
      rw [tcpOpenConn_passive] at h
      cases h
      exact sequenceInv_of_state (by simp [listenTcb]) (by simp [listenTcb, Transfers])
  | some dest =>
      rcases tcpOpenConn_active (τ := τ) env hmem ip port dest destPort with ⟨sent, _, h'⟩
      rw [h'] at h
      cases h
      exact ⟨fun _ => rfl, fun htransfers => by simp [synSentTcb, Transfers] at htransfers⟩

theorem sequenceInv_run {c₀ : Conn τ} {es : List Event} (h₀ : OpenedOk c₀)
    (hes : ∀ e ∈ es, e.AllocOk) (hok : Machine.Along step SequenceOk c₀ es) :
    SendInv False (runConn c₀ es) ∧ SequenceInv (runConn c₀ es) := by
  have hstep : ∀ (c : Conn τ) (e : Event), SendInv False c ∧ SequenceInv c →
      e.AllocOk ∧ SequenceOk c e → SendInv False (step c e) ∧ SequenceInv (step c e) := by
    intro c e hc he
    exact ⟨sendInv_step hc.1 he.1 False.elim, sequenceInv_step hc.1 hc.2 he.1 he.2⟩
  exact Machine.run_invariant step hstep ⟨sendInv_opened h₀, sequenceInv_opened h₀⟩
    ((Machine.along_of_forall step hes).and step hok)

/-! ## The invariant on runs -/

/-- In every run that keeps to `SequenceOk`, `snd.nxt` stands right behind the segment in `tx_seg`,
which starts at `snd.una`; an acknowledgment of `snd.nxt` is exactly the one that completes it,
unless the numbers of a data segment wrap around. -/
theorem snd_nxt_behind_txSeg {c₀ : Conn τ} {es : List Event} (h₀ : OpenedOk c₀)
    (hes : ∀ e ∈ es, e.AllocOk) (hok : Machine.Along step SequenceOk c₀ es)
    (hst : Transfers (runConn c₀ es).tcp.state) :
    (runConn c₀ es).tcp.snd.nxt =
        (runConn c₀ es).tcp.snd.una + UInt32.ofNat (txLength (runConn c₀ es).tcp) ∧
      ((runConn c₀ es).tcp.txSeg = none →
        (runConn c₀ es).tcp.snd.una = (runConn c₀ es).tcp.snd.nxt) ∧
      ∀ seg, (runConn c₀ es).tcp.txSeg = some seg →
        seg.seq = (runConn c₀ es).tcp.snd.una ∧
          (segCtrlF seg.toSegment = true ∨
              (runConn c₀ es).tcp.snd.una < (runConn c₀ es).tcp.snd.nxt →
            ∀ ack, txCompletes (runConn c₀ es).tcp seg ack = true ↔
              ack = (runConn c₀ es).tcp.snd.nxt) := by
  rcases sequenceInv_run h₀ hes hok with ⟨hsend, hinv⟩
  have hseq : SendSequence (runConn c₀ es).tcp := hinv.transfer hst
  refine ⟨hseq.nxt, fun hs => (hseq.una_eq hs).symm, ?_⟩
  intro seg hs
  refine ⟨hseq.seq seg hs, ?_⟩
  intro hwrap ack
  exact txCompletes_iff hsend hseq hst hs hwrap ack

/-- The peer closes while a byte is on its way to it. -/
def sampleHalfClose : List Event :=
  [.received (.working 101) (peerSegment 700 101 (segFlagSyn ||| segFlagAck) []),
    .send (.working 102) [65],
    .received (.working 103) (peerSegment 701 101 (segFlagFin ||| segFlagAck) [])]

theorem allocOk_sampleHalfClose : ∀ e ∈ sampleHalfClose, e.AllocOk := by
  simp [sampleHalfClose, Event.AllocOk, Env.allocOk_working]

theorem snd_nxt_behind_txSeg_sample :
    (runConn (sampleConn 100 (some samplePeer)) sampleHalfClose).tcp.state = .closeWait ∧
      (runConn (sampleConn 100 (some samplePeer)) sampleHalfClose).tcp.snd.nxt =
        (runConn (sampleConn 100 (some samplePeer)) sampleHalfClose).tcp.snd.una +
          UInt32.ofNat (txLength (runConn (sampleConn 100 (some samplePeer)) sampleHalfClose).tcp) := by
  have hok : Machine.Along step SequenceOk (sampleConn 100 (some samplePeer)) sampleHalfClose := by
    refine ⟨trivial, trivial, ?_, trivial⟩
    intro _ _ _ hwin
    exact absurd hwin (by decide)
  have hst : (runConn (sampleConn 100 (some samplePeer)) sampleHalfClose).tcp.state =
      .closeWait := by
    decide
  exact ⟨hst, (snd_nxt_behind_txSeg (openedOk_sampleConn _ _) allocOk_sampleHalfClose hok
    (Or.inr (Or.inl hst))).1⟩

/-- If the peer's FIN comes again, now with the acknowledgment of the byte, `snd.una` moves behind
a segment that stays in `tx_seg`. -/
theorem snd_nxt_not_behind_txSeg :
    ∃ c₀ : Conn Deadline, ∃ es : List Event, OpenedOk c₀ ∧ (∀ e ∈ es, e.AllocOk ∧ e.SendSize 1379) ∧
      (runConn c₀ es).tcp.state = .closeWait ∧
      (runConn c₀ es).tcp.snd.nxt ≠
        (runConn c₀ es).tcp.snd.una + UInt32.ofNat (txLength (runConn c₀ es).tcp) := by
  refine ⟨sampleConn 100 (some samplePeer), sampleHalfClose ++
    [.received (.working 104) (peerSegment 701 102 (segFlagFin ||| segFlagAck) [])],
    openedOk_sampleConn _ _, ?_, by decide, by decide⟩
  simp [sampleHalfClose, Event.AllocOk, Event.SendSize, Env.allocOk_working]

end Tcp
end DtsNet
