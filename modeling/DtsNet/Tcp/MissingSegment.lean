import DtsNet.Tcp.Sending

/-!
# MissingSegment — reads of `tx_seg->flags`

`received_when_established`, `received_when_fin_wait_1` and `received_when_last_ack` evaluate
`SEG_CTRL_F(tcp->tx_seg)`.  Here each of them is given once more, with a read through a null
`tx_seg` as a failure, and compared with the handler that goes on with whatever the read yields.
-/

namespace DtsNet
namespace Tcp

open Ip Dblk

variable {τ : Type} [TimerLib τ]

/-! ## The handlers, failing at a missing segment -/

/-- `SEG_CTRL_F(tcp->tx_seg)`; `none` where `tx_seg` is null. -/
def readTxSegCtrlF (c : Conn τ) : Option Bool :=
  c.tcp.txSeg.map fun seg => segCtrlF seg.toSegment

def readWhenEstablished (env : Env) (c : Conn τ) (seg : Received) : Option (Conn τ) :=
  let r := processReceivedSeq env c seg
  if !r.2 then
    some r.1
  else
    let c := r.1
    if segCtrlR seg.toSegment then
      some c
    else if segCtrlA seg.toSegment then
      (readTxSegCtrlF c).map fun fin =>
        let c := if !fin then (tcpHandleAckOfData env c seg).1 else c
        let c := (tcpHandleData env c seg).1
        if segCtrlF seg.toSegment then
          let c := (tcpHandleFinAck env c seg).1
          { c with tcp.state := .closeWait }
        else
          c
    else
      some c

def readAckWhenClosing (env : Env) (c : Conn τ) (seg : Received) (next : State) :
    Option (Conn τ) :=
  if segCtrlA seg.toSegment then
    (readTxSegCtrlF c).map fun fin =>
      if !fin then
        (tcpHandleAckOfData env c seg).1
      else
        let r := tcpHandleAckOfFinAck c seg
        if r.2 then { r.1 with tcp.state := next } else r.1
  else
    some c

def readWhenFinWait1 (env : Env) (c : Conn τ) (seg : Received) : Option (Conn τ) :=
  (readAckWhenClosing env c seg .finWait2).map fun c =>
    if c.tcp.state = .finWait1 then tcpContructFinAck env c else c

def readWhenLastAck (env : Env) (c : Conn τ) (seg : Received) : Option (Conn τ) :=
  (readAckWhenClosing env c seg .closed).map fun c =>
    if c.tcp.state = .lastAck then tcpContructFinAck env c else c

def readReceived (env : Env) (c : Conn τ) (seg : Received) : Option (Conn τ) :=
  match c.tcp.state with
  | .established => readWhenEstablished env c seg
  | .finWait1 => readWhenFinWait1 env c seg
  | .lastAck => readWhenLastAck env c seg
  | _ => some (tcpReceived env c seg)

def readStep (c : Conn τ) : Event → Option (Conn τ)
  | .received env seg => readReceived env c seg
  | e => some (step c e)

/-! ## Where they fail -/

/-- The segment gets as far as the acknowledgment part of `received_when_established`. -/
def AckLooked (t : Tcb τ) (seg : Segment) : Prop :=
  seqAccepted t seg = true ∧ segCtrlR seg = false ∧ segCtrlA seg = true

instance (t : Tcb τ) (seg : Segment) : Decidable (AckLooked t seg) :=
  inferInstanceAs (Decidable (_ ∧ _ ∧ _))

/-- The state before the step and the segment for which `tx_seg` is there when it is looked into:
in ESTABLISHED an acknowledgment that is looked at finds a segment under way. -/
def SegPresent (c : Conn τ) : Event → Prop
  | .received _ seg =>
      c.tcp.state = .established → AckLooked c.tcp seg.toSegment → c.tcp.txSeg ≠ none
  | _ => True

omit [TimerLib τ] in
theorem readTxSegCtrlF_of_some {c : Conn τ} (hs : c.tcp.txSeg ≠ none) (env : Env) :
    readTxSegCtrlF c = some (txSegCtrlF env c) := by
  cases h : c.tcp.txSeg with
  | none =>
      exact absurd h hs
  | some seg =>
      simp [readTxSegCtrlF, txSegCtrlF, h]

theorem readWhenEstablished_of_present {c : Conn τ} (env : Env) {seg : Received}
    (h : AckLooked c.tcp seg.toSegment → c.tcp.txSeg ≠ none) :
    readWhenEstablished env c seg = some (receivedWhenEstablished env c seg) := by
  cases hacc : seqAccepted c.tcp seg.toSegment with
  | false =>
      simp [readWhenEstablished, receivedWhenEstablished, processReceivedSeq_ok, hacc]
  | true =>
      by_cases hRA : segCtrlR seg.toSegment = true ∨ segCtrlA seg.toSegment = false
      · rw [receivedWhenEstablished_of_ignored env c hacc hRA]
        rcases hRA with hR | hA
        · simp [readWhenEstablished, processReceivedSeq_of_accepted env c hacc, hR]
        · simp [readWhenEstablished, processReceivedSeq_of_accepted env c hacc, hA]
      · rw [not_or, Bool.not_eq_true, Bool.not_eq_false] at hRA
        have hread := readTxSegCtrlF_of_some (h ⟨hacc, hRA.1, hRA.2⟩) env
        simp [readWhenEstablished, receivedWhenEstablished,
          processReceivedSeq_of_accepted env c hacc, hRA.1, hRA.2, hread]

theorem readWhenEstablished_of_missing {c : Conn τ} (env : Env) {seg : Received}
    (h : AckLooked c.tcp seg.toSegment) (hs : c.tcp.txSeg = none) :
    readWhenEstablished env c seg = none := by
  rcases h with ⟨hacc, hR, hA⟩
  simp [readWhenEstablished, processReceivedSeq_of_accepted env c hacc, hR, hA, readTxSegCtrlF, hs]

theorem readAckWhenClosing_of_some {c : Conn τ} (env : Env) (hs : c.tcp.txSeg ≠ none)
    (seg : Received) (next : State) :
    readAckWhenClosing env c seg next = some (ackWhenClosing env c seg next) := by
  cases hA : segCtrlA seg.toSegment <;>
    simp [readAckWhenClosing, ackWhenClosing, hA, readTxSegCtrlF_of_some hs env]

/-! ## Runs -/

omit [TimerLib τ] in
/-- In FIN_WAIT_1 and LAST_ACK there is always a segment in `tx_seg`, the last data or the FIN. -/
theorem SendInv.txSeg_ne_none {fits : Prop} {c : Conn τ} (hc : SendInv fits c)
    (hst : c.tcp.state = .finWait1 ∨ c.tcp.state = .lastAck) : c.tcp.txSeg ≠ none := by
  have hclosing : Closing fits c := by
    have hshape := hc.shape
    rcases hst with hst | hst <;> simpa [hst, SendShape] using hshape
  rcases hclosing with ⟨_, hs⟩ | hfin
  · exact hs
  · rcases hfin.txSeg with ⟨seg, hs, _⟩
    simp [hs]

theorem readStep_of_present {fits : Prop} {c : Conn τ} (hc : SendInv fits c) {e : Event}
    (he : SegPresent c e) : readStep c e = some (step c e) := by
  cases e with
  | received env seg =>
      cases hst : c.tcp.state with
      | established =>
          simp [readStep, readReceived, step, tcpReceived, receivedEventProcess, hst,
            readWhenEstablished_of_present env (he hst)]
      | finWait1 =>
          have hs := hc.txSeg_ne_none (Or.inl hst)
          simp [readStep, readReceived, step, tcpReceived, receivedEventProcess, hst,
            readWhenFinWait1, receivedWhenFinWait1, readAckWhenClosing_of_some env hs]
      | lastAck =>
          have hs := hc.txSeg_ne_none (Or.inr hst)
          simp [readStep, readReceived, step, tcpReceived, receivedEventProcess, hst,
            readWhenLastAck, receivedWhenLastAck, readAckWhenClosing_of_some env hs]
      | _ =>
          simp [readStep, readReceived, step, hst]
  | _ =>
      rfl

theorem readStep_of_missing {c : Conn τ} {e : Event} (he : ¬ SegPresent c e) :
    readStep c e = none := by
  cases e with
  | received env seg =>
      simp only [SegPresent, not_forall, not_not] at he
      rcases he with ⟨hst, hlooked, hs⟩
      simp [readStep, readReceived, hst, readWhenEstablished_of_missing env hlooked hs]
  | _ =>
      exact absurd trivial he

/-- A run in which every allocation succeeds never looks into a missing segment exactly if, in
ESTABLISHED, no acknowledgment that is looked at arrives while nothing is under way. -/
theorem no_missing_segment_read_iff {c₀ : Conn τ} {es : List Event} (h₀ : OpenedOk c₀)
    (hes : ∀ e ∈ es, e.AllocOk) :
    Machine.tryRun readStep c₀ es = some (runConn c₀ es) ↔ Machine.Along step SegPresent c₀ es := by
  refine Machine.tryRun_eq_some_iff step (D := fun _ e => e.AllocOk) (I := SendInv False)
    ?_ ?_ ?_ (sendInv_opened h₀) (Machine.along_of_forall step hes)
  · intro c e hc he
    exact sendInv_step hc he False.elim
  · intro c e hc he
    exact readStep_of_present hc he
  · intro c e _ he
    exact readStep_of_missing he

/-- The connection is opened, sends one byte, and has it acknowledged. -/
def sampleAcked : List Event :=
  [.received (.working 8) (peerSegment 300 8 (segFlagSyn ||| segFlagAck) []),
    .send (.working 9) [65],
    .received (.working 10) (peerSegment 301 9 segFlagAck [])]

theorem no_missing_segment_read_sample :
    Machine.tryRun readStep (sampleConn 7 (some samplePeer)) sampleAcked =
      some (runConn (sampleConn 7 (some samplePeer)) sampleAcked) := by
  refine (no_missing_segment_read_iff (openedOk_sampleConn 7 _) ?_).2 ?_
  · intro e he
    simp only [sampleAcked, List.mem_cons, List.not_mem_nil, or_false] at he
    rcases he with rfl | rfl | rfl <;> exact Env.allocOk_working _
  · simp only [sampleAcked, Machine.along_cons, Machine.along_nil, SegPresent, and_true]
    decide

/-- A bare acknowledgment while nothing is under way. -/
theorem missing_segment_read :
    ¬ ∀ (c₀ : Conn Deadline) (es : List Event), OpenedOk c₀ → (∀ e ∈ es, e.AllocOk) →
      (Machine.tryRun readStep c₀ es).isSome = true := by
  intro h
  let es : List Event :=
    [.received (.working 8) (peerSegment 300 8 (segFlagSyn ||| segFlagAck) []),
      .received (.working 9) (peerSegment 301 8 segFlagAck [65])]
  have hes : ∀ e ∈ es, e.AllocOk := by
    intro e he
    simp only [es, List.mem_cons, List.not_mem_nil, or_false] at he
    rcases he with rfl | rfl <;> exact Env.allocOk_working _
  have hrun := h (sampleConn 7 (some samplePeer)) es (openedOk_sampleConn 7 _) hes
  revert hrun
  decide

end Tcp
end DtsNet
