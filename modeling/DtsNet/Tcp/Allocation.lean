import DtsNet.Tcp.Endpoint

/-!
# Allocation — text and failing allocations

The text that a connection holds is in `tx_seg` and in `tx_data`.  `tcp_construct_data` takes a
block out of `tx_data` before it allocates the segment that is to carry it, so a failing `malloc`
loses the block; and `tcp_send` reports the size it was given where the block holds that size modulo
`2^16`.  Apart from these two, whatever else fails, the accepted bytes are those that were
acknowledged and those that are held.
-/

namespace DtsNet
namespace Tcp

open Ip Dblk

variable {τ : Type}

/-! ## The text held by a connection -/

/-- The stream of bytes waiting to be sent or acknowledged. -/
def heldBytes (t : Tcb τ) : List Byte :=
  pendingBytes t ++ waitingBytes t

theorem heldBytes_of_none {t : Tcb τ} (h : t.txSeg = none) : heldBytes t = waitingBytes t := by
  simp [heldBytes, pendingBytes, h]

theorem SendFrame.heldBytes_eq {c c' : Conn τ} (h : SendFrame c c') :
    heldBytes c'.tcp = heldBytes c.tcp := by
  rw [heldBytes, heldBytes, h.pendingBytes_eq, waitingBytes, waitingBytes, h.txData]

/-- The next block has text, and the segment that is to carry it cannot be allocated. -/
def LosesBlock (env : Env) (c : Conn τ) : Prop :=
  c.tcp.txSeg = none ∧ (Block.bytes (c.tcp.txData.headD [])) ≠ [] ∧
    env.malloc .dataSegment c.log = false

instance (env : Env) (c : Conn τ) : Decidable (LosesBlock env c) :=
  inferInstanceAs (Decidable (_ ∧ _ ∧ _))

/-! ## `tcp_construct_data` with and without memory -/

variable [TimerLib τ]

section Construct

variable (env : Env) {c : Conn τ} {tx : Block} {rest : List Block}

theorem tcpConstructData_of_malloc (hs : c.tcp.txSeg = none) (hd : c.tcp.txData = tx :: rest)
    (hmem : env.malloc .dataSegment c.log = true) :
    (tcpConstructData env c).tcp =
        { c.tcp with
          txData := rest
          txSeg := some (packTxSegment (env.malloc .dataHeader c.log) (dataSegment c.tcp tx))
          snd.nxt := c.tcp.snd.nxt + UInt32.ofNat tx.bytes.length
          tmr := TimerLib.start c.tcp.tmr env.now 3 } ∧
      ∃ dg sent, (tcpConstructData env c).log =
        c.log ++ [.built (dataSegment c.tcp tx), .output dg sent] := by
  have hlen : tcpSegmentLength (dataSegment c.tcp tx) = tx.bytes.length :=
    tcpSegmentLength_of_flags_ack rfl
  constructor
  · simp [tcpConstructData, hs, hd, hmem, dataSegment, newSegment]
    exact congrArg UInt32.ofNat hlen
  · simp [tcpConstructData, hs, hd, hmem, tcpIpSend_log, dataSegment, newSegment]

theorem tcpConstructData_of_no_malloc (hs : c.tcp.txSeg = none) (hd : c.tcp.txData = tx :: rest)
    (hmem : env.malloc .dataSegment c.log = false) :
    tcpConstructData env c = { c with tcp.txData := rest } := by
  simp [tcpConstructData, hs, hd, hmem]

end Construct

/-- What `tcp_construct_data` does not hold any more was the next block. -/
theorem heldBytes_tcpConstructData (env : Env) (c : Conn τ) :
    heldBytes c.tcp = (if LosesBlock env c then Block.bytes (c.tcp.txData.headD []) else []) ++
      heldBytes (tcpConstructData env c).tcp := by
  cases hs : c.tcp.txSeg with
  | some s =>
      simp [LosesBlock, hs, tcpConstructData_of_pending env c hs]
  | none =>
      cases hd : c.tcp.txData with
      | nil =>
          simp [LosesBlock, hs, hd, Block.bytes, tcpConstructData_of_empty env c hd]
      | cons tx rest =>
          cases hmem : env.malloc .dataSegment c.log with
          | true =>
              rw [(tcpConstructData_of_malloc env hs hd hmem).1]
              simp [LosesBlock, hmem, heldBytes, pendingBytes, waitingBytes, hs, hd, dataSegment]
          | false =>
              rw [tcpConstructData_of_no_malloc env hs hd hmem]
              by_cases htx : tx.bytes = []
              · simp [LosesBlock, hs, hd, htx, heldBytes, pendingBytes, waitingBytes]
              · simp [LosesBlock, hs, hd, hmem, htx, heldBytes, pendingBytes, waitingBytes]

theorem heldBytes_tcpConstructData_of {env : Env} {c : Conn τ} (h : ¬ LosesBlock env c) :
    heldBytes (tcpConstructData env c).tcp = heldBytes c.tcp := by
  have heq := heldBytes_tcpConstructData env c
  rw [if_neg h] at heq
  simpa using heq.symm

theorem length_heldBytes_tcpConstructData (env : Env) (c : Conn τ) :
    (heldBytes (tcpConstructData env c).tcp).length ≤ (heldBytes c.tcp).length ∧
      (LosesBlock env c →
        (heldBytes (tcpConstructData env c).tcp).length < (heldBytes c.tcp).length) := by
  have heq := congrArg List.length (heldBytes_tcpConstructData env c)
  rw [List.length_append] at heq
  refine ⟨by omega, fun h => ?_⟩
  have hpos := List.length_pos_iff.2 h.2.1
  rw [if_pos h] at heq
  omega

/-- A call leaves the queue, `tx_seg`, `snd` and the timer alone, or moves the next block into a
segment that is packed and ready to be sent. -/
def AllOrNothing (c c' : Conn τ) : Prop :=
  (c'.tcp.txData = c.tcp.txData ∧ c'.tcp.txSeg = c.tcp.txSeg ∧ c'.tcp.snd = c.tcp.snd ∧
      c'.tcp.tmr = c.tcp.tmr) ∨
    ∃ tx seg, c.tcp.txData = tx :: c'.tcp.txData ∧ c'.tcp.txSeg = some seg ∧
      seg.payload = tx.bytes ∧ seg.rawData = some seg.toSegment ∧
      c'.tcp.snd = { c.tcp.snd with nxt := c.tcp.snd.nxt + UInt32.ofNat tx.bytes.length }

theorem allOrNothing_tcpConstructData_iff (env : Env) (c : Conn τ) :
    AllOrNothing c (tcpConstructData env c) ↔ (c.tcp.txSeg = none → c.tcp.txData ≠ [] →
      env.malloc .dataSegment c.log = true ∧ env.malloc .dataHeader c.log = true) := by
  cases hs : c.tcp.txSeg with
  | some s =>
      simp [AllOrNothing, tcpConstructData_of_pending env c hs]
  | none =>
      cases hd : c.tcp.txData with
      | nil =>
          simp [AllOrNothing, tcpConstructData_of_empty env c hd]
      | cons tx rest =>
          cases hmem : env.malloc .dataSegment c.log with
          | false =>
              rw [tcpConstructData_of_no_malloc env hs hd hmem]
              simp [AllOrNothing, hs, hd]
          | true =>
              -- without a header buffer the segment is there, but nothing is packed
              rcases tcpConstructData_of_malloc env hs hd hmem with ⟨htcp, _⟩
              cases hhdr : env.malloc .dataHeader c.log <;>
                simp [AllOrNothing, htcp, hs, hd, hhdr, packTxSegment, tcpPack, dataSegment]

/-! ## `tcp_send` -/

/-- The connection on which `tcp_send` calls `tcp_construct_data`. -/
def sendQueued (env : Env) (c : Conn τ) (data : List Byte) : Conn τ :=
  if env.malloc .txBlock c.log then acceptData c data else c

/-- The result `r` of `tcp_send` says how many bytes were added, all of them or none. -/
def SendReports (c : Conn τ) (data : List Byte) (r : Conn τ × ℕ) : Prop :=
  heldBytes r.1.tcp = heldBytes c.tcp ++ data.take r.2 ∧ (r.2 = data.length ∨ r.2 = 0)

/-- If a block for the buffer can be allocated, its size fits the 16 bits of a node; and the next
block is not lost. -/
def SendKeeps (env : Env) (c : Conn τ) (data : List Byte) : Prop :=
  (env.malloc .txBlock c.log = true → data.length < 65536) ∧
    ¬ LosesBlock env (sendQueued env c data)

instance (env : Env) (c : Conn τ) (data : List Byte) : Decidable (SendKeeps env c data) :=
  inferInstanceAs (Decidable (_ ∧ _))

omit [TimerLib τ] in
theorem heldBytes_acceptData (c : Conn τ) (data : List Byte) :
    heldBytes (acceptData c data).tcp = heldBytes c.tcp ++ data.take (data.length % 65536) := by
  have hread : memRead data (data.length % 65536) = data.take (data.length % 65536) :=
    memRead_eq_take (Nat.mod_le _ _)
  have hpending : pendingBytes (acceptData c data).tcp = pendingBytes c.tcp := rfl
  have hwaiting : waitingBytes (acceptData c data).tcp =
      waitingBytes c.tcp ++ data.take (data.length % 65536) := by
    simp [waitingBytes, acceptData, dblkCopyFrom_new, Block.bytes, hread]
  rw [heldBytes, heldBytes, hpending, hwaiting, List.append_assoc]

theorem tcpSend_eq_of_established (env : Env) {c : Conn τ} (hst : c.tcp.state = .established)
    (data : List Byte) :
    tcpSend env c data = (tcpConstructData env (sendQueued env c data),
      if env.malloc .txBlock c.log then data.length else 0) := by
  cases hmem : env.malloc .txBlock c.log <;>
    simp [tcpSend, hst, sendEventProcess, sendWhenEstablished, sendQueued, hmem, acceptData]

/-- For every ESTABLISHED connection and every buffer: the result of `tcp_send` is true exactly if
`SendKeeps` holds. -/
theorem sendReports_iff_sendKeeps (env : Env) {c : Conn τ} (hst : c.tcp.state = .established)
    (data : List Byte) :
    SendReports c data (tcpSend env c data) ↔ SendKeeps env c data := by
  rw [tcpSend_eq_of_established env hst]
  rcases length_heldBytes_tcpConstructData env (sendQueued env c data) with ⟨hle, hlt⟩
  cases hmem : env.malloc .txBlock c.log with
  | false =>
      have hqueued : sendQueued env c data = c := by
        simp [sendQueued, hmem]
      rw [hqueued] at hle hlt
      simp only [SendReports, SendKeeps, hqueued, hmem, Bool.false_eq_true, if_false, false_imp_iff,
        true_and, or_true, and_true, List.take_zero, List.append_nil]
      constructor
      · intro h hloses
        have := hlt hloses
        rw [h] at this
        exact Nat.lt_irrefl _ this
      · exact heldBytes_tcpConstructData_of
  | true =>
      have hqueued : sendQueued env c data = acceptData c data := by
        simp [sendQueued, hmem]
      have hmod : data.length % 65536 ≤ data.length := Nat.mod_le _ _
      have hheld := congrArg List.length (heldBytes_acceptData c data)
      rw [List.length_append, List.length_take] at hheld
      rw [hqueued] at hle hlt
      simp only [SendReports, SendKeeps, hqueued, hmem, if_true, true_or, and_true,
        forall_const, List.take_length]
      constructor
      · intro h
        -- the reported bytes are the queued ones only if both lengths agree
        have hlen := congrArg List.length h
        rw [List.length_append] at hlen
        refine ⟨by omega, fun hloses => ?_⟩
        have := hlt hloses
        omega
      · rintro ⟨hsize, hkeeps⟩
        rw [heldBytes_tcpConstructData_of hkeeps, heldBytes_acceptData, Nat.mod_eq_of_lt hsize,
          List.take_length]

/-- Three bytes given to `tcp_send` of an established connection. -/
theorem sendReports_iff_sendKeeps_sample :
    let c := runConn (sampleConn 100 (some samplePeer))
      [.received (.working 101) (peerSegment 700 101 (segFlagSyn ||| segFlagAck) [])]
    SendReports c [1, 2, 3] (tcpSend (.working 102) c [1, 2, 3]) := by
  have hst : (runConn (sampleConn 100 (some samplePeer))
      [.received (.working 101) (peerSegment 700 101 (segFlagSyn ||| segFlagAck) [])]).tcp.state =
      .established := by
    decide
  exact (sendReports_iff_sendKeeps (.working 102) hst [1, 2, 3]).2 (by decide)

/-- A buffer of `2^16` bytes is reported and nothing is queued, and three bytes are reported and
lost where the segment record is missing. -/
theorem sendReports_fails_sample :
    let c := runConn (sampleConn 100 (some samplePeer))
      [.received (.working 101) (peerSegment 700 101 (segFlagSyn ||| segFlagAck) [])]
    let env : Env := { Env.working 102 with malloc := fun a _ => a != .dataSegment }
    let data := List.replicate 65536 (7 : Byte)
    c.tcp.state = .established ∧ ¬ SendReports c data (tcpSend (.working 102) c data) ∧
      ¬ SendReports c [1, 2, 3] (tcpSend env c [1, 2, 3]) := by
  intro c env data
  have hst : c.tcp.state = .established := by decide
  have hheld : heldBytes c.tcp = [] := by decide
  refine ⟨hst, ?_, ?_⟩
  · rintro ⟨hsent, _⟩
    have hdata : data.length = 65536 := List.length_replicate
    have hqueued : sendQueued (.working 102) c data = acceptData c data := rfl
    have hle := (length_heldBytes_tcpConstructData (.working 102) (acceptData c data)).1
    rw [heldBytes_acceptData, hheld, hdata] at hle
    have hmalloc : (Env.working 102).malloc .txBlock c.log = true := rfl
    rw [tcpSend_eq_of_established _ hst, hqueued, hmalloc, hheld] at hsent
    have hlen := congrArg List.length hsent
    simp [hdata] at hlen hle
    rw [hle] at hlen
    exact absurd hlen (by decide)
  · rintro ⟨hsent, _⟩
    exact absurd hsent (by decide)

/-! ## The ledger of a run -/

/-- The text that was acknowledged, by an acknowledgment of everything sent. -/
def acknowledgedBytes (log : List Action) : List Byte :=
  log.flatMap fun
    | .completed seg ack nxt => if ack = nxt then seg.payload else []
    | _ => []

omit [TimerLib τ] in
@[simp] theorem acknowledgedBytes_append (l m : List Action) :
    acknowledgedBytes (l ++ m) = acknowledgedBytes l ++ acknowledgedBytes m := by
  simp [acknowledgedBytes]

omit [TimerLib τ] in
theorem acknowledgedBytes_of_neutral {l : List Action} (h : ∀ a ∈ l, a.Neutral) :
    acknowledgedBytes l = [] := by
  rw [acknowledgedBytes, List.flatMap_eq_nil_iff]
  intro a ha
  have := h a ha
  cases a <;> simp_all [Action.Neutral]

/-- Every accepted byte is acknowledged or held, in this order.  A SYN or a FIN carries no text, so
no text goes with it. -/
structure Conserves (c : Conn τ) : Prop where
  ledger : acceptedBytes c.log = acknowledgedBytes c.log ++ heldBytes c.tcp
  control : ∀ s, c.tcp.txSeg = some s → c.tcp.state = .synSent ∨ segCtrlF s.toSegment = true →
    s.payload = []

omit [TimerLib τ] in
theorem Conserves.of_frame {c c' : Conn τ} (h : Conserves c) (hframe : SendFrame c c')
    (hstate : c'.tcp.state = .synSent → c.tcp.state = .synSent) : Conserves c' := by
  rcases hframe.log with ⟨l, hlog, hl⟩
  refine ⟨?_, ?_⟩
  · rw [hframe.acceptedBytes_eq, hframe.heldBytes_eq, h.ledger, hlog, acknowledgedBytes_append,
      acknowledgedBytes_of_neutral hl, List.append_nil]
  · intro s' hs' hctrl
    rcases hframe.exists_of_some hs' with ⟨s, hs, hid⟩
    rw [Segment.payload_of_identity hid]
    refine h.control s hs (hctrl.imp hstate fun hF => ?_)
    rwa [segCtrlF, Segment.flags_of_identity hid] at hF

omit [TimerLib τ] in
theorem Conserves.setState {c : Conn τ} (h : Conserves c) {st : State} (hst : st ≠ .synSent) :
    Conserves { c with tcp.state := st } :=
  h.of_frame (sendFrame_setState c st) fun hst' => absurd hst' hst

section Moves

variable {env : Env} {c : Conn τ}

theorem conserves_tcpConstructData (h : Conserves c) (hst : c.tcp.state ≠ .synSent)
    (hkeeps : ¬ LosesBlock env c) : Conserves (tcpConstructData env c) := by
  have hheld := heldBytes_tcpConstructData_of hkeeps
  rcases tcpConstructData_cases env c with heq | ⟨tx, rest, hs, hd⟩
  · rwa [heq]
  · cases hmem : env.malloc .dataSegment c.log with
    | true =>
        rcases tcpConstructData_of_malloc env hs hd hmem with ⟨htcp, dg, sent, hlog⟩
        refine ⟨?_, ?_⟩
        · rw [hheld, hlog, acceptedBytes_append, acknowledgedBytes_append]
          simpa [acceptedBytes, acknowledgedBytes] using h.ledger
        · intro s' hs' hctrl
          rw [htcp] at hs' hctrl
          cases hs'
          -- a data segment has no FIN
          rcases hctrl with hst' | hF
          · exact absurd hst' hst
          · have hnot := (@ctrl_of_flags_ack (dataSegment c.tcp tx) rfl).2.2.2
            rw [packTxSegment_toSegment, hnot] at hF
            cases hF
    | false =>
        rw [tcpConstructData_of_no_malloc env hs hd hmem] at hheld ⊢
        exact ⟨by rw [hheld]; exact h.ledger, fun s' hs' => absurd hs' (by simp [hs])⟩

theorem conserves_tcpContructFinAck (h : Conserves c) : Conserves (tcpContructFinAck env c) := by
  rcases tcpContructFinAck_cases env c with heq | ⟨hs, hd, hmem⟩
  · rwa [heq]
  · have hnone : heldBytes c.tcp = [] := by
      simp [heldBytes_of_none hs, waitingBytes, hd]
    have hledger := h.ledger
    rw [hnone] at hledger
    refine ⟨?_, ?_⟩
    · simpa [tcpContructFinAck, hs, hd, hmem, heldBytes, pendingBytes, waitingBytes,
        acceptedBytes, acknowledgedBytes, packTxSegment] using hledger
    · intro s' hs' _
      have hpayload : ∀ s, (tcpContructFinAck env c).tcp.txSeg = some s →
          s.payload = [] := by
        simp [tcpContructFinAck, hs, hd, hmem, packTxSegment]
      exact hpayload s' hs'

/-- What is released is acknowledged, or a control segment. -/
theorem conserves_tcpTxSegComplete (h : Conserves c) {ack : UInt32}
    (hack : ∀ s, c.tcp.txSeg = some s → ack = c.tcp.snd.nxt ∨ s.payload = []) :
    Conserves (tcpTxSegComplete c ack) := by
  cases hs : c.tcp.txSeg with
  | none =>
      have hsame : tcpTxSegComplete c ack = c := by
        simp [tcpTxSegComplete, hs]
      rwa [hsame]
  | some s =>
      have hledger := h.ledger
      rw [tcpTxSegComplete_some c hs]
      refine ⟨?_, fun s' hs' => absurd hs' (by simp)⟩
      rcases hack s hs with hnxt | htext
      · simpa [heldBytes, pendingBytes, waitingBytes, acceptedBytes, acknowledgedBytes, hs, hnxt]
          using hledger
      · simpa [heldBytes, pendingBytes, waitingBytes, acceptedBytes, acknowledgedBytes, hs, htext]
          using hledger

theorem conserves_ackedConn (h : Conserves c) {s : TxSegment} (hs : c.tcp.txSeg = some s) :
    Conserves (ackedConn c s) := by
  have hdone : Conserves (tcpTxSegComplete c c.tcp.snd.nxt) :=
    conserves_tcpTxSegComplete h fun _ _ => Or.inl rfl
  rw [tcpTxSegComplete_some c hs] at hdone
  exact ⟨hdone.ledger, hdone.control⟩

end Moves

/-! ## One event -/

/-- The segment acknowledges the data segment `s` in `tx_seg`, and the handler looks at it. -/
def TakesAck (t : Tcb τ) (seg : Received) (s : TxSegment) : Prop :=
  segCtrlA seg.toSegment = true ∧ segCtrlF s.toSegment = false ∧ ackCompletes t seg.ack = true ∧
    match t.state with
    | .established => seqAccepted t seg.toSegment = true ∧ segCtrlR seg.toSegment = false
    | .finWait1 | .lastAck => True
    | _ => False

/-- Where the event calls `tcp_construct_data`, no block is lost, and `tcp_send` is not given more
than a block holds. -/
def KeepsText (c : Conn τ) : Event → Prop
  | .received env seg => ∀ s, c.tcp.txSeg = some s → TakesAck c.tcp seg s →
      ¬ LosesBlock env (ackedConn c s)
  | .send env data => c.tcp.state = .established → SendKeeps env c data
  | _ => True

section Events

variable {env : Env} {c : Conn τ}

theorem conserves_synAckReply (h : Conserves c) (hst : c.tcp.state = .synSent) (seg : Received) :
    Conserves (synAckReply env c seg) := by
  have htaken : ∀ {c' : Conn τ}, c'.tcp.txSeg = c.tcp.txSeg → c'.tcp.txData = c.tcp.txData →
      c'.tcp.passive = c.tcp.passive → (c'.log = c.log ∨ ∃ a, c'.log = c.log ++ [a] ∧ a.Neutral) →
      Conserves c' := by
    intro c' hseg hdata hpassive hlog
    refine h.of_frame ?_ fun _ => hst
    rcases hlog with hlog | ⟨a, hlog, ha⟩
    · exact .of_log hpassive hdata hseg hlog
    · exact .of_concat hpassive hdata hseg hlog ha
  rcases synAckReply_cases env c seg with ⟨_, htcp, hlog⟩ | ⟨_, _, hest⟩
  · refine htaken (by rw [htcp, takeSynAck]) (by rw [htcp, takeSynAck]) (by rw [htcp, takeSynAck]) ?_
    rcases hlog with hlog | ⟨dg, _, hlog⟩
    · exact Or.inl hlog
    · exact Or.inr ⟨_, hlog, trivial⟩
  · rw [hest]
    refine conserves_tcpTxSegComplete ?_ fun s hs => Or.inr (h.control s hs (Or.inl hst))
    exact htaken rfl rfl rfl (Or.inr ⟨_, tcpSendCtrlSeg_log env _ _ _ _, trivial⟩)

theorem conserves_receivedWhenSynSent (h : Conserves c) (hst : c.tcp.state = .synSent)
    (seg : Received) : Conserves (receivedWhenSynSent env c seg) := by
  rcases receivedWhenSynSent_cases env c seg with heq | ⟨_, _, _, heq⟩ | ⟨_, _, heq⟩
  · rwa [heq]
  · rw [heq]
    exact h.of_frame (sendFrame_tcpSendCtrlSeg_rst env c _ _) fun _ => hst
  · rcases heq with ⟨_, heq⟩ | ⟨_, _, _, heq⟩
    · rw [heq]
      exact h.setState (by simp)
    · rw [heq]
      exact conserves_synAckReply h hst seg

theorem conserves_receivedWhenEstablished (h : Conserves c) (hst : c.tcp.state = .established)
    {seg : Received} (hkeeps : KeepsText c (.received env seg)) :
    Conserves (receivedWhenEstablished env c seg) := by
  cases hacc : seqAccepted c.tcp seg.toSegment with
  | false =>
      rw [receivedWhenEstablished_of_rejected env c hacc]
      exact h.of_frame (sendFrame_processReceivedSeq env c seg) fun h => by simpa using h
  | true =>
      by_cases hRA : segCtrlR seg.toSegment = true ∨ segCtrlA seg.toSegment = false
      · rwa [receivedWhenEstablished_of_ignored env c hacc hRA]
      · rw [not_or, Bool.not_eq_true, Bool.not_eq_false] at hRA
        have hack : Conserves (ackEstablished env c seg) := by
          rcases ackEstablished_cases env c seg with ⟨heq, _⟩ | ⟨s, hs, hF, hcompletes, heq⟩
          · rwa [heq]
          · rw [heq]
            refine conserves_tcpConstructData (conserves_ackedConn h hs) (by simp [ackedConn, hst]) ?_
            refine hkeeps s hs ⟨hRA.2, hF, hcompletes, ?_⟩
            rw [hst]
            exact ⟨hacc, hRA.1⟩
        have htext : Conserves (textEstablished env c seg) :=
          hack.of_frame (sendFrame_tcpHandleData env _ seg) fun h => by
            rwa [textEstablished, tcpHandleData_state] at h
        rw [receivedWhenEstablished_of_ack env c hacc hRA.1 hRA.2]
        split
        · have hfin := htext.of_frame (sendFrame_tcpHandleFinAck env _ seg) fun h => by simpa using h
          exact hfin.setState (by simp)
        · exact htext

/-- FIN_WAIT_1 and LAST_ACK. -/
theorem conserves_ackWhenClosing (h : Conserves c)
    (hst : c.tcp.state = .finWait1 ∨ c.tcp.state = .lastAck) {seg : Received} {next : State}
    (hnext : next ≠ .synSent) (hkeeps : KeepsText c (.received env seg)) :
    Conserves (ackWhenClosing env c seg next) := by
  rcases ackWhenClosing_cases env c seg next with heq | ⟨s, hs, hF, _, _, heq⟩ |
    ⟨s, hs, hF, hA, hcompletes, heq⟩
  · rwa [heq]
  · rw [heq]
    refine (conserves_tcpTxSegComplete h fun s' hs' => Or.inr ?_).setState hnext
    rw [hs] at hs'
    cases hs'
    exact h.control s hs (Or.inr hF)
  · rw [heq]
    have hne : c.tcp.state ≠ .synSent := by
      rcases hst with hst | hst <;> simp [hst]
    refine conserves_tcpConstructData (conserves_ackedConn h hs) hne ?_
    refine hkeeps s hs ⟨hA, hF, hcompletes, ?_⟩
    rcases hst with hst | hst <;> simp [hst]

theorem conserves_tcpReceived (h : Conserves c) {seg : Received}
    (hkeeps : KeepsText c (.received env seg)) : Conserves (tcpReceived env c seg) := by
  have hfin : ∀ {c' : Conn τ}, Conserves c' → Conserves (tcpHandleFinAck env c' seg).1 :=
    fun hc' => hc'.of_frame (sendFrame_tcpHandleFinAck env _ seg) fun h => by simpa using h
  cases hst : c.tcp.state with
  | listen =>
      have hlisten := receivedWhenListen_state env c hst seg
      simp only [tcpReceived, hst, receivedEventProcess]
      refine h.of_frame (sendFrame_receivedWhenListen env c seg) fun hsyn => ?_
      simp [hsyn] at hlisten
  | synSent =>
      simpa only [tcpReceived, hst, receivedEventProcess] using
        conserves_receivedWhenSynSent h hst seg
  | synReceived =>
      have hfollows := receivedWhenSynReceived_state env c hst seg
      simp only [tcpReceived, hst, receivedEventProcess]
      refine h.of_frame (sendFrame_receivedWhenSynReceived env c seg) fun hsyn => ?_
      simp [hsyn, follows] at hfollows
  | established =>
      simpa only [tcpReceived, hst, receivedEventProcess] using
        conserves_receivedWhenEstablished h hst hkeeps
  | finWait1 =>
      have hack : Conserves (ackWhenClosing env c seg .finWait2) :=
        conserves_ackWhenClosing h (Or.inl hst) (by simp) hkeeps
      simp only [tcpReceived, hst, receivedEventProcess, receivedWhenFinWait1]
      split
      · exact conserves_tcpContructFinAck hack
      · exact hack
  | lastAck =>
      have hack : Conserves (ackWhenClosing env c seg .closed) :=
        conserves_ackWhenClosing h (Or.inr hst) (by simp) hkeeps
      simp only [tcpReceived, hst, receivedEventProcess, receivedWhenLastAck]
      split
      · exact conserves_tcpContructFinAck hack
      · exact hack
  | finWait2 =>
      simp only [tcpReceived, hst, receivedEventProcess, receivedWhenFinWait2]
      split
      · exact hfin (h.of_frame (.of_log rfl rfl rfl rfl) (by simp))
      · exact h
  | timeWait | closeWait =>
      simp only [tcpReceived, hst, receivedEventProcess, receivedWhenTimeWait,
        receivedWhenCloseWait]
      split
      · exact hfin h
      · exact h
  | closing | closed =>
      simpa only [tcpReceived, hst, receivedEventProcess] using h

theorem conserves_tcpSend (h : Conserves c) {data : List Byte}
    (hkeeps : KeepsText c (.send env data)) : Conserves (tcpSend env c data).1 := by
  by_cases hst : c.tcp.state = .established
  · rw [tcpSend_eq_of_established env hst]
    have hqueued : Conserves (sendQueued env c data) := by
      cases hmem : env.malloc .txBlock c.log with
      | false =>
          simpa [sendQueued, hmem] using h
      | true =>
          have hsize := (hkeeps hst).1 hmem
          have hheld := heldBytes_acceptData c data
          rw [Nat.mod_eq_of_lt hsize, List.take_length] at hheld
          rw [sendQueued, hmem, if_pos rfl]
          have haccepted : acceptedBytes (acceptData c data).log = acceptedBytes c.log ++ data := by
            simp [acceptData, acceptedBytes]
          have hacked : acknowledgedBytes (acceptData c data).log = acknowledgedBytes c.log := by
            simp [acceptData, acknowledgedBytes]
          refine ⟨?_, h.control⟩
          rw [haccepted, hacked, hheld, h.ledger, List.append_assoc]
    refine conserves_tcpConstructData hqueued ?_ (hkeeps hst).2
    cases hmem : env.malloc .txBlock c.log <;> simp [sendQueued, hmem, acceptData, hst]
  · rwa [tcpSend_of_not env c hst]

theorem conserves_step (h : Conserves c) {e : Event} (hkeeps : KeepsText c e) :
    Conserves (step c e) := by
  cases e with
  | received env seg =>
      exact conserves_tcpReceived h hkeeps
  | send env data =>
      exact conserves_tcpSend h hkeeps
  | recv data size =>
      refine h.of_frame (sendFrame_recvEvent c data size) fun hst => ?_
      rwa [step, recvEvent_state] at hst
  | close env =>
      rcases tcpClose_cases env c with ⟨hst, heq⟩ | heq
      · rw [step, heq]
        refine (conserves_tcpContructFinAck h).setState ?_
        rcases hst with hst | hst <;> simp [hst, closeState]
      · rwa [step, heq]
  | loop env =>
      have hstop : Conserves (stopTimer c) := h.of_frame (sendFrame_stopTimer c) fun hst => hst
      rcases tcpLoopVisit_cases env c with heq | ⟨_, heq⟩ | ⟨_, heq⟩ | ⟨_, _, heq⟩
      · rwa [step, heq]
      · rw [step, heq]
        refine hstop.of_frame (sendFrame_tcpRetransmit env _) fun hst => ?_
        rwa [tcpRetransmit_tcp] at hst
      · rw [step, heq]
        exact hstop.setState (by simp)
      · rwa [step, heq]

end Events

/-! ## Runs -/

theorem conserves_opened {c : Conn τ} (h : Opened c) : Conserves c := by
  rcases h with ⟨env, ip, port, dest, destPort, h⟩
  cases dest with
  | none =>
      rw [tcpOpenConn_passive] at h
      cases h
      exact ⟨rfl, fun s hs => by cases hs⟩
  | some dest =>
      have hc := tcpOpenConn_some env h
      subst hc
      -- the SYN has no text, and `tcp_retransmit` sends it only
      have hopened : ∀ cb : Conn τ, acceptedBytes cb.log = acknowledgedBytes cb.log →
          cb.tcp.txData = [] → (∀ s, cb.tcp.txSeg = some s → s.payload = []) →
          Conserves { tcpRetransmit env cb with tcp.state := .synSent } := by
        intro cb hlog hdata hsyn
        have hframe := (sendFrame_tcpRetransmit env cb).trans (sendFrame_setState _ .synSent)
        have hheld : heldBytes cb.tcp = [] := by
          cases hs : cb.tcp.txSeg with
          | none =>
              simp [heldBytes, pendingBytes, waitingBytes, hs, hdata]
          | some s =>
              simp [heldBytes, pendingBytes, waitingBytes, hs, hdata, hsyn s hs]
        refine Conserves.of_frame (c := { cb with tcp.state := .synSent }) ?_ ?_ fun _ => rfl
        · exact ⟨by rw [hlog]; simpa [heldBytes, pendingBytes, waitingBytes] using hheld,
            fun s hs _ => hsyn s hs⟩
        · exact ⟨hframe.passive, hframe.txData, hframe.txSeg, hframe.rawData, hframe.log⟩
      exact hopened _ rfl rfl (by rintro s ⟨⟩; rfl)

/-- In a run whose events keep text, the accepted bytes are those that were acknowledged and those
that are held, whatever allocations fail. -/
theorem conserves_runConn {c₀ : Conn τ} (hopen : Opened c₀) {es : List Event}
    (h : Machine.Along step KeepsText c₀ es) : Conserves (runConn c₀ es) := by
  have hstep : ∀ (c : Conn τ) (e : Event), Conserves c → KeepsText c e → Conserves (step c e) :=
    fun c e hc hkeeps => conserves_step hc hkeeps
  exact Machine.run_invariant step hstep (conserves_opened hopen) h

/-- `tcp_construct_data` does all of its work or nothing exactly if the two allocations succeed
where it makes them, and a run whose events keep text loses none. -/
theorem keeps_queued_text :
    (∀ (env : Env) (c : Conn τ), AllOrNothing c (tcpConstructData env c) ↔
      (c.tcp.txSeg = none → c.tcp.txData ≠ [] →
        env.malloc .dataSegment c.log = true ∧ env.malloc .dataHeader c.log = true)) ∧
    ∀ (c₀ : Conn τ) (es : List Event), Opened c₀ → Machine.Along step KeepsText c₀ es →
      acceptedBytes (runConn c₀ es).log =
        acknowledgedBytes (runConn c₀ es).log ++ heldBytes (runConn c₀ es).tcp :=
  ⟨allOrNothing_tcpConstructData_iff, fun _ _ hopen h => (conserves_runConn hopen h).ledger⟩

/-- The opened connection of a run in which the receive block of the peer's text is missing, and
three bytes are accepted and acknowledged. -/
theorem keeps_queued_text_sample :
    let noBlock : Env := { Env.working 104 with malloc := fun a _ => a != .rxBlock }
    let es : List Event :=
      [.received (.working 101) (peerSegment 700 101 (segFlagSyn ||| segFlagAck) []),
        .send (.working 102) [1, 2, 3],
        .received noBlock (peerSegment 701 104 segFlagAck [9])]
    acceptedBytes (runConn (sampleConn 100 (some samplePeer)) es).log =
      acknowledgedBytes (runConn (sampleConn 100 (some samplePeer)) es).log ++
        heldBytes (runConn (sampleConn 100 (some samplePeer)) es).tcp := by
  intro noBlock es
  refine keeps_queued_text.2 _ _ (opened_sampleConn _ _) ⟨?_, ?_, ?_, trivial⟩
  · intro s hs htakes
    exact absurd htakes.2.2.2 (by simp [sampleConn, tcpOpenConn, openWhenClosed, tcpNew])
  · intro _
    decide
  · -- nothing waits behind the acknowledged segment
    intro s hs htakes hloses
    exact hloses.2.1 rfl

/-- Where the segment record is missing, the block is neither in the queue nor in `tx_seg`, and the
three accepted bytes are gone. -/
theorem keeps_queued_text_fails_sample :
    let c := runConn (sampleConn 100 (some samplePeer))
      [.received (.working 101) (peerSegment 700 101 (segFlagSyn ||| segFlagAck) [])]
    let noSegment : Env := { Env.working 102 with malloc := fun a _ => a != .dataSegment }
    ¬ AllOrNothing (acceptData c [1, 2, 3])
        (tcpConstructData noSegment (acceptData c [1, 2, 3])) ∧
      acceptedBytes (step c (.send noSegment [1, 2, 3])).log = [1, 2, 3] ∧
      acknowledgedBytes (step c (.send noSegment [1, 2, 3])).log ++
        heldBytes (step c (.send noSegment [1, 2, 3])).tcp = [] := by
  intro c noSegment
  refine ⟨?_, by decide, by decide⟩
  intro h
  have hmem := (allOrNothing_tcpConstructData_iff noSegment (acceptData c [1, 2, 3])).1 h
    (by decide) (by decide)
  exact absurd hmem.1 (by decide)

end Tcp
end DtsNet
