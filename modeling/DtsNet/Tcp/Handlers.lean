import DtsNet.Tcp.Frame

/-!
# Handlers — what each handler of an arriving segment can do

One lemma for each way through a handler, in terms of the routines it calls.  A proof about all
events splits along these and then uses the lemmas of `Spec` and `Frame` for the routines.
-/

namespace DtsNet
namespace Tcp

open Ip Dblk

variable {τ : Type} (env : Env) (c : Conn τ)

/-! ## LISTEN -/

/-- The control block after `received_when_listen` took a SYN. -/
def takeSyn (t : Tcb τ) (seg : Received) : Tcb τ :=
  { t with
    rcv := { t.rcv with nxt := seg.seq + 1, irs := seg.seq }
    destPort := seg.srcPort
    dest := seg.src }

/-- The answer of `received_when_listen` to a SYN. -/
def synReply (seg : Received) : Conn τ :=
  let r := tcpSendCtrlSeg env { c with tcp := takeSyn c.tcp seg } c.tcp.snd.iss (seg.seq + 1)
    (segFlagSyn ||| segFlagAck)
  if r.2 then { r.1 with tcp.state := .synReceived } else r.1

theorem synReply_tcp (seg : Received) :
    (synReply env c seg).tcp =
      if env.ipHlSend c.log then
        { takeSyn c.tcp seg with
          snd.nxt := c.tcp.snd.nxt + 1
          state := .synReceived }
      else takeSyn c.tcp seg := by
  cases h : env.ipHlSend c.log with
  | true =>
      simp [synReply, tcpSendCtrlSeg_ok, tcpSendCtrlSeg_synAck_tcp, takeSyn, h]
  | false =>
      simp [synReply, tcpSendCtrlSeg_ok, tcpSendCtrlSeg_synAck_tcp, takeSyn, h]

theorem synReply_log (seg : Received) :
    (synReply env c seg).log =
      c.log ++ [.output (some (connDatagram (takeSyn c.tcp seg) (newSegment (takeSyn c.tcp seg)
        c.tcp.snd.iss (seg.seq + 1) (segFlagSyn ||| segFlagAck) [])))
        (env.malloc .copy c.log && env.ipHlSend c.log)] := by
  cases h : env.ipHlSend c.log <;>
    simp [synReply, tcpSendCtrlSeg_ok, tcpSendCtrlSeg_log, h]

theorem sendFrame_synReply (seg : Received) : SendFrame c (synReply env c seg) := by
  have htcp := synReply_tcp env c seg
  have hlog := synReply_log env c seg
  cases h : env.ipHlSend c.log with
  | true =>
      simp only [h, if_true] at htcp
      exact .of_concat (by simp [htcp, takeSyn]) (by simp [htcp, takeSyn]) (by simp [htcp, takeSyn])
        hlog trivial
  | false =>
      simp only [h, Bool.false_eq_true, if_false] at htcp
      exact .of_concat (by simp [htcp, takeSyn]) (by simp [htcp, takeSyn]) (by simp [htcp, takeSyn])
        hlog trivial

/-- A segment without SYN changes nothing in LISTEN, and neither does a RST; an acknowledgment is
answered with a RST even if a SYN comes with it. -/
theorem receivedWhenListen_cases (seg : Received) :
    ∃ c', (c' = c ∨ segCtrlA seg.toSegment = true ∧
        c' = (tcpSendCtrlSeg env c seg.ack 0 segFlagRst).1) ∧
      (receivedWhenListen env c seg = c' ∨
        segCtrlS seg.toSegment = true ∧ segCtrlR seg.toSegment = false ∧
          receivedWhenListen env c seg = synReply env c' seg) := by
  cases hR : segCtrlR seg.toSegment with
  | true =>
      exact ⟨c, .inl rfl, .inl (by simp [receivedWhenListen, hR])⟩
  | false =>
      let c' := if segCtrlA seg.toSegment then (tcpSendCtrlSeg env c seg.ack 0 segFlagRst).1 else c
      have hc' : c' = c ∨ segCtrlA seg.toSegment = true ∧
          c' = (tcpSendCtrlSeg env c seg.ack 0 segFlagRst).1 := by
        cases hA : segCtrlA seg.toSegment <;> simp [c', hA]
      refine ⟨c', hc', ?_⟩
      cases hS : segCtrlS seg.toSegment with
      | true =>
          right
          refine ⟨rfl, rfl, ?_⟩
          simp only [receivedWhenListen, hR, hS]
          rfl
      | false =>
          left
          simp [receivedWhenListen, hR, hS, c']

/-- In LISTEN nothing is sent from `tx_seg`. -/
theorem sendFrame_receivedWhenListen (seg : Received) :
    SendFrame c (receivedWhenListen env c seg) := by
  rcases receivedWhenListen_cases env c seg with ⟨c', hc', h⟩
  have hframe : SendFrame c c' := by
    rcases hc' with rfl | ⟨_, rfl⟩
    · exact .refl _
    · exact sendFrame_tcpSendCtrlSeg_rst env c seg.ack 0
  rcases h with h | ⟨_, _, h⟩
  · rw [h]
    exact hframe
  · rw [h]
    exact hframe.trans (sendFrame_synReply env c' seg)

/-- The control block after LISTEN: a SYN is taken, and with the SYN,ACK gone out the connection is
in SYN_RECEIVED. -/
theorem receivedWhenListen_tcp (seg : Received) :
    (receivedWhenListen env c seg).tcp = c.tcp ∨
      segCtrlS seg.toSegment = true ∧ segCtrlR seg.toSegment = false ∧
        ((receivedWhenListen env c seg).tcp = takeSyn c.tcp seg ∨
          (receivedWhenListen env c seg).tcp =
            { takeSyn c.tcp seg with snd.nxt := c.tcp.snd.nxt + 1, state := .synReceived }) := by
  rcases receivedWhenListen_cases env c seg with ⟨c', hc', h⟩
  -- the RST for an acknowledgment changes nothing
  have htcp : c'.tcp = c.tcp := by
    rcases hc' with rfl | ⟨_, rfl⟩
    · rfl
    · exact tcpSendCtrlSeg_rst_tcp env c seg.ack 0
  rcases h with h | ⟨hS, hR, h⟩
  · left
    rw [h, htcp]
  · right
    refine ⟨hS, hR, ?_⟩
    rw [h, synReply_tcp, htcp]
    cases env.ipHlSend c'.log with
    | true =>
        exact Or.inr rfl
    | false =>
        exact Or.inl rfl

theorem receivedWhenListen_state (hst : c.tcp.state = .listen) (seg : Received) :
    (receivedWhenListen env c seg).tcp.state = .listen ∨
      (receivedWhenListen env c seg).tcp.state = .synReceived := by
  rcases receivedWhenListen_tcp env c seg with h | ⟨_, _, h | h⟩
  · left
    rw [h, hst]
  · left
    rw [h, takeSyn, hst]
  · right
    rw [h]

/-! ## SYN_RECEIVED -/

theorem receivedWhenSynReceived_of_rejected {seg : Received}
    (h : seqAccepted c.tcp seg.toSegment = false) :
    receivedWhenSynReceived env c seg = (processReceivedSeq env c seg).1 := by
  simp [receivedWhenSynReceived, processReceivedSeq_ok, h]

theorem receivedWhenSynReceived_of_rst {seg : Received}
    (h : seqAccepted c.tcp seg.toSegment = true) (hR : segCtrlR seg.toSegment = true) :
    receivedWhenSynReceived env c seg =
      { c with tcp.state := if c.tcp.passive then .listen else .closed } := by
  cases hp : c.tcp.passive <;>
    simp [receivedWhenSynReceived, processReceivedSeq_of_accepted env c h, hR, hp]

theorem receivedWhenSynReceived_of_no_ack {seg : Received}
    (h : seqAccepted c.tcp seg.toSegment = true) (hR : segCtrlR seg.toSegment = false)
    (hA : segCtrlA seg.toSegment = false) : receivedWhenSynReceived env c seg = c := by
  simp [receivedWhenSynReceived, processReceivedSeq_of_accepted env c h, hR, hA]

/-- The acknowledgment part of `received_when_syn_received`. -/
def ackSynReceived (seg : Received) : Conn τ :=
  if sncmp c.tcp.snd.una .le seg.ack .le c.tcp.snd.nxt then
    { c with tcp.snd.una := seg.ack, tcp.state := .established }
  else
    (tcpSendCtrlSeg env c seg.ack 0 segFlagRst).1

theorem ackSynReceived_of {seg : Received}
    (h : sncmp c.tcp.snd.una .le seg.ack .le c.tcp.snd.nxt = true) :
    ackSynReceived env c seg = { c with tcp.snd.una := seg.ack, tcp.state := .established } := by
  simp [ackSynReceived, h]

theorem ackSynReceived_of_not {seg : Received}
    (h : sncmp c.tcp.snd.una .le seg.ack .le c.tcp.snd.nxt = false) :
    ackSynReceived env c seg = (tcpSendCtrlSeg env c seg.ack 0 segFlagRst).1 := by
  simp [ackSynReceived, h]

theorem sendFrame_ackSynReceived (seg : Received) : SendFrame c (ackSynReceived env c seg) := by
  cases h : sncmp c.tcp.snd.una .le seg.ack .le c.tcp.snd.nxt with
  | true =>
      rw [ackSynReceived_of env c h]
      exact .of_log rfl rfl rfl rfl
  | false =>
      rw [ackSynReceived_of_not env c h]
      exact sendFrame_tcpSendCtrlSeg_rst env c seg.ack 0

theorem receivedWhenSynReceived_of_ack {seg : Received}
    (h : seqAccepted c.tcp seg.toSegment = true) (hR : segCtrlR seg.toSegment = false)
    (hA : segCtrlA seg.toSegment = true) :
    receivedWhenSynReceived env c seg =
      if segCtrlF seg.toSegment then { ackSynReceived env c seg with tcp.state := .closeWait }
      else ackSynReceived env c seg := by
  simp [receivedWhenSynReceived, processReceivedSeq_of_accepted env c h, hR, hA, ackSynReceived]

theorem sendFrame_receivedWhenSynReceived (seg : Received) :
    SendFrame c (receivedWhenSynReceived env c seg) := by
  cases hacc : seqAccepted c.tcp seg.toSegment with
  | false =>
      rw [receivedWhenSynReceived_of_rejected env c hacc]
      exact sendFrame_processReceivedSeq env c seg
  | true =>
      cases hR : segCtrlR seg.toSegment with
      | true =>
          rw [receivedWhenSynReceived_of_rst env c hacc hR]
          exact sendFrame_setState c _
      | false =>
          cases hA : segCtrlA seg.toSegment with
          | false =>
              rw [receivedWhenSynReceived_of_no_ack env c hacc hR hA]
              exact .refl c
          | true =>
              rw [receivedWhenSynReceived_of_ack env c hacc hR hA]
              cases segCtrlF seg.toSegment with
              | true =>
                  exact (sendFrame_ackSynReceived env c seg).trans (sendFrame_setState _ .closeWait)
              | false =>
                  exact sendFrame_ackSynReceived env c seg

variable [TimerLib τ]

/-! ## SYN_SENT -/

/-- The control block after `received_when_syn_sent` took a SYN. -/
def takeSynAck (t : Tcb τ) (seg : Received) : Tcb τ :=
  { t with
    rcv := { t.rcv with nxt := seg.seq + 1, irs := seg.seq }
    snd := { t.snd with una := seg.ack } }

/-- What `received_when_syn_sent` does after it took a SYN. -/
def synAckReply (seg : Received) : Conn τ :=
  let c := { c with tcp := takeSynAck c.tcp seg }
  if c.tcp.snd.iss < seg.ack then
    let r := tcpSendCtrlSeg env c seg.ack (seg.seq + 1) segFlagAck
    if r.2 then tcpTxSegComplete { r.1 with tcp.state := .established } seg.ack else r.1
  else
    c

theorem receivedWhenSynSent_cases (seg : Received) :
    receivedWhenSynSent env c seg = c ∨
      segCtrlA seg.toSegment = true ∧ segCtrlR seg.toSegment = false ∧
        sncmp c.tcp.snd.iss .ls seg.ack .le c.tcp.snd.nxt = false ∧
        receivedWhenSynSent env c seg = (tcpSendCtrlSeg env c seg.ack seg.seq segFlagRst).1 ∨
      segCtrlA seg.toSegment = true ∧
        sncmp c.tcp.snd.una .le seg.ack .le c.tcp.snd.nxt = true ∧
        (segCtrlR seg.toSegment = true ∧
            receivedWhenSynSent env c seg = { c with tcp.state := .closed } ∨
          segCtrlR seg.toSegment = false ∧ segCtrlS seg.toSegment = true ∧
            sncmp c.tcp.snd.iss .ls seg.ack .le c.tcp.snd.nxt = true ∧
            receivedWhenSynSent env c seg = synAckReply env c seg) := by
  cases hA : segCtrlA seg.toSegment with
  | false =>
      left
      simp [receivedWhenSynSent, hA]
  | true =>
      cases hR : segCtrlR seg.toSegment with
      | true =>
          -- a RST is not answered, and closes the connection if its acknowledgment is acceptable
          cases hacc : sncmp c.tcp.snd.una .le seg.ack .le c.tcp.snd.nxt with
          | true =>
              right; right
              refine ⟨rfl, rfl, Or.inl ⟨rfl, ?_⟩⟩
              simp [receivedWhenSynSent, synSentAcceptable, hA, hR, hacc]
          | false =>
              left
              simp [receivedWhenSynSent, synSentAcceptable, hA, hR, hacc]
      | false =>
          cases hiss : sncmp c.tcp.snd.iss .ls seg.ack .le c.tcp.snd.nxt with
          | false =>
              right; left
              refine ⟨rfl, rfl, rfl, ?_⟩
              simp [receivedWhenSynSent, hA, hR, hiss]
          | true =>
              cases hacc : sncmp c.tcp.snd.una .le seg.ack .le c.tcp.snd.nxt with
              | false =>
                  left
                  simp [receivedWhenSynSent, synSentAcceptable, hA, hR, hiss, hacc]
              | true =>
                  cases hS : segCtrlS seg.toSegment with
                  | false =>
                      left
                      simp [receivedWhenSynSent, synSentAcceptable, hA, hR, hiss, hacc, hS]
                  | true =>
                      right; right
                      refine ⟨rfl, rfl, Or.inr ⟨rfl, rfl, rfl, ?_⟩⟩
                      simp [receivedWhenSynSent, synSentAcceptable, hA, hR, hiss, hacc, hS,
                        synAckReply, takeSynAck]

/-- The SYN is taken whether or not it acknowledges more than `iss`; the connection is established
only if it does and the IP layer takes the acknowledgment. -/
theorem synAckReply_cases (seg : Received) :
    ((¬ c.tcp.snd.iss < seg.ack ∨ env.ipHlSend c.log = false) ∧
        (synAckReply env c seg).tcp = takeSynAck c.tcp seg ∧
        ((synAckReply env c seg).log = c.log ∨
          ∃ dg, dg.seg = newSegment (takeSynAck c.tcp seg) seg.ack (seg.seq + 1) segFlagAck [] ∧
            (synAckReply env c seg).log = c.log ++ [.output (some dg) false])) ∨
      c.tcp.snd.iss < seg.ack ∧ env.ipHlSend c.log = true ∧
        synAckReply env c seg =
          tcpTxSegComplete
            { tcp := { takeSynAck c.tcp seg with state := .established }
              log := (tcpSendCtrlSeg env { c with tcp := takeSynAck c.tcp seg } seg.ack
                (seg.seq + 1) segFlagAck).1.log } seg.ack := by
  by_cases hiss : c.tcp.snd.iss < seg.ack
  · cases hsend : env.ipHlSend c.log with
    | true =>
        right
        refine ⟨hiss, rfl, ?_⟩
        simp [synAckReply, tcpSendCtrlSeg_ok, hsend, takeSynAck, hiss]
    | false =>
        left
        refine ⟨Or.inr rfl, ?_, Or.inr ⟨connDatagram (takeSynAck c.tcp seg)
          (newSegment (takeSynAck c.tcp seg) seg.ack (seg.seq + 1) segFlagAck []), rfl, ?_⟩⟩
        · simp [synAckReply, tcpSendCtrlSeg_ok, hsend, takeSynAck, hiss]
        · simp [synAckReply, tcpSendCtrlSeg_ok, tcpSendCtrlSeg_log, hsend, takeSynAck, hiss]
  · left
    exact ⟨Or.inl hiss, by simp [synAckReply, takeSynAck, hiss],
      Or.inl (by simp [synAckReply, takeSynAck, hiss])⟩

/-! ## ESTABLISHED -/

theorem receivedWhenEstablished_of_rejected {seg : Received}
    (h : seqAccepted c.tcp seg.toSegment = false) :
    receivedWhenEstablished env c seg = (processReceivedSeq env c seg).1 := by
  simp [receivedWhenEstablished, processReceivedSeq_ok, h]

theorem receivedWhenEstablished_of_ignored {seg : Received}
    (h : seqAccepted c.tcp seg.toSegment = true)
    (hRA : segCtrlR seg.toSegment = true ∨ segCtrlA seg.toSegment = false) :
    receivedWhenEstablished env c seg = c := by
  rw [receivedWhenEstablished, processReceivedSeq_of_accepted env c h]
  rcases hRA with hR | hA
  · simp [hR]
  · simp [hA]

/-- The acknowledgment part of `received_when_established`. -/
def ackEstablished (seg : Received) : Conn τ :=
  if !txSegCtrlF env c then (tcpHandleAckOfData env c seg).1 else c

/-- The text part of `received_when_established`, behind the acknowledgment. -/
def textEstablished (seg : Received) : Conn τ :=
  (tcpHandleData env (ackEstablished env c seg) seg).1

theorem receivedWhenEstablished_of_ack {seg : Received}
    (h : seqAccepted c.tcp seg.toSegment = true) (hR : segCtrlR seg.toSegment = false)
    (hA : segCtrlA seg.toSegment = true) :
    receivedWhenEstablished env c seg =
      if segCtrlF seg.toSegment then
        { (tcpHandleFinAck env (textEstablished env c seg) seg).1 with tcp.state := .closeWait }
      else textEstablished env c seg := by
  simp [receivedWhenEstablished, processReceivedSeq_of_accepted env c h, hR, hA, textEstablished,
    ackEstablished]

/-- The acknowledgment completes the data segment in `tx_seg` or changes nothing. -/
theorem ackEstablished_cases (seg : Received) :
    (ackEstablished env c seg = c ∧ ∀ s, c.tcp.txSeg = some s → segCtrlF s.toSegment = false →
        ackCompletes c.tcp seg.ack = false) ∨
      ∃ s, c.tcp.txSeg = some s ∧ segCtrlF s.toSegment = false ∧
        ackCompletes c.tcp seg.ack = true ∧
        ackEstablished env c seg = tcpConstructData env (ackedConn c s) := by
  cases hs : c.tcp.txSeg with
  | none =>
      left
      simp [ackEstablished, tcpHandleAckOfData_of_not env c (Or.inl hs)]
  | some s =>
      cases hF : segCtrlF s.toSegment with
      | true =>
          left
          refine ⟨by simp [ackEstablished, txSegCtrlF, hs, hF], ?_⟩
          rintro s' ⟨⟩ hF'
          simp [hF] at hF'
      | false =>
          cases hack : ackCompletes c.tcp seg.ack with
          | false =>
              left
              exact ⟨by simp [ackEstablished, tcpHandleAckOfData_of_not env c (Or.inr hack)],
                fun _ _ _ => rfl⟩
          | true =>
              right
              refine ⟨s, rfl, hF, rfl, ?_⟩
              simp [ackEstablished, txSegCtrlF, hs, hF, tcpHandleAckOfData_of env c hs hack]

@[simp] theorem ackEstablished_state (seg : Received) :
    (ackEstablished env c seg).tcp.state = c.tcp.state := by
  rcases ackEstablished_cases env c seg with ⟨h, _⟩ | ⟨s, _, _, _, h⟩
  · rw [h]
  · simp [h, ackedConn]

@[simp] theorem ackEstablished_rcv (seg : Received) :
    (ackEstablished env c seg).tcp.rcv = c.tcp.rcv := by
  rcases ackEstablished_cases env c seg with ⟨h, _⟩ | ⟨s, _, _, _, h⟩
  · rw [h]
  · simp [h, ackedConn]

/-! ## FIN_WAIT_1 and LAST_ACK -/

/-- With a FIN in `tx_seg` only the number behind it counts. -/
theorem ackWhenClosing_of_fin {s : TxSegment} (hs : c.tcp.txSeg = some s)
    (hF : segCtrlF s.toSegment = true) (seg : Received) (next : State) :
    ackWhenClosing env c seg next =
      if segCtrlA seg.toSegment && s.seq + 1 == seg.ack then
        { tcpTxSegComplete c seg.ack with tcp.state := next }
      else c := by
  cases hA : segCtrlA seg.toSegment with
  | false =>
      simp [ackWhenClosing, hA]
  | true =>
      by_cases hseq : s.seq + 1 = seg.ack
      · simp [ackWhenClosing, hA, txSegCtrlF, hs, hF, tcpHandleAckOfFinAck, hseq]
      · simp [ackWhenClosing, hA, txSegCtrlF, hs, hF, tcpHandleAckOfFinAck, hseq]

theorem ackWhenClosing_of_data {s : TxSegment} (hs : c.tcp.txSeg = some s)
    (hF : segCtrlF s.toSegment = false) (seg : Received) (next : State) :
    ackWhenClosing env c seg next =
      if segCtrlA seg.toSegment && ackCompletes c.tcp seg.ack then
        tcpConstructData env (ackedConn c s)
      else c := by
  cases hA : segCtrlA seg.toSegment with
  | false =>
      simp [ackWhenClosing, hA]
  | true =>
      cases hack : ackCompletes c.tcp seg.ack with
      | false =>
          simp [ackWhenClosing, hA, txSegCtrlF, hs, hF,
            tcpHandleAckOfData_of_not env c (Or.inr hack)]
      | true =>
          simp [ackWhenClosing, hA, txSegCtrlF, hs, hF, tcpHandleAckOfData_of env c hs hack]

/-- Without a segment in `tx_seg` an acknowledgment changes nothing, whatever a read through the
null pointer yields. -/
theorem ackWhenClosing_of_none (hs : c.tcp.txSeg = none) (seg : Received) (next : State) :
    ackWhenClosing env c seg next = c := by
  cases hA : segCtrlA seg.toSegment with
  | false =>
      simp [ackWhenClosing, hA]
  | true =>
      cases hF : txSegCtrlF env c <;>
        simp [ackWhenClosing, hA, hF, tcpHandleAckOfFinAck, hs,
          tcpHandleAckOfData_of_not env c (Or.inl hs)]

/-- The acknowledgment is not taken, or it is that of the FIN or of the data in `tx_seg`. -/
theorem ackWhenClosing_cases (seg : Received) (next : State) :
    ackWhenClosing env c seg next = c ∨
      (∃ s, c.tcp.txSeg = some s ∧ segCtrlF s.toSegment = true ∧
        segCtrlA seg.toSegment = true ∧ s.seq + 1 = seg.ack ∧
        ackWhenClosing env c seg next = { tcpTxSegComplete c seg.ack with tcp.state := next }) ∨
      ∃ s, c.tcp.txSeg = some s ∧ segCtrlF s.toSegment = false ∧
        segCtrlA seg.toSegment = true ∧ ackCompletes c.tcp seg.ack = true ∧
        ackWhenClosing env c seg next = tcpConstructData env (ackedConn c s) := by
  cases hs : c.tcp.txSeg with
  | none =>
      exact Or.inl (ackWhenClosing_of_none env c hs seg next)
  | some s =>
      cases hF : segCtrlF s.toSegment with
      | true =>
          rw [ackWhenClosing_of_fin env c hs hF]
          split
          next hack =>
            rw [Bool.and_eq_true, beq_iff_eq] at hack
            exact Or.inr (Or.inl ⟨s, rfl, hF, hack.1, hack.2, rfl⟩)
          · exact Or.inl rfl
      | false =>
          rw [ackWhenClosing_of_data env c hs hF]
          split
          next hack =>
            rw [Bool.and_eq_true] at hack
            exact Or.inr (Or.inr ⟨s, rfl, hF, hack.1, hack.2, rfl⟩)
          · exact Or.inl rfl

@[simp] theorem ackWhenClosing_rcv (seg : Received) (next : State) :
    (ackWhenClosing env c seg next).tcp.rcv = c.tcp.rcv := by
  rcases ackWhenClosing_cases env c seg next with h | ⟨s, hs, _, _, _, h⟩ | ⟨s, _, _, _, _, h⟩
  · rw [h]
  · simp [h, tcpTxSegComplete, hs]
  · simp [h, ackedConn]

/-! ## Calls of the user -/

/-- The connection after `tcp_send` queued the buffer. -/
def acceptData (data : List Byte) : Conn τ :=
  { c with
    tcp.txData := c.tcp.txData ++ [dblkCopyFrom [dblkNodeNewWithBuff data.length] data data.length]
    log := c.log ++ [Action.accepted data] }

theorem tcpSend_of_established (hst : c.tcp.state = .established) (data : List Byte) :
    (tcpSend env c data).1 =
      tcpConstructData env (if env.malloc .txBlock c.log then acceptData c data else c) := by
  cases hmem : env.malloc .txBlock c.log <;>
    simp [tcpSend, hst, sendEventProcess, sendWhenEstablished, hmem, acceptData]

theorem tcpSend_of_not (hst : c.tcp.state ≠ .established) (data : List Byte) :
    tcpSend env c data = (c, 0) := by
  cases h : c.tcp.state with
  | established =>
      exact absurd h hst
  | _ =>
      simp [tcpSend, h, sendEventProcess]

@[simp] theorem tcpSend_state (data : List Byte) :
    (tcpSend env c data).1.tcp.state = c.tcp.state := by
  by_cases hst : c.tcp.state = .established
  · rw [tcpSend_of_established env c hst, tcpConstructData_state]
    split <;> rfl
  · rw [tcpSend_of_not env c hst]

/-- The state that `tcp_close` enters. -/
def closeState : State → State
  | .established => .finWait1
  | .closeWait => .lastAck
  | s => s

theorem tcpClose_cases :
    (c.tcp.state = .established ∨ c.tcp.state = .closeWait) ∧
        tcpClose env c = { tcpContructFinAck env c with tcp.state := closeState c.tcp.state } ∨
      tcpClose env c = c := by
  cases hst : c.tcp.state with
  | established =>
      left
      exact ⟨Or.inl rfl, by simp [tcpClose, hst, closeEventProcess, closeWhenEstablished, closeState]⟩
  | closeWait =>
      left
      exact ⟨Or.inr rfl, by simp [tcpClose, hst, closeEventProcess, closeWhenCloseWait, closeState]⟩
  | _ =>
      right
      simp [tcpClose, hst, closeEventProcess]

/-! ## The timer -/

/-- The connection as `tcp_loop` hands it to its timeout handler. -/
def stopTimer (c : Conn τ) : Conn τ :=
  { c with tcp.tmr := TimerLib.stop c.tcp.tmr }

theorem sendFrame_stopTimer : SendFrame c (stopTimer c) :=
  .of_log rfl rfl rfl rfl

/-- The states whose timeout handler sends `tx_seg` again. -/
def Retransmits (s : State) : Prop :=
  s = .synSent ∨ s = .established ∨ s = .finWait1 ∨ s = .lastAck

theorem timeoutEventProcess_of_retransmits {s : State} (h : Retransmits s) :
    timeoutEventProcess s = some (tcpRetransmit (τ := τ)) := by
  rcases h with rfl | rfl | rfl | rfl <;> rfl

theorem tcpLoopVisit_cases :
    tcpLoopVisit env c = c ∨
      Retransmits c.tcp.state ∧ tcpLoopVisit env c = tcpRetransmit env (stopTimer c) ∨
      c.tcp.state = .timeWait ∧
        tcpLoopVisit env c = { stopTimer c with tcp.state := .closed } ∨
      ¬ Retransmits c.tcp.state ∧ c.tcp.state ≠ .timeWait ∧ tcpLoopVisit env c = stopTimer c := by
  cases hexp : TimerLib.expired c.tcp.tmr env.now with
  | false =>
      left
      simp [tcpLoopVisit, hexp]
  | true =>
      right
      have hvisit : tcpLoopVisit env c = tcpTimeout env (stopTimer c) := by
        simp [tcpLoopVisit, hexp, stopTimer]
      rw [hvisit]
      by_cases hre : Retransmits c.tcp.state
      · left
        have hproc : timeoutEventProcess (stopTimer c).tcp.state = some (tcpRetransmit (τ := τ)) :=
          timeoutEventProcess_of_retransmits hre
        exact ⟨hre, by simp [tcpTimeout, hproc]⟩
      · right
        cases hst : c.tcp.state with
        | timeWait =>
            left
            exact ⟨rfl, by simp [tcpTimeout, stopTimer, hst, timeoutEventProcess,
              timeoutWhenTimeWait]⟩
        | synSent | established | finWait1 | lastAck =>
            exact absurd (by simp [Retransmits, hst]) hre
        | _ =>
            right
            exact ⟨by simp [Retransmits], by simp,
              by simp [tcpTimeout, stopTimer, hst, timeoutEventProcess]⟩

/-! ## The states -/

/-- The states that one event can lead to. -/
def follows : State → List State
  | .listen => [.listen, .synReceived]
  | .synSent => [.synSent, .established, .closed]
  | .synReceived => [.synReceived, .listen, .closed, .established, .closeWait]
  | .established => [.established, .closeWait, .finWait1]
  | .finWait1 => [.finWait1, .finWait2]
  | .finWait2 => [.finWait2, .timeWait]
  | .timeWait => [.timeWait, .closed]
  | .closeWait => [.closeWait, .lastAck]
  | .lastAck => [.lastAck, .closed]
  | .closing => [.closing]
  | .closed => [.closed]

theorem mem_follows_self (s : State) : s ∈ follows s := by
  cases s <;> decide

theorem ackWhenClosing_state (seg : Received) (next : State) :
    (ackWhenClosing env c seg next).tcp.state = c.tcp.state ∨
      (ackWhenClosing env c seg next).tcp.state = next := by
  rcases ackWhenClosing_cases env c seg next with h | ⟨_, _, _, _, _, h⟩ | ⟨_, _, _, _, _, h⟩
  · exact Or.inl (by rw [h])
  · exact Or.inr (by rw [h])
  · left
    rw [h, tcpConstructData_state, ackedConn]

omit [TimerLib τ] in
theorem receivedWhenSynReceived_state (hst : c.tcp.state = .synReceived) (seg : Received) :
    (receivedWhenSynReceived env c seg).tcp.state ∈ follows .synReceived := by
  cases hacc : seqAccepted c.tcp seg.toSegment with
  | false =>
      simp [receivedWhenSynReceived_of_rejected env c hacc, hst, follows]
  | true =>
      cases hR : segCtrlR seg.toSegment with
      | true =>
          rw [receivedWhenSynReceived_of_rst env c hacc hR]
          cases c.tcp.passive <;> simp [follows]
      | false =>
          cases hA : segCtrlA seg.toSegment with
          | false =>
              simp [receivedWhenSynReceived_of_no_ack env c hacc hR hA, hst, follows]
          | true =>
              rw [receivedWhenSynReceived_of_ack env c hacc hR hA]
              cases hF : segCtrlF seg.toSegment with
              | true =>
                  simp [follows]
              | false =>
                  cases hack : sncmp c.tcp.snd.una .le seg.ack .le c.tcp.snd.nxt with
                  | true =>
                      simp [ackSynReceived_of env c hack, follows]
                  | false =>
                      simp [ackSynReceived_of_not env c hack, hst, follows]

theorem receivedWhenEstablished_state (seg : Received) :
    (receivedWhenEstablished env c seg).tcp.state = c.tcp.state ∨
      (receivedWhenEstablished env c seg).tcp.state = .closeWait := by
  cases hacc : seqAccepted c.tcp seg.toSegment with
  | false =>
      left
      rw [receivedWhenEstablished_of_rejected env c hacc, processReceivedSeq_tcp]
  | true =>
      by_cases hRA : segCtrlR seg.toSegment = true ∨ segCtrlA seg.toSegment = false
      · left
        rw [receivedWhenEstablished_of_ignored env c hacc hRA]
      · rw [not_or, Bool.not_eq_true, Bool.not_eq_false] at hRA
        rw [receivedWhenEstablished_of_ack env c hacc hRA.1 hRA.2]
        cases segCtrlF seg.toSegment with
        | true =>
            right
            rfl
        | false =>
            left
            simp [textEstablished]

theorem tcpReceived_mem_follows (seg : Received) :
    (tcpReceived env c seg).tcp.state ∈ follows c.tcp.state := by
  cases hst : c.tcp.state with
  | listen =>
      have h := receivedWhenListen_state env c hst seg
      simpa [tcpReceived, hst, receivedEventProcess, follows] using h
  | synSent =>
      have h : tcpReceived env c seg = receivedWhenSynSent env c seg := by
        simp [tcpReceived, hst, receivedEventProcess]
      rw [h]
      rcases receivedWhenSynSent_cases env c seg with h | ⟨_, _, _, h⟩ | ⟨_, _, h⟩
      · simp [h, hst, follows]
      · simp [h, hst, follows]
      · rcases h with ⟨_, h⟩ | ⟨_, _, _, h⟩
        · simp [h, follows]
        · rw [h]
          rcases synAckReply_cases env c seg with ⟨_, h, _⟩ | ⟨_, _, h⟩
          · simp [h, takeSynAck, hst, follows]
          · rw [h, tcpTxSegComplete_state]
            simp [follows]
  | synReceived =>
      have h : tcpReceived env c seg = receivedWhenSynReceived env c seg := by
        simp [tcpReceived, hst, receivedEventProcess]
      rw [h]
      exact receivedWhenSynReceived_state env c hst seg
  | established =>
      have h : tcpReceived env c seg = receivedWhenEstablished env c seg := by
        simp [tcpReceived, hst, receivedEventProcess]
      rw [h]
      rcases receivedWhenEstablished_state env c seg with h | h <;> simp [h, hst, follows]
  | finWait1 =>
      rcases ackWhenClosing_state env c seg .finWait2 with h | h <;>
        simp [tcpReceived, hst, receivedEventProcess, receivedWhenFinWait1, h, follows]
  | finWait2 =>
      cases hAF : segCtrlAF seg.toSegment <;>
        simp [tcpReceived, hst, receivedEventProcess, receivedWhenFinWait2, hAF, follows]
  | timeWait =>
      cases hAF : segCtrlAF seg.toSegment <;>
        simp [tcpReceived, hst, receivedEventProcess, receivedWhenTimeWait, hAF, follows]
  | closeWait =>
      cases hAF : segCtrlAF seg.toSegment <;>
        simp [tcpReceived, hst, receivedEventProcess, receivedWhenCloseWait, hAF, follows]
  | lastAck =>
      rcases ackWhenClosing_state env c seg .closed with h | h <;>
        simp [tcpReceived, hst, receivedEventProcess, receivedWhenLastAck, h, follows]
  | closing =>
      simp [tcpReceived, hst, receivedEventProcess, follows]
  | closed =>
      simp [tcpReceived, hst, receivedEventProcess, follows]

/-- One event moves the connection along the arrows of `follows`. -/
theorem step_mem_follows (e : Event) : (step c e).tcp.state ∈ follows c.tcp.state := by
  cases e with
  | received env seg =>
      exact tcpReceived_mem_follows env c seg
  | send env data =>
      rw [step, tcpSend_state]
      exact mem_follows_self _
  | recv data size =>
      have h : (step c (.recv data size)).tcp.state = c.tcp.state := recvEvent_state c data size
      rw [h]
      exact mem_follows_self _
  | close env =>
      rcases tcpClose_cases env c with ⟨hst, h⟩ | h
      · rcases hst with hst | hst <;> simp [step, h, hst, closeState, follows]
      · rw [step, h]
        exact mem_follows_self _
  | loop env =>
      rcases tcpLoopVisit_cases env c with h | ⟨_, h⟩ | ⟨hst, h⟩ | ⟨_, _, h⟩
      · rw [step, h]
        exact mem_follows_self _
      · rw [step, h, tcpRetransmit_tcp]
        exact mem_follows_self _
      · simp [step, h, hst, follows]
      · rw [step, h]
        exact mem_follows_self _

end Tcp
end DtsNet
