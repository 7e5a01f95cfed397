import DtsNet.Tcp.Binding
import DtsNet.Tcp.Sending
import DtsNet.Tcp.Wire

/-!
# Pending — the segment in `tx_seg` and its bytes

`tx_seg` is kept twice: in its fields, and packed in `raw_data`, which is what every retransmission
sends.  The bytes are written when the segment is built.  `tcp_handle_data` writes the new
acknowledgment number into the fields only, so that the two agree as long as no text is taken while
a segment is pending.
-/

namespace DtsNet
namespace Tcp

open Ip Dblk

variable {τ : Type}

/-! ## A connection with the memory of its pending segment -/

/-- `rawData` holds the bytes of the blocks in `tx_seg->raw_data`, `behind` what lies in memory
behind the payload when they are packed. -/
structure WireConn (τ : Type) where
  conn : Conn τ
  rawData : List Byte
  behind : List Byte
  deriving DecidableEq, Repr

/-- What `tcp_pack` writes for the segment in `tx_seg`, with the payload merged behind it. -/
def packedBytes (t : Tcb τ) (behind : List Byte) : List Byte :=
  match t.txSeg.bind TxSegment.rawData with
  | some raw =>
      tcpPackHeader t.localhost.addr.addr t.dest.addr ipProtocolTcp raw behind ++ raw.payload
  | none => []

/-- The memory is written when a segment is built, and at no other time. -/
def writeRawData (w : WireConn τ) (c : Conn τ) (behind : List Byte) : WireConn τ :=
  if builtSegments c.log = builtSegments w.conn.log then
    { w with conn := c }
  else
    { conn := c, rawData := packedBytes c.tcp behind, behind := behind }

/-- `tcp_open` packs the SYN. -/
def wireOpen (c : Conn τ) (behind : List Byte) : WireConn τ :=
  { conn := c, rawData := packedBytes c.tcp behind, behind := behind }

theorem writeRawData_conn (w : WireConn τ) (c : Conn τ) (behind : List Byte) :
    (writeRawData w c behind).conn = c := by
  rw [writeRawData]
  split <;> rfl

section Step

variable [TimerLib τ]

/-- One event; the memory behind the payload of a segment that it builds comes with it. -/
def wireStep (w : WireConn τ) (e : Event × List Byte) : WireConn τ :=
  writeRawData w (step w.conn e.1) e.2

theorem wireRun_conn (w : WireConn τ) (es : List (Event × List Byte)) :
    (Machine.run wireStep w es).conn = runConn w.conn (es.map Prod.fst) := by
  induction es generalizing w with
  | nil =>
      rfl
  | cons e es ih =>
      rw [Machine.run_cons, ih, wireStep, writeRawData_conn]
      rfl

end Step

/-! ## When the two copies agree -/

/-- The bytes of the pending segment decode to its fields, where `beyond` lies behind them in the
receive buffer.  Of a payload of odd size the checksum takes in the byte behind it, which must be
the same on both sides. -/
def BytesMatch (w : WireConn τ) : Prop :=
  ∀ s, w.conn.tcp.txSeg = some s → ∀ beyond : List Byte,
    (s.payload.length % 2 = 1 → beyond.getD 0 0 = w.behind.getD 0 0) →
    DecodesTo w.conn.tcp.localhost.addr.addr w.conn.tcp.dest.addr ipProtocolTcp s.toSegment w.rawData
      beyond

/-- What is pending in ESTABLISHED, the state in which text is taken, acknowledges all of it. -/
def AckUpdated (c : Conn τ) : Prop :=
  c.tcp.state = .established → ∀ s, c.tcp.txSeg = some s → s.ack = c.tcp.rcv.nxt

/-- The segment brings the text that is expected next, and `tcp_handle_data` looks at it. -/
structure BringsText (t : Tcb τ) (seg : Received) : Prop where
  state : t.state = .established
  accepted : seqAccepted t seg.toSegment = true
  rst : segCtrlR seg.toSegment = false
  ack : segCtrlA seg.toSegment = true
  seq : seg.seq = t.rcv.nxt
  text : 0 < tcpSegmentLength seg.toSegment

/-- `tx_seg` is free when the text of `seg` is taken: it was free, or `seg` acknowledges what was
in it and no block waits for its place. -/
def FreesSlot (t : Tcb τ) (seg : Received) : Prop :=
  t.txSeg = none ∨ ackCompletes t seg.ack = true ∧ t.txData = []

/-- No allocation fails, no text is taken while a segment is pending, and `tcp_send` is given what
fits a datagram. -/
def PendingOk (w : WireConn τ) (e : Event × List Byte) : Prop :=
  e.1.AllocOk ∧
    match e.1 with
    | .received _ seg => BringsText w.conn.tcp seg → FreesSlot w.conn.tcp seg
    | .send _ data => w.conn.tcp.state = .established → data.length % 65536 ≤ 65515
    | _ => True

/-! ## What a step does with the slot -/

/-- The blocks in `tx_data` fit a datagram. -/
def SmallBlocks (c : Conn τ) : Prop :=
  ∀ b ∈ c.tcp.txData, b.bytes.length ≤ 65515

/-- The header buffer holds what the fields say, and the segment fits a datagram. -/
structure WellPacked (s : TxSegment) : Prop where
  rawData : s.rawData = some s.toSegment
  offset : s.dataOffset = 5
  flags : s.flags < 0x1000
  size : s.payload.length ≤ 65515

/-- What is in `tx_seg` afterwards was there before, to the same destination, or was built in
between. -/
structure PendingMove (c c' : Conn τ) : Prop where
  blocks : SmallBlocks c'
  slot : ∃ built, builtSegments c'.log = builtSegments c.log ++ built ∧
    ∀ s, c'.tcp.txSeg = some s →
      built = [] ∧ c.tcp.txSeg = some s ∧ c'.tcp.dest = c.tcp.dest ∨ built ≠ [] ∧ WellPacked s

namespace PendingMove

variable {c c' c₁ c₂ c₃ : Conn τ}

theorem refl (h : SmallBlocks c) : PendingMove c c :=
  ⟨h, [], by simp, fun _ hs => Or.inl ⟨rfl, hs, rfl⟩⟩

theorem trans (h₁ : PendingMove c₁ c₂) (h₂ : PendingMove c₂ c₃) : PendingMove c₁ c₃ := by
  rcases h₁.slot with ⟨b₁, hbuilt₁, hslot₁⟩
  rcases h₂.slot with ⟨b₂, hbuilt₂, hslot₂⟩
  refine ⟨h₂.blocks, b₁ ++ b₂, by rw [hbuilt₂, hbuilt₁, List.append_assoc], ?_⟩
  intro s hs
  -- what the second step kept, the first kept or built
  rcases hslot₂ s hs with ⟨hnil₂, hs₂, hdest₂⟩ | ⟨hne₂, hpacked⟩
  · rcases hslot₁ s hs₂ with ⟨hnil₁, hs₁, hdest₁⟩ | ⟨hne₁, hpacked⟩
    · exact Or.inl ⟨by rw [hnil₁, hnil₂, List.append_nil], hs₁, hdest₂.trans hdest₁⟩
    · exact Or.inr ⟨by simp [hne₁], hpacked⟩
  · exact Or.inr ⟨by simp [hne₂], hpacked⟩

/-- A frame that does not touch the segment. -/
theorem of_frame (h : SmallBlocks c) (hframe : SendFrame c c') (hseg : c'.tcp.txSeg = c.tcp.txSeg)
    (hdest : c'.tcp.txSeg ≠ none → c'.tcp.dest = c.tcp.dest) : PendingMove c c' := by
  refine ⟨?_, [], by rw [hframe.builtSegments, List.append_nil], ?_⟩
  · rw [SmallBlocks, hframe.txData]
    exact h
  · intro s hs
    exact Or.inl ⟨rfl, hseg.symm.trans hs, hdest (by simp [hs])⟩

/-- The slot is freed, or is free as before. -/
theorem of_none (hblocks : c'.tcp.txData = c.tcp.txData) (h : SmallBlocks c)
    (hnone : c'.tcp.txSeg = none) (hbuilt : builtSegments c'.log = builtSegments c.log) :
    PendingMove c c' := by
  refine ⟨by rw [SmallBlocks, hblocks]; exact h, [], by rw [hbuilt, List.append_nil], ?_⟩
  intro s hs
  simp [hnone] at hs

theorem setState (h : PendingMove c c') (st : State) : PendingMove c { c' with tcp.state := st } :=
  h.trans (of_frame h.blocks (sendFrame_setState c' st) rfl fun _ => rfl)

end PendingMove

theorem wellPacked_newSegment (t : Tcb τ) (seq ack : UInt32) {flags : UInt16} {payload : List Byte}
    (hflags : flags < 0x1000) (hsize : payload.length ≤ 65515) :
    WellPacked (packTxSegment true (newSegment t seq ack flags payload)) :=
  ⟨rfl, rfl, hflags, hsize⟩

/-! ## The routines -/

section Routines

variable {env : Env} {c : Conn τ} (h : SmallBlocks c)

include h

theorem pendingMove_tcpHandleFinAck (seg : Received) :
    PendingMove c (tcpHandleFinAck env c seg).1 := by
  have hframe := sendFrame_tcpHandleFinAck env c seg
  cases hack : sncmp c.tcp.snd.una .ls seg.ack .le c.tcp.snd.nxt with
  | false =>
      rw [tcpHandleFinAck_of_not env c hack]
      exact .refl h
  | true =>
      rcases tcpHandleFinAck_of env c hack with ⟨htcp, _⟩
      exact .of_frame h hframe (by rw [htcp, takeFin]) fun _ => by rw [htcp, takeFin]

theorem pendingMove_processReceivedSeq (seg : Received) :
    PendingMove c (processReceivedSeq env c seg).1 :=
  .of_frame h (sendFrame_processReceivedSeq env c seg) (by simp) fun _ => by simp

/-- The fields of `tx_seg` change with text that is taken while it is pending. -/
theorem pendingMove_tcpHandleData {dat : Received}
    (hfree : dat.seq = c.tcp.rcv.nxt → 0 < tcpSegmentLength dat.toSegment → c.tcp.txSeg = none) :
    PendingMove c (tcpHandleData env c dat).1 := by
  have hframe := sendFrame_tcpHandleData env c dat
  rcases tcpHandleData_cases env c dat with ⟨heq, _⟩ | ⟨hseq, hlen, _⟩
  · rw [heq]
    exact .refl h
  · have hnone := hfree hseq hlen
    exact .of_none hframe.txData h (hframe.txSeg_eq_none.2 hnone) hframe.builtSegments

variable [TimerLib τ]

theorem pendingMove_ackedConn (s : TxSegment) : PendingMove c (ackedConn c s) :=
  .of_none rfl h rfl (by simp [ackedConn, builtSegments])

theorem pendingMove_tcpTxSegComplete (ack : UInt32) : PendingMove c (tcpTxSegComplete c ack) := by
  refine .of_none (by simp) h (by simp) ?_
  cases hs : c.tcp.txSeg <;> simp [tcpTxSegComplete, hs, builtSegments]

theorem pendingMove_tcpConstructData (hmem : env.AllocOk) :
    PendingMove c (tcpConstructData env c) := by
  rcases tcpConstructData_cases env c with heq | ⟨tx, rest, hs, hd⟩
  · rw [heq]
    exact .refl h
  · rcases tcpConstructData_cons env c hmem hs hd with ⟨htcp, sent, hlog⟩
    have hblock : ∀ b ∈ tx :: rest, b.bytes.length ≤ 65515 := by
      rw [← hd]
      exact h
    refine ⟨?_, [dataSegment c.tcp tx], by simp [hlog, builtSegments], ?_⟩
    · intro b hb
      rw [htcp] at hb
      exact hblock b (List.mem_cons_of_mem tx hb)
    · intro s hs'
      rw [htcp] at hs'
      cases hs'
      exact Or.inr ⟨by simp,
        wellPacked_newSegment _ _ _ (by decide) (hblock tx List.mem_cons_self)⟩

theorem pendingMove_tcpContructFinAck (hmem : env.AllocOk) :
    PendingMove c (tcpContructFinAck env c) := by
  rcases tcpContructFinAck_cases env c with heq | ⟨hs, hd, _⟩
  · rw [heq]
    exact .refl h
  · rw [tcpContructFinAck_of_empty env c hmem hs hd]
    refine ⟨by simp [SmallBlocks, hd], [finSegment c.tcp], by simp [builtSegments], ?_⟩
    rintro s ⟨⟩
    exact Or.inr ⟨by simp, wellPacked_newSegment _ _ _ (by decide) (by simp)⟩

theorem pendingMove_ackEstablished (hmem : env.AllocOk) (seg : Received) :
    PendingMove c (ackEstablished env c seg) := by
  rcases ackEstablished_cases env c seg with ⟨heq, _⟩ | ⟨s, _, _, _, heq⟩
  · rw [heq]
    exact .refl h
  · have hacked := pendingMove_ackedConn h s
    rw [heq]
    exact hacked.trans (pendingMove_tcpConstructData hacked.blocks hmem)

theorem pendingMove_ackWhenClosing (hmem : env.AllocOk) (seg : Received) (next : State) :
    PendingMove c (ackWhenClosing env c seg next) := by
  rcases ackWhenClosing_cases env c seg next with heq | ⟨_, _, _, _, _, heq⟩ | ⟨s, _, _, _, _, heq⟩
  · rw [heq]
    exact .refl h
  · rw [heq]
    exact (pendingMove_tcpTxSegComplete h seg.ack).setState next
  · have hacked := pendingMove_ackedConn h s
    rw [heq]
    exact hacked.trans (pendingMove_tcpConstructData hacked.blocks hmem)

theorem pendingMove_synAckReply (seg : Received) : PendingMove c (synAckReply env c seg) := by
  rcases synAckReply_cases env c seg with ⟨_, htcp, hlog⟩ | ⟨_, _, hest⟩
  · have hbuilt : builtSegments (synAckReply env c seg).log = builtSegments c.log := by
      rcases hlog with hlog | ⟨dg, _, hlog⟩ <;> simp [hlog, builtSegments]
    refine ⟨by rw [SmallBlocks, htcp]; exact h, [], by rw [hbuilt, List.append_nil], ?_⟩
    intro s hs
    rw [htcp] at hs
    exact Or.inl ⟨rfl, hs, by rw [htcp, takeSynAck]⟩
  · rw [hest]
    refine .of_none (by simp [takeSynAck]) h (by simp) ?_
    cases hs : c.tcp.txSeg <;>
      simp [tcpTxSegComplete, takeSynAck, hs, builtSegments, tcpSendCtrlSeg_log]

end Routines

/-! ## One event -/

section Events

variable [TimerLib τ] {env : Env} {c : Conn τ}

/-- An acknowledgment that frees the slot leaves it free. -/
theorem txSeg_ackEstablished {seg : Received}
    (hflags : ∀ s, c.tcp.txSeg = some s → segCtrlF s.toSegment = false)
    (hfree : FreesSlot c.tcp seg) : (ackEstablished env c seg).tcp.txSeg = none := by
  rcases ackEstablished_cases env c seg with ⟨heq, hnot⟩ | ⟨s, hs, _, _, heq⟩
  · rw [heq]
    rcases hfree with hnone | ⟨hack, _⟩
    · exact hnone
    · cases hs : c.tcp.txSeg with
      | none =>
          rfl
      | some s =>
          simp [hnot s hs (hflags s hs)] at hack
  · rcases hfree with hnone | ⟨_, hdata⟩
    · simp [hnone] at hs
    · have hempty : (ackedConn c s).tcp.txData = [] := hdata
      rw [heq, tcpConstructData_of_empty env _ hempty]
      rfl

/-- Text is taken only with a free slot. -/
theorem txSeg_of_bringsText {seg : Received}
    (hflags : ∀ s, c.tcp.txSeg = some s → segCtrlF s.toSegment = false)
    (hok : BringsText c.tcp seg → FreesSlot c.tcp seg) (hst : c.tcp.state = .established)
    (hacc : seqAccepted c.tcp seg.toSegment = true) (hR : segCtrlR seg.toSegment = false)
    (hA : segCtrlA seg.toSegment = true)
    (hseq : seg.seq = (ackEstablished env c seg).tcp.rcv.nxt)
    (hlen : 0 < tcpSegmentLength seg.toSegment) :
    (ackEstablished env c seg).tcp.txSeg = none := by
  rw [ackEstablished_rcv] at hseq
  exact txSeg_ackEstablished hflags (hok ⟨hst, hacc, hR, hA, hseq, hlen⟩)

theorem pendingMove_receivedWhenEstablished (h : SmallBlocks c) (hmem : env.AllocOk)
    (hst : c.tcp.state = .established) {seg : Received}
    (hflags : ∀ s, c.tcp.txSeg = some s → segCtrlF s.toSegment = false)
    (hok : BringsText c.tcp seg → FreesSlot c.tcp seg) :
    PendingMove c (receivedWhenEstablished env c seg) := by
  cases hacc : seqAccepted c.tcp seg.toSegment with
  | false =>
      rw [receivedWhenEstablished_of_rejected env c hacc]
      exact pendingMove_processReceivedSeq h seg
  | true =>
      by_cases hRA : segCtrlR seg.toSegment = true ∨ segCtrlA seg.toSegment = false
      · rw [receivedWhenEstablished_of_ignored env c hacc hRA]
        exact .refl h
      · rw [not_or, Bool.not_eq_true, Bool.not_eq_false] at hRA
        have hack : PendingMove c (ackEstablished env c seg) := pendingMove_ackEstablished h hmem seg
        have htext : PendingMove c (textEstablished env c seg) :=
          hack.trans (pendingMove_tcpHandleData hack.blocks
            (txSeg_of_bringsText hflags hok hst hacc hRA.1 hRA.2))
        rw [receivedWhenEstablished_of_ack env c hacc hRA.1 hRA.2]
        split
        · exact (htext.trans (pendingMove_tcpHandleFinAck htext.blocks seg)).setState _
        · exact htext

theorem pendingMove_receivedWhenSynSent (h : SmallBlocks c) (seg : Received) :
    PendingMove c (receivedWhenSynSent env c seg) := by
  rcases receivedWhenSynSent_cases env c seg with heq | ⟨_, _, _, heq⟩ | ⟨_, _, heq⟩
  · rw [heq]
    exact .refl h
  · rw [heq]
    exact .of_frame h (sendFrame_tcpSendCtrlSeg_rst env c _ _) (by simp) fun _ => by simp
  · rcases heq with ⟨_, heq⟩ | ⟨_, _, _, heq⟩
    · rw [heq]
      exact (PendingMove.refl h).setState _
    · rw [heq]
      exact pendingMove_synAckReply h seg

theorem pendingMove_tcpReceived (h : SmallBlocks c) (hinv : SendInv False c) (hmem : env.AllocOk)
    {seg : Received} (hok : BringsText c.tcp seg → FreesSlot c.tcp seg) :
    PendingMove c (tcpReceived env c seg) := by
  have hshape := hinv.shape
  have hfinAck : PendingMove c
      (if segCtrlAF seg.toSegment then (tcpHandleFinAck env c seg).1 else c) := by
    split
    · exact pendingMove_tcpHandleFinAck h seg
    · exact .refl h
  -- LISTEN and SYN_RECEIVED have no segment in the slot, and a frame leaves it empty
  have hempty : ∀ {c' : Conn τ}, SendFrame c c' → c.tcp.txSeg = none → PendingMove c c' :=
    fun hframe hnone => .of_none hframe.txData h (hframe.txSeg_eq_none.2 hnone) hframe.builtSegments
  cases hst : c.tcp.state with
  | listen =>
      rw [hst] at hshape
      simpa only [tcpReceived, hst, receivedEventProcess] using
        hempty (sendFrame_receivedWhenListen env c seg) hshape.2.1
  | synSent =>
      simpa only [tcpReceived, hst, receivedEventProcess] using
        pendingMove_receivedWhenSynSent h seg
  | synReceived =>
      rw [hst] at hshape
      simpa only [tcpReceived, hst, receivedEventProcess] using
        hempty (sendFrame_receivedWhenSynReceived env c seg) hshape.2.1
  | established =>
      rw [hst] at hshape
      have hflags : ∀ s, c.tcp.txSeg = some s → segCtrlF s.toSegment = false :=
        fun s hs => (ctrl_of_flags_ack (hshape.flags s hs)).2.2.2
      simpa only [tcpReceived, hst, receivedEventProcess] using
        pendingMove_receivedWhenEstablished h hmem hst hflags hok
  | finWait1 =>
      have hack := pendingMove_ackWhenClosing h hmem seg .finWait2
      simp only [tcpReceived, hst, receivedEventProcess, receivedWhenFinWait1]
      split
      · exact hack.trans (pendingMove_tcpContructFinAck hack.blocks hmem)
      · exact hack
  | lastAck =>
      have hack := pendingMove_ackWhenClosing h hmem seg .closed
      simp only [tcpReceived, hst, receivedEventProcess, receivedWhenLastAck]
      split
      · exact hack.trans (pendingMove_tcpContructFinAck hack.blocks hmem)
      · exact hack
  | finWait2 =>
      simp only [tcpReceived, hst, receivedEventProcess, receivedWhenFinWait2]
      split
      · have hwait : PendingMove c { c with
            tcp.state := .timeWait
            tcp.tmr := TimerLib.start c.tcp.tmr env.now c.tcp.timeWaitSeconds } :=
          .of_frame h (.of_log rfl rfl rfl rfl) rfl fun _ => rfl
        exact hwait.trans (pendingMove_tcpHandleFinAck hwait.blocks seg)
      · exact .refl h
  | timeWait =>
      simpa only [tcpReceived, hst, receivedEventProcess, receivedWhenTimeWait] using hfinAck
  | closeWait =>
      simpa only [tcpReceived, hst, receivedEventProcess, receivedWhenCloseWait] using hfinAck
  | closing | closed =>
      simpa only [tcpReceived, hst, receivedEventProcess] using PendingMove.refl h

omit [TimerLib τ] in
theorem smallBlocks_acceptData (h : SmallBlocks c) {data : List Byte}
    (hsize : data.length % 65536 ≤ 65515) : SmallBlocks (acceptData c data) := by
  intro b hb
  rcases List.mem_append.1 hb with hb | hb
  · exact h b hb
  · rw [List.mem_singleton.1 hb, dblkCopyFrom_new]
    simpa [Block.bytes] using hsize

theorem pendingMove_tcpSend (h : SmallBlocks c) (hmem : env.AllocOk) {data : List Byte}
    (hsize : c.tcp.state = .established → data.length % 65536 ≤ 65515) :
    PendingMove c (tcpSend env c data).1 := by
  by_cases hst : c.tcp.state = .established
  · have haccept : PendingMove c (acceptData c data) :=
      ⟨smallBlocks_acceptData h (hsize hst), [], by simp [acceptData, builtSegments],
        fun _ hs => Or.inl ⟨rfl, hs, rfl⟩⟩
    rw [tcpSend_of_established env c hst, if_pos (hmem _ _)]
    exact haccept.trans (pendingMove_tcpConstructData haccept.blocks hmem)
  · rw [tcpSend_of_not env c hst]
    exact .refl h

theorem pendingMove_step {w : WireConn τ} (h : SmallBlocks w.conn) (hinv : SendInv False w.conn)
    {e : Event × List Byte} (hok : PendingOk w e) : PendingMove w.conn (step w.conn e.1) := by
  rcases e with ⟨e, behind⟩
  cases e with
  | received env seg =>
      exact pendingMove_tcpReceived h hinv hok.1 hok.2
  | send env data =>
      exact pendingMove_tcpSend h hok.1 hok.2
  | recv data size =>
      refine .of_frame h (sendFrame_recvEvent _ data size) (by simp [step]) fun _ => by simp [step]
  | close env =>
      rcases tcpClose_cases env w.conn with ⟨_, heq⟩ | heq
      · rw [step, heq]
        exact (pendingMove_tcpContructFinAck h hok.1).setState _
      · rw [step, heq]
        exact .refl h
  | loop env =>
      have hstop : PendingMove w.conn (stopTimer w.conn) :=
        .of_frame h (sendFrame_stopTimer _) rfl fun _ => rfl
      rcases tcpLoopVisit_cases env w.conn with heq | ⟨_, heq⟩ | ⟨_, heq⟩ | ⟨_, _, heq⟩
      · rw [step, heq]
        exact .refl h
      · rw [step, heq]
        exact hstop.trans (.of_frame hstop.blocks (sendFrame_tcpRetransmit env _)
          (by rw [tcpRetransmit_tcp]) fun _ => by rw [tcpRetransmit_tcp])
      · rw [step, heq]
        exact hstop.setState _
      · rw [step, heq]
        exact hstop

/-! ## The acknowledgment number of the pending segment -/

theorem ackUpdated_tcpConstructData (hmem : env.AllocOk) (h : AckUpdated c) :
    AckUpdated (tcpConstructData env c) := by
  cases hs : c.tcp.txSeg with
  | some s =>
      rw [tcpConstructData_of_pending env c hs]
      exact h
  | none =>
      cases hd : c.tcp.txData with
      | nil =>
          rw [tcpConstructData_of_empty env c hd]
          exact h
      | cons tx rest =>
          rcases tcpConstructData_cons env c hmem hs hd with ⟨htcp, _⟩
          intro _ s hs'
          rw [htcp] at hs' ⊢
          cases hs'
          rfl

omit [TimerLib τ] in
theorem AckUpdated.of_none (h : c.tcp.txSeg = none) : AckUpdated c := by
  intro _ s hs
  simp [h] at hs

omit [TimerLib τ] in
theorem AckUpdated.congr {c' : Conn τ} (h : AckUpdated c) (hst : c'.tcp.state = c.tcp.state)
    (hseg : c'.tcp.txSeg = c.tcp.txSeg) (hrcv : c'.tcp.rcv = c.tcp.rcv) : AckUpdated c' := by
  intro hest s hs
  rw [hrcv]
  exact h (hst.symm.trans hest) s (hseg.symm.trans hs)

omit [TimerLib τ] in
theorem AckUpdated.of_state (h : c.tcp.state ≠ .established) : AckUpdated c :=
  fun hst => absurd hst h

theorem ackUpdated_receivedWhenEstablished (h : AckUpdated c) (hmem : env.AllocOk)
    (hst : c.tcp.state = .established) {seg : Received}
    (hflags : ∀ s, c.tcp.txSeg = some s → segCtrlF s.toSegment = false)
    (hok : BringsText c.tcp seg → FreesSlot c.tcp seg) :
    AckUpdated (receivedWhenEstablished env c seg) := by
  cases hacc : seqAccepted c.tcp seg.toSegment with
  | false =>
      rw [receivedWhenEstablished_of_rejected env c hacc]
      exact h.congr (by simp) (by simp) (by simp)
  | true =>
      by_cases hRA : segCtrlR seg.toSegment = true ∨ segCtrlA seg.toSegment = false
      · rw [receivedWhenEstablished_of_ignored env c hacc hRA]
        exact h
      · rw [not_or, Bool.not_eq_true, Bool.not_eq_false] at hRA
        rw [receivedWhenEstablished_of_ack env c hacc hRA.1 hRA.2]
        split
        · exact .of_state (by simp)
        · have hack : AckUpdated (ackEstablished env c seg) := by
            rcases ackEstablished_cases env c seg with ⟨heq, _⟩ | ⟨s, _, _, _, heq⟩
            · rwa [heq]
            · rw [heq]
              exact ackUpdated_tcpConstructData hmem (.of_none rfl)
          rcases tcpHandleData_cases env (ackEstablished env c seg) seg with
            ⟨heq, _⟩ | ⟨hseq, hlen, _⟩
          · rw [textEstablished, heq]
            exact hack
          · -- with text taken the slot is free
            have hnone : (ackEstablished env c seg).tcp.txSeg = none :=
              txSeg_of_bringsText hflags hok hst hacc hRA.1 hRA.2 hseq hlen
            exact .of_none ((sendFrame_tcpHandleData env _ seg).txSeg_eq_none.2 hnone)

/-- SYN_SENT leads to ESTABLISHED by completing the SYN. -/
theorem ackUpdated_receivedWhenSynSent (hst : c.tcp.state = .synSent) (seg : Received) :
    AckUpdated (receivedWhenSynSent env c seg) := by
  rcases receivedWhenSynSent_cases env c seg with heq | ⟨_, _, _, heq⟩ | ⟨_, _, heq⟩
  · exact .of_state (by simp [heq, hst])
  · exact .of_state (by simp [heq, hst])
  · rcases heq with ⟨_, heq⟩ | ⟨_, _, _, heq⟩
    · exact .of_state (by simp [heq])
    · rw [heq]
      rcases synAckReply_cases env c seg with ⟨_, htcp, _⟩ | ⟨_, _, hest⟩
      · exact .of_state (by simp [htcp, takeSynAck, hst])
      · exact .of_none (by simp [hest])

theorem ackUpdated_tcpReceived (h : AckUpdated c) (hinv : SendInv False c) (hmem : env.AllocOk)
    {seg : Received} (hok : BringsText c.tcp seg → FreesSlot c.tcp seg) :
    AckUpdated (tcpReceived env c seg) := by
  have hshape := hinv.shape
  have hfollows := tcpReceived_mem_follows env c seg
  cases hst : c.tcp.state with
  | synSent =>
      simpa only [tcpReceived, hst, receivedEventProcess] using
        ackUpdated_receivedWhenSynSent hst seg
  | synReceived =>
      rw [hst] at hshape
      have hframe := sendFrame_receivedWhenSynReceived env c seg
      simpa only [tcpReceived, hst, receivedEventProcess] using
        AckUpdated.of_none (hframe.txSeg_eq_none.2 hshape.2.1)
  | established =>
      rw [hst] at hshape
      have hflags : ∀ s, c.tcp.txSeg = some s → segCtrlF s.toSegment = false :=
        fun s hs => (ctrl_of_flags_ack (hshape.flags s hs)).2.2.2
      simpa only [tcpReceived, hst, receivedEventProcess] using
        ackUpdated_receivedWhenEstablished h hmem hst hflags hok
  | _ =>
      -- nothing else leads to ESTABLISHED
      refine .of_state fun hest => ?_
      rw [hst, hest] at hfollows
      simp [follows] at hfollows

theorem ackUpdated_step {w : WireConn τ} (h : AckUpdated w.conn) (hinv : SendInv False w.conn)
    {e : Event × List Byte} (hok : PendingOk w e) : AckUpdated (step w.conn e.1) := by
  rcases e with ⟨e, behind⟩
  cases e with
  | received env seg =>
      exact ackUpdated_tcpReceived h hinv hok.1 hok.2
  | send env data =>
      by_cases hst : w.conn.tcp.state = .established
      · have haccept : AckUpdated (acceptData w.conn data) := h.congr rfl rfl rfl
        rw [step, tcpSend_of_established env _ hst, if_pos (hok.1 _ _)]
        exact ackUpdated_tcpConstructData hok.1 haccept
      · rw [step, tcpSend_of_not env _ hst]
        exact h
  | recv data size =>
      exact h.congr (by simp [step]) (by simp [step]) (by simp [step])
  | close env =>
      rcases tcpClose_cases env w.conn with ⟨hst, heq⟩ | heq
      · refine .of_state ?_
        rcases hst with hst | hst <;> simp [step, heq, hst, closeState]
      · rw [step, heq]
        exact h
  | loop env =>
      have hstop : AckUpdated (stopTimer w.conn) := h.congr rfl rfl rfl
      rcases tcpLoopVisit_cases env w.conn with heq | ⟨_, heq⟩ | ⟨_, heq⟩ | ⟨_, _, heq⟩
      · rw [step, heq]
        exact h
      · rw [step, heq]
        exact hstop.congr (by rw [tcpRetransmit_tcp]) (by rw [tcpRetransmit_tcp])
          (by rw [tcpRetransmit_tcp])
      · exact .of_state (by simp [step, heq])
      · rw [step, heq]
        exact hstop

end Events

/-! ## Runs -/

/-- The fields of the pending segment are those that were packed, when its bytes were written. -/
structure PendingInv (w : WireConn τ) : Prop where
  send : SendInv False w.conn
  blocks : SmallBlocks w.conn
  packed : ∀ s, w.conn.tcp.txSeg = some s →
    WellPacked s ∧ w.rawData = packedBytes w.conn.tcp w.behind
  acked : AckUpdated w.conn

/-- What was packed decodes, as long as fields and packed bytes go together. -/
theorem PendingInv.bytesMatch {w : WireConn τ} (h : PendingInv w) : BytesMatch w := by
  intro s hs beyond hodd
  rcases h.packed s hs with ⟨hpacked, hraw⟩
  have hbytes : w.rawData =
      tcpPackHeader w.conn.tcp.localhost.addr.addr w.conn.tcp.dest.addr ipProtocolTcp s.toSegment
        w.behind ++ s.payload := by
    rw [hraw, packedBytes, hs, Option.bind_some, hpacked.rawData]
  rw [hbytes]
  exact decodesTo_tcpPackHeader _ _ _ _ hpacked.offset hpacked.flags hpacked.size hodd

section Runs

variable [TimerLib τ]

theorem pendingInv_step {w : WireConn τ} (h : PendingInv w) {e : Event × List Byte}
    (hok : PendingOk w e) : PendingInv (wireStep w e) := by
  have hmove := pendingMove_step h.blocks h.send hok
  have hsend : SendInv False (step w.conn e.1) := sendInv_step h.send hok.1 False.elim
  have hacked := ackUpdated_step h.acked h.send hok
  have hhost : (step w.conn e.1).tcp.localhost = w.conn.tcp.localhost :=
    congrArg Binding.localhost (binding_step w.conn e.1)
  rcases hmove.slot with ⟨built, hbuilt, hslot⟩
  refine ⟨?_, ?_, ?_, ?_⟩
  · rw [wireStep, writeRawData_conn]
    exact hsend
  · rw [wireStep, writeRawData_conn]
    exact hmove.blocks
  · intro s hs
    rw [wireStep, writeRawData_conn] at hs
    rcases hslot s hs with ⟨hnil, hs₀, hdest⟩ | ⟨hne, hpacked⟩
    · -- the same segment in the same memory
      rcases h.packed s hs₀ with ⟨hpacked, hraw⟩
      refine ⟨hpacked, ?_⟩
      rw [hnil, List.append_nil] at hbuilt
      rw [wireStep, writeRawData, if_pos hbuilt, hraw, packedBytes, packedBytes, hs, hs₀, hhost,
        hdest]
    · have hnew : ¬ builtSegments (step w.conn e.1).log = builtSegments w.conn.log := by
        rw [hbuilt]
        simpa using hne
      refine ⟨hpacked, ?_⟩
      rw [wireStep, writeRawData, if_neg hnew]
  · rw [wireStep, writeRawData_conn]
    exact hacked

theorem pendingInv_open {c : Conn τ} (hopen : OpenedOk c) (behind : List Byte) :
    PendingInv (wireOpen c behind) := by
  have hsend : SendInv False c := sendInv_opened hopen
  rcases hopen with ⟨env, ip, port, dest, destPort, hmem, h⟩
  cases dest with
  | none =>
      rw [tcpOpenConn_passive] at h
      cases h
      refine ⟨hsend, ?_, ?_, .of_none rfl⟩
      · intro b hb
        cases hb
      · intro s hs
        cases hs
  | some dest =>
      rcases tcpOpenConn_active (τ := τ) env hmem ip port dest destPort with ⟨sent, _, h'⟩
      rw [h'] at h
      cases h
      refine ⟨hsend, ?_, ?_, .of_state (by simp [wireOpen, synSentTcb])⟩
      · intro b hb
        cases hb
      · rintro s ⟨⟩
        exact ⟨wellPacked_newSegment _ _ _ (by decide) (by simp), rfl⟩

/-- In every state of a run in which no text is taken while a segment is pending, the bytes that a
retransmission sends decode to the fields of the pending segment, and these acknowledge all text
that was taken. -/
theorem pending_bytes_match {c₀ : Conn τ} {behind : List Byte} {es : List (Event × List Byte)}
    (hopen : OpenedOk c₀) (h : Machine.Along wireStep PendingOk (wireOpen c₀ behind) es) :
    let w := Machine.run wireStep (wireOpen c₀ behind) es
    w.conn = runConn c₀ (es.map Prod.fst) ∧ BytesMatch w ∧ AckUpdated w.conn := by
  have hstep : ∀ (w : WireConn τ) (e : Event × List Byte), PendingInv w → PendingOk w e →
      PendingInv (wireStep w e) := fun _ _ hw hok => pendingInv_step hw hok
  have hinv := Machine.run_invariant wireStep hstep (pendingInv_open hopen behind) h
  exact ⟨wireRun_conn _ es, hinv.bytesMatch, hinv.acked⟩

end Runs

/-- Text comes before anything is sent, and two bytes are sent then. -/
theorem pending_bytes_match_sample :
    let es : List (Event × List Byte) :=
      [(.received (.working 101) (peerSegment 700 101 (segFlagSyn ||| segFlagAck) []), []),
        (.received (.working 102) (peerSegment 701 101 segFlagAck [9]), []),
        (.send (.working 103) [1, 2], [])]
    let w := Machine.run wireStep (wireOpen (sampleConn 100 (some samplePeer)) []) es
    w.conn = runConn (sampleConn 100 (some samplePeer)) (es.map Prod.fst) ∧ BytesMatch w ∧
      AckUpdated w.conn := by
  intro es w
  refine pending_bytes_match (openedOk_sampleConn _ _) ⟨⟨Env.allocOk_working _, ?_⟩,
    ⟨Env.allocOk_working _, ?_⟩, ⟨Env.allocOk_working _, ?_⟩, trivial⟩
  · intro htext
    exact absurd htext.state (by decide)
  · intro _
    exact Or.inl (by decide)
  · intro _
    decide

/-- Two bytes are sent, and one byte of the peer arrives that acknowledges nothing new.  The fields of
the pending segment acknowledge 702, its bytes 701, and so does the retransmission. -/
theorem pending_bytes_match_fails_sample :
    let es : List (Event × List Byte) :=
      [(.received (.working 101) (peerSegment 700 101 (segFlagSyn ||| segFlagAck) []), []),
        (.send (.working 102) [1, 2], []),
        (.received (.working 103) (peerSegment 701 101 segFlagAck [9]), [])]
    let w := Machine.run wireStep (wireOpen (sampleConn 100 (some samplePeer)) []) es
    (w.conn.tcp.txSeg.map fun s => s.ack) = some 702 ∧ w.conn.tcp.rcv.nxt = 702 ∧
      ¬ BytesMatch w ∧
      ((outputs (step w.conn (.loop (.working 110))).log).map fun dg => dg.seg.ack).getLast? =
        some 701 := by
  intro es w
  have hs : ∃ s, w.conn.tcp.txSeg = some s ∧ s.ack = 702 ∧ s.payload.length = 2 :=
    ⟨_, rfl, by decide, by decide⟩
  have hraw : (tcpUnpack w.conn.tcp.localhost.addr.addr w.conn.tcp.dest.addr ipProtocolTcp
      (w.rawData ++ []) (UInt16.ofNat w.rawData.length)).map TcpSegment.ack = some 701 := by
    decide +kernel
  refine ⟨by decide, by decide, ?_, by decide⟩
  intro hmatch
  rcases hs with ⟨s, hs, hack, hlen⟩
  rcases hmatch s hs [] (by simp [hlen]) with ⟨u, hu, _, _, _, hack', _⟩
  rw [hu, Option.map_some, Option.some.injEq, hack', hack] at hraw
  exact absurd hraw (by decide)

end Tcp
end DtsNet
