import DtsNet.Tcp.Events

/-!
# Spec — what each routine does

For each routine, the control block and the record it leaves.  The proofs about runs use these
lemmas and do not unfold the routines again.
-/

namespace DtsNet
namespace Tcp

open Ip Dblk

/-! ## Control flags -/

theorem ctrl_of_flags_ack {seg : Segment} (h : seg.flags = segFlagAck) :
    segCtrlA seg = true ∧ segCtrlS seg = false ∧ segCtrlR seg = false ∧ segCtrlF seg = false := by
  simp only [segCtrlA, segCtrlS, segCtrlR, segCtrlF, h]
  decide

theorem ctrl_of_flags_rst {seg : Segment} (h : seg.flags = segFlagRst) :
    segCtrlA seg = false ∧ segCtrlS seg = false ∧ segCtrlR seg = true ∧ segCtrlF seg = false := by
  simp only [segCtrlA, segCtrlS, segCtrlR, segCtrlF, h]
  decide

theorem ctrl_of_flags_syn {seg : Segment} (h : seg.flags = segFlagSyn) :
    segCtrlA seg = false ∧ segCtrlS seg = true ∧ segCtrlR seg = false ∧ segCtrlF seg = false := by
  simp only [segCtrlA, segCtrlS, segCtrlR, segCtrlF, h]
  decide

theorem ctrl_of_flags_synAck {seg : Segment} (h : seg.flags = segFlagSyn ||| segFlagAck) :
    segCtrlA seg = true ∧ segCtrlS seg = true ∧ segCtrlR seg = false ∧ segCtrlF seg = false := by
  simp only [segCtrlA, segCtrlS, segCtrlR, segCtrlF, h]
  decide

theorem ctrl_of_flags_finAck {seg : Segment} (h : seg.flags = segFlagFin ||| segFlagAck) :
    segCtrlA seg = true ∧ segCtrlS seg = false ∧ segCtrlR seg = false ∧ segCtrlF seg = true := by
  simp only [segCtrlA, segCtrlS, segCtrlR, segCtrlF, h]
  decide

theorem tcpSegmentLength_of_flags_ack {seg : Segment} (h : seg.flags = segFlagAck) :
    tcpSegmentLength seg = seg.payload.length := by
  rcases ctrl_of_flags_ack h with ⟨_, hS, _, hF⟩
  exact tcpSegmentLength_of_plain hS hF

theorem tcpSegmentLength_of_flags_rst {seg : Segment} (h : seg.flags = segFlagRst) :
    tcpSegmentLength seg = seg.payload.length := by
  rcases ctrl_of_flags_rst h with ⟨_, hS, _, hF⟩
  exact tcpSegmentLength_of_plain hS hF

theorem tcpSegmentLength_of_flags_syn {seg : Segment} (h : seg.flags = segFlagSyn) :
    tcpSegmentLength seg = 1 + seg.payload.length := by
  rcases ctrl_of_flags_syn h with ⟨_, hS, _, hF⟩
  simp [tcpSegmentLength, hS, hF]

theorem tcpSegmentLength_of_flags_synAck {seg : Segment}
    (h : seg.flags = segFlagSyn ||| segFlagAck) : tcpSegmentLength seg = 1 + seg.payload.length := by
  rcases ctrl_of_flags_synAck h with ⟨_, hS, _, hF⟩
  simp [tcpSegmentLength, hS, hF]

theorem tcpSegmentLength_of_flags_finAck {seg : Segment}
    (h : seg.flags = segFlagFin ||| segFlagAck) : tcpSegmentLength seg = seg.payload.length + 1 := by
  rcases ctrl_of_flags_finAck h with ⟨_, hS, _, hF⟩
  simp [tcpSegmentLength, hS, hF]

variable {τ : Type} (env : Env) (c : Conn τ)

/-! ## Segments the connection makes -/

section NewSegment

variable (t : Tcb τ) (seq ack : UInt32) (flags : UInt16) (payload : List Byte)

@[simp] theorem newSegment_seq : (newSegment t seq ack flags payload).seq = seq := rfl

@[simp] theorem newSegment_ack : (newSegment t seq ack flags payload).ack = ack := rfl

@[simp] theorem newSegment_flags : (newSegment t seq ack flags payload).flags = flags := rfl

@[simp] theorem newSegment_payload : (newSegment t seq ack flags payload).payload = payload := rfl

@[simp] theorem packTxSegment_toSegment (header : Bool) (seg : Segment) :
    (packTxSegment header seg).toSegment = seg := rfl

@[simp] theorem packTxSegment_rawData (seg : Segment) :
    (packTxSegment true seg).rawData = some seg := rfl

end NewSegment

/-- The datagram that carries a segment of the connection. -/
def connDatagram (t : Tcb τ) (seg : Segment) : Datagram :=
  { src := t.localhost.addr, dest := t.dest, seg := seg }

/-! ## Sending -/

@[simp] theorem tcpIpSend_tcp (raw : Option Segment) : (tcpIpSend env c raw).1.tcp = c.tcp := rfl

theorem tcpIpSend_log (raw : Option Segment) :
    (tcpIpSend env c raw).1.log =
      c.log ++ [.output (raw.map (connDatagram c.tcp)) (env.malloc .copy c.log && env.ipHlSend c.log)] :=
  rfl

theorem tcpSendCtrlSeg_log (seq ack : UInt32) (flags : UInt16) :
    (tcpSendCtrlSeg env c seq ack flags).1.log =
      c.log ++ [.output (some (connDatagram c.tcp (newSegment c.tcp seq ack flags [])))
        (env.malloc .copy c.log && env.ipHlSend c.log)] := by
  cases h : env.ipHlSend c.log <;>
    simp [tcpSendCtrlSeg, tcpIpSend, connDatagram, h]

theorem tcpSendCtrlSeg_ok (seq ack : UInt32) (flags : UInt16) :
    (tcpSendCtrlSeg env c seq ack flags).2 = env.ipHlSend c.log := by
  cases h : env.ipHlSend c.log <;>
    simp [tcpSendCtrlSeg, tcpIpSend, h]

theorem tcpSendCtrlSeg_tcp_of_length_zero {seq ack : UInt32} {flags : UInt16}
    (h0 : tcpSegmentLength (newSegment c.tcp seq ack flags []) = 0) :
    (tcpSendCtrlSeg env c seq ack flags).1.tcp = c.tcp := by
  cases h : env.ipHlSend c.log <;>
    simp [tcpSendCtrlSeg, tcpIpSend, h, h0]

@[simp] theorem tcpSendCtrlSeg_ack_tcp (seq ack : UInt32) :
    (tcpSendCtrlSeg env c seq ack segFlagAck).1.tcp = c.tcp :=
  tcpSendCtrlSeg_tcp_of_length_zero env c (tcpSegmentLength_of_flags_ack rfl)

@[simp] theorem tcpSendCtrlSeg_rst_tcp (seq ack : UInt32) :
    (tcpSendCtrlSeg env c seq ack segFlagRst).1.tcp = c.tcp :=
  tcpSendCtrlSeg_tcp_of_length_zero env c (tcpSegmentLength_of_flags_rst rfl)

/-- A SYN,ACK takes one sequence number if the IP layer accepts it. -/
theorem tcpSendCtrlSeg_synAck_tcp (seq ack : UInt32) :
    (tcpSendCtrlSeg env c seq ack (segFlagSyn ||| segFlagAck)).1.tcp =
      if env.ipHlSend c.log then { c.tcp with snd.nxt := c.tcp.snd.nxt + 1 } else c.tcp := by
  have hlen : tcpSegmentLength (newSegment c.tcp seq ack (segFlagSyn ||| segFlagAck) []) = 1 :=
    tcpSegmentLength_of_flags_synAck rfl
  cases h : env.ipHlSend c.log <;>
    simp [tcpSendCtrlSeg, tcpIpSend, h, hlen]

/-! ## The sequence check -/

/-- Whether `process_received_seq` lets the segment through. -/
def seqAccepted (t : Tcb τ) (seg : Segment) : Bool :=
  let segLen := tcpSegmentLength seg
  let wndEnd := t.rcv.nxt + t.rcv.wnd.toUInt32
  t.rcv.wnd != 0 &&
    (sncmp t.rcv.nxt .le seg.seq .ls wndEnd ||
      segLen != 0 && sncmp t.rcv.nxt .le (seg.seq + UInt32.ofNat segLen - 1) .ls wndEnd)

theorem processReceivedSeq_of_accepted {seg : Received}
    (h : seqAccepted c.tcp seg.toSegment = true) : processReceivedSeq env c seg = (c, true) := by
  simp only [seqAccepted, Bool.and_eq_true, Bool.or_eq_true, bne_iff_ne, ne_eq] at h
  rcases h with ⟨hwnd, hfirst | ⟨hlen, hlast⟩⟩
  · simp [processReceivedSeq, hwnd, hfirst]
  · simp [processReceivedSeq, hwnd, hlen, hlast]

/-- A rejected segment is answered with a bare acknowledgment or not at all. -/
theorem processReceivedSeq_of_rejected {seg : Received}
    (h : seqAccepted c.tcp seg.toSegment = false) :
    (processReceivedSeq env c seg).2 = false ∧
      ((processReceivedSeq env c seg).1 = c ∨
        segCtrlR seg.toSegment = false ∧ (processReceivedSeq env c seg).1 =
          (tcpSendCtrlSeg env c c.tcp.snd.nxt c.tcp.rcv.nxt segFlagAck).1) := by
  have hun : (segUnacceptable env c seg).2 = false ∧ ((segUnacceptable env c seg).1 = c ∨
      segCtrlR seg.toSegment = false ∧ (segUnacceptable env c seg).1 =
        (tcpSendCtrlSeg env c c.tcp.snd.nxt c.tcp.rcv.nxt segFlagAck).1) := by
    cases hR : segCtrlR seg.toSegment <;> simp [segUnacceptable, hR]
  by_cases hwnd : c.tcp.rcv.wnd = 0
  · by_cases hlen : tcpSegmentLength seg.toSegment = 0
    · simp [processReceivedSeq, hwnd, hlen]
    · simpa [processReceivedSeq, hwnd, hlen] using hun
  · have hwnd' : (c.tcp.rcv.wnd != 0) = true := by simpa using hwnd
    simp only [seqAccepted, hwnd', Bool.true_and, Bool.or_eq_false_iff] at h
    rcases h with ⟨hfirst, hlast⟩
    by_cases hlen : tcpSegmentLength seg.toSegment = 0
    · simpa [processReceivedSeq, hwnd, hlen, hfirst] using hun
    · have hlast' : sncmp c.tcp.rcv.nxt .le
          (seg.seq + UInt32.ofNat (tcpSegmentLength seg.toSegment) - 1) .ls
          (c.tcp.rcv.nxt + c.tcp.rcv.wnd.toUInt32) = false := by
        simpa [hlen] using hlast
      simpa [processReceivedSeq, hwnd, hlen, hfirst, hlast'] using hun

theorem processReceivedSeq_ok (seg : Received) :
    (processReceivedSeq env c seg).2 = seqAccepted c.tcp seg.toSegment := by
  cases h : seqAccepted c.tcp seg.toSegment with
  | false =>
      exact (processReceivedSeq_of_rejected env c h).1
  | true =>
      rw [processReceivedSeq_of_accepted env c h]

@[simp] theorem processReceivedSeq_tcp (seg : Received) :
    (processReceivedSeq env c seg).1.tcp = c.tcp := by
  cases h : seqAccepted c.tcp seg.toSegment with
  | false =>
      rcases (processReceivedSeq_of_rejected env c h).2 with h | ⟨_, h⟩ <;> simp [h]
  | true =>
      rw [processReceivedSeq_of_accepted env c h]

/-! ## Text and FIN -/

/-- How many numbers `tcp_handle_data` takes from a segment. -/
def textLength (t : Tcb τ) (dat : Received) : ℕ :=
  min t.rcv.wnd.toNat (tcpSegmentLength dat.toSegment)

def textBytes (t : Tcb τ) (dat : Received) : List Byte :=
  memRead (dat.payload ++ dat.beyond) (textLength t dat)

@[simp] theorem length_textBytes (t : Tcb τ) (dat : Received) :
    (textBytes t dat).length = textLength t dat := by
  simp [textBytes]

/-- The control block after the text of a segment was queued. -/
def takeText (t : Tcb τ) (dat : Received) : Tcb τ :=
  { t with
    rxData := t.rxData ++ [[{ data := textBytes t dat, offset := 0 }]]
    rcv.nxt := t.rcv.nxt + UInt32.ofNat (textLength t dat)
    txSeg := t.txSeg.map fun seg =>
      { seg with ack := t.rcv.nxt + UInt32.ofNat (textLength t dat) } }

theorem ite_eq_textLength (t : Tcb τ) (dat : Received) :
    (if t.rcv.wnd.toNat < tcpSegmentLength dat.toSegment then t.rcv.wnd.toNat
      else tcpSegmentLength dat.toSegment) = textLength t dat := by
  unfold textLength
  split <;> omega

/-- The window bounds it, so that the length of the block is not cut. -/
theorem textLength_mod (t : Tcb τ) (dat : Received) :
    textLength t dat % 65536 = textLength t dat := by
  have := t.rcv.wnd.toNat_lt
  apply Nat.mod_eq_of_lt
  unfold textLength
  omega

theorem tcpHandleData_cases (dat : Received) :
    ((tcpHandleData env c dat).1 = c ∧ (dat.seq = c.tcp.rcv.nxt →
        0 < tcpSegmentLength dat.toSegment → env.malloc .rxBlock c.log = false)) ∨
      dat.seq = c.tcp.rcv.nxt ∧ 0 < tcpSegmentLength dat.toSegment ∧
        (tcpHandleData env c dat).1.tcp = takeText c.tcp dat ∧
        ∃ l, (tcpHandleData env c dat).1.log = c.log ++ [.queued (textBytes c.tcp dat)] ++ l ∧
          (l = [] ∨ ∃ sent, l = [.output (some (connDatagram c.tcp (newSegment c.tcp c.tcp.snd.una
            (takeText c.tcp dat).rcv.nxt segFlagAck []))) sent]) := by
  by_cases hseq : dat.seq = c.tcp.rcv.nxt
  · by_cases hlen : 0 < tcpSegmentLength dat.toSegment
    · by_cases hmem : env.malloc .rxBlock c.log = true
      · right
        have hn := ite_eq_textLength c.tcp dat
        have hmod := textLength_mod c.tcp dat
        refine ⟨hseq, hlen, ?_⟩
        cases htx : c.tcp.txSeg with
        | none =>
            let log := c.log ++ [Action.queued (textBytes c.tcp dat)]
            refine ⟨?_, _, ?_, Or.inr ⟨env.malloc .copy log && env.ipHlSend log, rfl⟩⟩
            · simp [tcpHandleData, hseq, hlen, hmem, hn, hmod, htx, dblkCopyFrom_new, takeText,
                textBytes]
            · simp [tcpHandleData, hseq, hlen, hmem, hn, hmod, htx, dblkCopyFrom_new, takeText,
                textBytes, tcpSendCtrlSeg_log, connDatagram, newSegment, Block.bytes, log]
        | some seg =>
            refine ⟨?_, [], ?_, Or.inl rfl⟩
            · simp [tcpHandleData, hseq, hlen, hmem, hn, hmod, htx, dblkCopyFrom_new, takeText,
                textBytes]
            · simp [tcpHandleData, hseq, hlen, hmem, hn, hmod, htx, dblkCopyFrom_new,
                textBytes, Block.bytes]
      · left
        exact ⟨by simp [tcpHandleData, hseq, hlen, hmem], fun _ _ => by simpa using hmem⟩
    · left
      exact ⟨by simp [tcpHandleData, hseq, hlen], fun _ h => absurd h hlen⟩
  · left
    exact ⟨by simp [tcpHandleData, hseq], fun h => absurd h hseq⟩

theorem tcpHandleFinAck_of_not {seg : Received}
    (h : sncmp c.tcp.snd.una .ls seg.ack .le c.tcp.snd.nxt = false) :
    (tcpHandleFinAck env c seg).1 = c := by
  simp [tcpHandleFinAck, h]

@[simp] theorem tcpHandleData_state (dat : Received) :
    (tcpHandleData env c dat).1.tcp.state = c.tcp.state := by
  rcases tcpHandleData_cases env c dat with ⟨h, _⟩ | ⟨_, _, htcp, _⟩
  · rw [h]
  · rw [htcp, takeText]

@[simp] theorem tcpHandleData_snd (dat : Received) :
    (tcpHandleData env c dat).1.tcp.snd = c.tcp.snd := by
  rcases tcpHandleData_cases env c dat with ⟨h, _⟩ | ⟨_, _, htcp, _⟩
  · rw [h]
  · rw [htcp, takeText]

@[simp] theorem tcpHandleData_tmr (dat : Received) :
    (tcpHandleData env c dat).1.tcp.tmr = c.tcp.tmr := by
  rcases tcpHandleData_cases env c dat with ⟨h, _⟩ | ⟨_, _, htcp, _⟩
  · rw [h]
  · rw [htcp, takeText]

/-- The control block after `tcp_handle_fin_ack` accepted a segment. -/
def takeFin (t : Tcb τ) (seg : Received) : Tcb τ :=
  { t with snd.una := seg.ack, rcv.nxt := seg.seq + 1 }

theorem tcpHandleFinAck_of {seg : Received}
    (h : sncmp c.tcp.snd.una .ls seg.ack .le c.tcp.snd.nxt = true) :
    (tcpHandleFinAck env c seg).1.tcp = takeFin c.tcp seg ∧
      ∃ sent, (tcpHandleFinAck env c seg).1.log =
        c.log ++ [.output (some (connDatagram c.tcp
          (newSegment c.tcp seg.ack (seg.seq + 1) segFlagAck []))) sent] := by
  constructor
  · simp [tcpHandleFinAck, h, takeFin]
  · refine ⟨env.malloc .copy c.log && env.ipHlSend c.log, ?_⟩
    simp [tcpHandleFinAck, h, tcpSendCtrlSeg_log, connDatagram, newSegment]

@[simp] theorem tcpHandleFinAck_state (seg : Received) :
    (tcpHandleFinAck env c seg).1.tcp.state = c.tcp.state := by
  cases h : sncmp c.tcp.snd.una .ls seg.ack .le c.tcp.snd.nxt with
  | false =>
      rw [tcpHandleFinAck_of_not env c h]
  | true =>
      rw [(tcpHandleFinAck_of env c h).1, takeFin]

@[simp] theorem tcpHandleFinAck_tmr (seg : Received) :
    (tcpHandleFinAck env c seg).1.tcp.tmr = c.tcp.tmr := by
  cases h : sncmp c.tcp.snd.una .ls seg.ack .le c.tcp.snd.nxt with
  | false =>
      rw [tcpHandleFinAck_of_not env c h]
  | true =>
      rw [(tcpHandleFinAck_of env c h).1, takeFin]

@[simp] theorem recvEvent_state (data : List Byte) (size : ℕ) :
    (recvEvent c data size).tcp.state = c.tcp.state := by
  cases h : c.tcp.state <;>
    simp [recvEvent, tcpRecv, recvEventProcess, recvWhenEstablished, h]

@[simp] theorem recvEvent_tmr (data : List Byte) (size : ℕ) :
    (recvEvent c data size).tcp.tmr = c.tcp.tmr := by
  cases h : c.tcp.state <;>
    simp [recvEvent, tcpRecv, recvEventProcess, recvWhenEstablished, h]

@[simp] theorem recvEvent_rcv (data : List Byte) (size : ℕ) :
    (recvEvent c data size).tcp.rcv = c.tcp.rcv := by
  cases h : c.tcp.state <;>
    simp [recvEvent, tcpRecv, recvEventProcess, recvWhenEstablished, h]

@[simp] theorem recvEvent_txSeg (data : List Byte) (size : ℕ) :
    (recvEvent c data size).tcp.txSeg = c.tcp.txSeg := by
  cases h : c.tcp.state <;>
    simp [recvEvent, tcpRecv, recvEventProcess, recvWhenEstablished, h]

@[simp] theorem recvEvent_dest (data : List Byte) (size : ℕ) :
    (recvEvent c data size).tcp.dest = c.tcp.dest := by
  cases h : c.tcp.state <;>
    simp [recvEvent, tcpRecv, recvEventProcess, recvWhenEstablished, h]

theorem recvEvent_log (data : List Byte) (size : ℕ) :
    ∃ bs, (recvEvent c data size).log = c.log ++ [.returned bs] := by
  have h : (tcpRecv c data size).1.log = c.log := by
    cases h : c.tcp.state <;>
      simp [tcpRecv, recvEventProcess, recvWhenEstablished, h]
  exact ⟨memRead (tcpRecv c data size).2.1 (tcpRecv c data size).2.2, by rw [recvEvent, h]⟩

@[simp] theorem recvEvent_snd (data : List Byte) (size : ℕ) :
    (recvEvent c data size).tcp.snd = c.tcp.snd := by
  cases h : c.tcp.state <;>
    simp [recvEvent, tcpRecv, recvEventProcess, recvWhenEstablished, h]

variable [TimerLib τ]

/-! ## The segment in `tx_seg` -/

theorem tcpRetransmit_tcp :
    (tcpRetransmit env c).tcp =
      { c.tcp with tmr := TimerLib.start c.tcp.tmr env.now 5 } := by
  cases h : c.tcp.txSeg <;> simp [tcpRetransmit, h]

theorem tcpRetransmit_log :
    (tcpRetransmit env c).log = c.log ∨
      ∃ seg sent, c.tcp.txSeg = some seg ∧ (tcpRetransmit env c).log =
        c.log ++ [.output (seg.rawData.map (connDatagram c.tcp)) sent] := by
  cases h : c.tcp.txSeg with
  | none =>
      left
      simp [tcpRetransmit, h]
  | some seg =>
      right
      refine ⟨seg, env.malloc .copy c.log && env.ipHlSend c.log, rfl, ?_⟩
      simp [tcpRetransmit, h, tcpIpSend_log]

theorem tcpTxSegComplete_some {seg : TxSegment} (h : c.tcp.txSeg = some seg) (ack : UInt32) :
    tcpTxSegComplete c ack =
      { tcp := { c.tcp with txSeg := none, tmr := TimerLib.stop c.tcp.tmr }
        log := c.log ++ [.completed seg.toSegment ack c.tcp.snd.nxt] } := by
  simp [tcpTxSegComplete, h]

@[simp] theorem tcpTxSegComplete_state (ack : UInt32) :
    (tcpTxSegComplete c ack).tcp.state = c.tcp.state := by
  cases h : c.tcp.txSeg <;> simp [tcpTxSegComplete, h]

@[simp] theorem tcpTxSegComplete_rcv (ack : UInt32) :
    (tcpTxSegComplete c ack).tcp.rcv = c.tcp.rcv := by
  cases h : c.tcp.txSeg <;> simp [tcpTxSegComplete, h]

@[simp] theorem tcpTxSegComplete_snd (ack : UInt32) :
    (tcpTxSegComplete c ack).tcp.snd = c.tcp.snd := by
  cases h : c.tcp.txSeg <;> simp [tcpTxSegComplete, h]

@[simp] theorem tcpTxSegComplete_txData (ack : UInt32) :
    (tcpTxSegComplete c ack).tcp.txData = c.tcp.txData := by
  cases h : c.tcp.txSeg <;> simp [tcpTxSegComplete, h]

@[simp] theorem tcpTxSegComplete_txSeg (ack : UInt32) :
    (tcpTxSegComplete c ack).tcp.txSeg = none := by
  cases h : c.tcp.txSeg <;> simp [tcpTxSegComplete, h]

theorem acceptedBytes_tcpTxSegComplete (ack : UInt32) :
    acceptedBytes (tcpTxSegComplete c ack).log = acceptedBytes c.log := by
  cases h : c.tcp.txSeg <;> simp [tcpTxSegComplete, h, acceptedBytes]

theorem tcpConstructData_of_pending {seg : TxSegment} (h : c.tcp.txSeg = some seg) :
    tcpConstructData env c = c := by
  simp [tcpConstructData, h]

theorem tcpConstructData_of_empty (h : c.tcp.txData = []) : tcpConstructData env c = c := by
  cases hs : c.tcp.txSeg <;> simp [tcpConstructData, h, hs]

/-- It acts only on a waiting block, with the slot free. -/
theorem tcpConstructData_cases :
    tcpConstructData env c = c ∨ ∃ tx rest, c.tcp.txSeg = none ∧ c.tcp.txData = tx :: rest := by
  cases hs : c.tcp.txSeg with
  | some s =>
      exact Or.inl (tcpConstructData_of_pending env c hs)
  | none =>
      cases hd : c.tcp.txData with
      | nil =>
          exact Or.inl (tcpConstructData_of_empty env c hd)
      | cons tx rest =>
          exact Or.inr ⟨tx, rest, rfl, rfl⟩

/-- Whatever it does, it touches `tx_data`, `tx_seg`, `snd.nxt` and the timer only. -/
theorem tcpConstructData_tcp :
    ∃ txData txSeg nxt tmr, (tcpConstructData env c).tcp =
      { c.tcp with txData := txData, txSeg := txSeg, snd.nxt := nxt, tmr := tmr } := by
  cases hs : c.tcp.txSeg with
  | some seg =>
      rw [tcpConstructData_of_pending env c hs]
      exact ⟨_, _, _, _, rfl⟩
  | none =>
      cases hd : c.tcp.txData with
      | nil =>
          rw [tcpConstructData_of_empty env c hd]
          exact ⟨_, _, _, _, rfl⟩
      | cons tx rest =>
          cases hmem : env.malloc .dataSegment c.log with
          | true =>
              simp only [tcpConstructData, hs, hd, hmem, if_true, tcpIpSend_tcp]
              exact ⟨_, _, _, _, rfl⟩
          | false =>
              simp only [tcpConstructData, hs, hd, hmem, Bool.false_eq_true, if_false]
              exact ⟨rest, none, c.tcp.snd.nxt, c.tcp.tmr, by rw [← hs]⟩

@[simp] theorem tcpConstructData_state : (tcpConstructData env c).tcp.state = c.tcp.state := by
  rcases tcpConstructData_tcp env c with ⟨_, _, _, _, h⟩
  rw [h]

@[simp] theorem tcpConstructData_una : (tcpConstructData env c).tcp.snd.una = c.tcp.snd.una := by
  rcases tcpConstructData_tcp env c with ⟨_, _, _, _, h⟩
  rw [h]

@[simp] theorem tcpConstructData_rcv : (tcpConstructData env c).tcp.rcv = c.tcp.rcv := by
  rcases tcpConstructData_tcp env c with ⟨_, _, _, _, h⟩
  rw [h]

@[simp] theorem tcpConstructData_rxData : (tcpConstructData env c).tcp.rxData = c.tcp.rxData := by
  rcases tcpConstructData_tcp env c with ⟨_, _, _, _, h⟩
  rw [h]

/-- The data segment built from the next block. -/
def dataSegment (t : Tcb τ) (tx : Block) : Segment :=
  newSegment t t.snd.una t.rcv.nxt segFlagAck tx.bytes

theorem tcpConstructData_cons (hmem : env.AllocOk) {tx : Block} {rest : List Block}
    (hs : c.tcp.txSeg = none) (hd : c.tcp.txData = tx :: rest) :
    (tcpConstructData env c).tcp =
        { c.tcp with
          txData := rest
          txSeg := some (packTxSegment true (dataSegment c.tcp tx))
          snd.nxt := c.tcp.snd.nxt + UInt32.ofNat tx.bytes.length
          tmr := TimerLib.start c.tcp.tmr env.now 3 } ∧
      ∃ sent, (tcpConstructData env c).log =
        c.log ++ [.built (dataSegment c.tcp tx),
          .output (some (connDatagram c.tcp (dataSegment c.tcp tx))) sent] := by
  have hlen : tcpSegmentLength (dataSegment c.tcp tx) = tx.bytes.length :=
    tcpSegmentLength_of_flags_ack rfl
  let log := c.log ++ [Action.built (dataSegment c.tcp tx)]
  constructor
  · simp [tcpConstructData, hs, hd, hmem _ _, dataSegment, newSegment]
    exact congrArg UInt32.ofNat hlen
  · refine ⟨env.ipHlSend log, ?_⟩
    simp [tcpConstructData, hs, hd, hmem _ _, tcpIpSend_log, dataSegment, newSegment, connDatagram,
      log]

theorem tcpContructFinAck_of_pending {seg : TxSegment} (h : c.tcp.txSeg = some seg) :
    tcpContructFinAck env c = c := by
  cases hd : c.tcp.txData <;> simp [tcpContructFinAck, h, hd]

theorem tcpContructFinAck_of_data {tx : Block} {rest : List Block}
    (h : c.tcp.txData = tx :: rest) : tcpContructFinAck env c = c := by
  simp [tcpContructFinAck, h]

/-- It acts only with nothing left to send, and with memory for the segment. -/
theorem tcpContructFinAck_cases :
    tcpContructFinAck env c = c ∨
      c.tcp.txSeg = none ∧ c.tcp.txData = [] ∧ env.malloc .finSegment c.log = true := by
  cases hs : c.tcp.txSeg with
  | some s =>
      exact Or.inl (tcpContructFinAck_of_pending env c hs)
  | none =>
      cases hd : c.tcp.txData with
      | cons tx rest =>
          exact Or.inl (tcpContructFinAck_of_data env c hd)
      | nil =>
          cases hmem : env.malloc .finSegment c.log with
          | false =>
              exact Or.inl (by simp [tcpContructFinAck, hs, hd, hmem])
          | true =>
              exact Or.inr ⟨rfl, rfl, rfl⟩

/-- The FIN segment. -/
def finSegment (t : Tcb τ) : Segment :=
  newSegment t t.snd.una t.rcv.nxt (segFlagFin ||| segFlagAck) []

/-- Whatever it does, it touches `tx_seg`, `snd.nxt` and the timer only. -/
theorem tcpContructFinAck_tcp :
    ∃ txSeg nxt tmr, (tcpContructFinAck env c).tcp =
      { c.tcp with txSeg := txSeg, snd.nxt := nxt, tmr := tmr } := by
  rcases tcpContructFinAck_cases env c with heq | ⟨hs, hd, hmem⟩
  · rw [heq]
    exact ⟨_, _, _, rfl⟩
  · refine ⟨some (packTxSegment (env.malloc .finHeader c.log) (finSegment c.tcp)),
      c.tcp.snd.nxt + UInt32.ofNat (tcpSegmentLength (finSegment c.tcp)),
      TimerLib.start c.tcp.tmr env.now 1, ?_⟩
    simp [tcpContructFinAck, hs, hd, hmem, finSegment]

@[simp] theorem tcpContructFinAck_state : (tcpContructFinAck env c).tcp.state = c.tcp.state := by
  rcases tcpContructFinAck_tcp env c with ⟨_, _, _, h⟩
  rw [h]

@[simp] theorem tcpContructFinAck_una : (tcpContructFinAck env c).tcp.snd.una = c.tcp.snd.una := by
  rcases tcpContructFinAck_tcp env c with ⟨_, _, _, h⟩
  rw [h]

@[simp] theorem tcpContructFinAck_rcv : (tcpContructFinAck env c).tcp.rcv = c.tcp.rcv := by
  rcases tcpContructFinAck_tcp env c with ⟨_, _, _, h⟩
  rw [h]

theorem tcpContructFinAck_of_empty (hmem : env.AllocOk)
    (hs : c.tcp.txSeg = none) (hd : c.tcp.txData = []) :
    tcpContructFinAck env c =
      { tcp := { c.tcp with
          txSeg := some (packTxSegment true (finSegment c.tcp))
          snd.nxt := c.tcp.snd.nxt + 1
          tmr := TimerLib.start c.tcp.tmr env.now 1 }
        log := c.log ++ [.built (finSegment c.tcp)] } := by
  have hlen : tcpSegmentLength (finSegment c.tcp) = 1 :=
    tcpSegmentLength_of_flags_finAck rfl
  have hlen' : tcpSegmentLength (newSegment c.tcp c.tcp.snd.una c.tcp.rcv.nxt
      (segFlagFin ||| segFlagAck) []) = 1 := hlen
  simp [tcpContructFinAck, hs, hd, hmem _ _, finSegment, hlen']

/-! ## Acknowledgments -/

/-- Whether the acknowledgment completes the data segment in `tx_seg`. -/
def ackCompletes (t : Tcb τ) (ack : UInt32) : Bool :=
  sncmp t.snd.una .ls ack .le t.snd.nxt && ack == t.snd.nxt

/-- The connection after `tx_seg` was acknowledged, before the next segment is built. -/
def ackedConn (c : Conn τ) (seg : TxSegment) : Conn τ :=
  { tcp := { c.tcp with
      snd.una := c.tcp.snd.nxt
      txSeg := none
      tmr := TimerLib.stop c.tcp.tmr }
    log := c.log ++ [.completed seg.toSegment c.tcp.snd.nxt c.tcp.snd.nxt] }

theorem tcpHandleAckOfData_of_not {ack : Received}
    (h : c.tcp.txSeg = none ∨ ackCompletes c.tcp ack.ack = false) :
    (tcpHandleAckOfData env c ack).1 = c := by
  cases hs : c.tcp.txSeg with
  | none =>
      simp [tcpHandleAckOfData, hs]
  | some seg =>
      have hc : ackCompletes c.tcp ack.ack = false := by simpa [hs] using h
      simp only [ackCompletes, Bool.and_eq_false_iff, beq_eq_false_iff_ne] at hc
      rcases hc with hc | hc
      · simp [tcpHandleAckOfData, hs, hc]
      · simp [tcpHandleAckOfData, hs, hc]

theorem tcpHandleAckOfData_of {ack : Received} {seg : TxSegment} (hs : c.tcp.txSeg = some seg)
    (h : ackCompletes c.tcp ack.ack = true) :
    (tcpHandleAckOfData env c ack).1 = tcpConstructData env (ackedConn c seg) := by
  simp only [ackCompletes, Bool.and_eq_true, beq_iff_eq] at h
  rcases h with ⟨hwin, heq⟩
  rw [heq] at hwin
  simp [tcpHandleAckOfData, hs, hwin, heq, tcpTxSegComplete, ackedConn]

/-! ## Opening -/

/-- The control block of a listener. -/
def listenTcb (env : Env) (ip : Netif) (port : UInt32) (destPort : UInt16) : Tcb τ :=
  { (tcpNew ip port none destPort : Tcb τ) with
    state := .listen
    snd := ⟨tcpGenerateIsn env, tcpGenerateIsn env, tcpGenerateIsn env⟩
    timeWaitSeconds := 120 }

theorem tcpOpenConn_passive (ip : Netif) (port : UInt32) (destPort : UInt16) :
    tcpOpenConn env ip port none destPort =
      some { tcp := listenTcb (τ := τ) env ip port destPort, log := [] } := by
  simp [tcpOpenConn, openWhenClosed, tcpNew, listenTcb]

/-- The SYN of an active opener. -/
def synSegment (t : Tcb τ) : Segment :=
  newSegment t t.snd.iss 0 segFlagSyn []

/-- The control block of an active opener. -/
def synSentTcb (env : Env) (ip : Netif) (port : UInt32) (dest : IpAddr) (destPort : UInt16) :
    Tcb τ :=
  let t : Tcb τ :=
    { (tcpNew ip port (some dest) destPort : Tcb τ) with
      state := .synSent
      snd := ⟨tcpGenerateIsn env, tcpGenerateIsn env + 1, tcpGenerateIsn env⟩
      tmr := TimerLib.start TimerLib.init env.now 5
      timeWaitSeconds := 120 }
  { t with txSeg := some (packTxSegment true (synSegment t)) }

/-- An active opener with the SYN in `tx_seg`, before `tcp_retransmit`. -/
def synPacked (env : Env) (ip : Netif) (port : UInt32) (dest : IpAddr) (destPort : UInt16) :
    Conn τ :=
  let isn := tcpGenerateIsn env
  let t : Tcb τ :=
    { (tcpNew ip port (some dest) destPort : Tcb τ) with
      snd := ⟨isn, isn, isn⟩
      timeWaitSeconds := 120 }
  let seg := packTxSegment (env.malloc .synHeader []) (newSegment t isn 0 segFlagSyn [])
  { tcp := { t with txSeg := some seg, snd.nxt := isn + 1 }, log := [.built seg.toSegment] }

/-- Whatever allocations succeed, an active open that returns has only sent the SYN. -/
theorem tcpOpenConn_some {ip : Netif} {port : UInt32} {dest : IpAddr} {destPort : UInt16}
    {c : Conn τ} (h : tcpOpenConn env ip port (some dest) destPort = some c) :
    c = { tcpRetransmit env (synPacked env ip port dest destPort) with tcp.state := .synSent } := by
  have hlen : ∀ t : Tcb τ,
      tcpSegmentLength (newSegment t (tcpGenerateIsn env) 0 (0 ||| segFlagSyn) []) = 1 :=
    fun _ => tcpSegmentLength_of_flags_syn rfl
  cases hmem : env.malloc .synSegment [] with
  | false =>
      simp [tcpOpenConn, openWhenClosed, tcpNew, hmem] at h
  | true =>
      simp only [tcpOpenConn, openWhenClosed, tcpNew, Option.isNone_some, Bool.false_eq_true,
        if_false, hmem, if_true, Option.some.injEq, packTxSegment_toSegment, hlen] at h
      rw [← h]
      rfl

theorem tcpOpenConn_active (hmem : env.AllocOk) (ip : Netif) (port : UInt32) (dest : IpAddr)
    (destPort : UInt16) :
    ∃ sent, (env.SendOk → sent = true) ∧ tcpOpenConn env ip port (some dest) destPort =
      some
        { tcp := synSentTcb (τ := τ) env ip port dest destPort
          log := [.built (synSegment (synSentTcb (τ := τ) env ip port dest destPort)),
            .output (some (connDatagram (synSentTcb (τ := τ) env ip port dest destPort)
              (synSegment (synSentTcb (τ := τ) env ip port dest destPort)))) sent] } := by
  let log := [Action.built (synSegment (synSentTcb (τ := τ) env ip port dest destPort))]
  refine ⟨env.malloc .copy log && env.ipHlSend log, fun hsend => by simp [hmem _ _, hsend _], ?_⟩
  have hlen : ∀ seg : Segment, seg.flags = segFlagSyn → seg.payload = [] →
      tcpSegmentLength seg = 1 := by
    intro seg hflags hpayload
    simp [tcpSegmentLength_of_flags_syn hflags, hpayload]
  simp [tcpOpenConn, openWhenClosed, tcpNew, hmem _ _, tcpRetransmit, tcpIpSend, connDatagram,
    synSentTcb, synSegment, newSegment, hlen, log]

end Tcp
end DtsNet
