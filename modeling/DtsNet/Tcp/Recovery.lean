import DtsNet.Tcp.Ready
import DtsNet.Tcp.Window

/-!
# Recovery — the transfer of data has no dead end

Whatever the network did to a connection, from every state in which both ends are ESTABLISHED there
is a way on: the retransmission timers and the datagrams sent from then on suffice to bring
everything that was accepted to the other end, and to let the sender know.  One round of it takes
one block: the timer sends `tx_seg`, which is queued if it had not been; the timer sends it once
more, which is then out of the window and answered with an acknowledgment; and this releases
`tx_seg`.  The round needs the windows to end below `2^32`, where `sncmp` is right, and text of whole
words, whose copies `tcp_unpack` cannot refuse.
-/

namespace DtsNet
namespace Tcp

open Ip Dblk History Slices Circular

variable {τ : Type} {s : Endpoint} {c x y : Conn τ}

/-! ## Numbers below `2^32` -/

theorem Endpoint.toNat_sndSeq {k : ℕ} (h : s.iss.toNat + 1 + k < 2 ^ 32) :
    (s.sndSeq k).toNat = s.iss.toNat + 1 + k := by
  have hiss : (s.iss + 1).toNat = s.iss.toNat + 1 := by
    rw [UInt32.toNat_add]
    simp
    omega
  rw [Endpoint.sndSeq, toNat_add_ofNat, hiss, Nat.mod_eq_of_lt h]

/-- The numbers of both streams, and the window behind them, stay below `2^32`. -/
structure Unwrapped (s : Endpoint) (x y : Conn τ) : Prop where
  this : s.iss.toNat + (acceptedBytes x.log).length + 1502 ≤ 2 ^ 32
  that : s.irs.toNat + (acceptedBytes y.log).length + 1502 ≤ 2 ^ 32

theorem Unwrapped.flip (h : Unwrapped s x y) : Unwrapped s.peer y x :=
  ⟨h.that, h.this⟩

theorem EndInv.streaming (hc : EndInv s c) (hst : c.tcp.state = .established) : Streaming s c := by
  have hshape := hc.shape
  rwa [hst] at hshape

/-- Where the peer of `x` expects text. -/
theorem Tandem.rcv_nxt_peer (h : Tandem s x y) (hy : y.tcp.state = .established) :
    y.tcp.rcv.nxt = s.sndSeq (exchange x y).rcvd.flatten.length := by
  have hrcv := (h.that.streaming hy).rcv
  rw [← flatten_queuedBlocks] at hrcv
  exact hrcv

theorem Tandem.length_rcvd_le (h : Tandem s x y) :
    (exchange x y).rcvd.flatten.length ≤ (acceptedBytes x.log).length := by
  rw [← flatten_acceptedBlocks, ← h.paced.sent (d := y) h.this]
  exact h.inv.rcvd_prefix_sent.flatten.length_le

/-- The window of the peer of `x` ends below `2^32`. -/
theorem Tandem.not_wraps (h : Tandem s x y) (hw : Unwrapped s x y)
    (hy : y.tcp.state = .established) : ¬ WindowWraps y.tcp := by
  have hle := h.length_rcvd_le
  have hthis := hw.this
  rw [WindowWraps, h.rcv_nxt_peer hy, Endpoint.toNat_sndSeq (by omega), h.pacedPeer.wnd]
  have hwnd : (1500 : UInt16).toNat = 1500 := rfl
  omega

theorem Paced.pending_sized (h : Paced s c) (hc : EndInv s c) {bs : List Byte}
    (hflight : pendingText c.tcp = some bs) : bs.length ≤ 1379 := by
  refine h.sized bs ?_
  rw [h.lined, h.built (d := c) hc]
  simp [exchange, hflight]

/-- With such a window a segment that starts in it is let through. -/
theorem seqAccepted_of_inRun {t : Tcb τ} {seg : Segment} (hwnd : t.rcv.wnd = 1500)
    (hwrap : ¬ WindowWraps t) (h : InRun t.rcv.nxt 1500 seg.seq) : seqAccepted t seg = true := by
  have hn : t.rcv.wnd.toNat = 1500 := by rw [hwnd]; rfl
  have hend : t.rcv.nxt + t.rcv.wnd.toUInt32 = t.rcv.nxt + UInt32.ofNat 1500 := by rw [hwnd]; rfl
  have hwnd0 : (t.rcv.wnd != 0) = true := by rw [hwnd]; rfl
  rw [WindowWraps, hn] at hwrap
  have hcmp := (sncmp_window_of_lt (by decide) (by omega) seg.seq).2 h
  simp only [seqAccepted, hwnd0, hend, hcmp, Bool.true_and, Bool.true_or]

/-- The bare acknowledgment of the peer is in the window, whatever the peer has pending. -/
theorem bareAck_inRun (h : Tandem s x y) (hx : x.tcp.state = .established)
    (hy : y.tcp.state = .established) : InRun x.tcp.rcv.nxt 1500 (bareAck y.tcp).seq := by
  have hstreaming := h.that.streaming hy
  have huna := hstreaming.una_eq (d := x) (h.pacedPeer.openHistory h.that) h.pacedPeer.lined
  have hnxt : (bareAck y.tcp).seq = y.tcp.snd.nxt := rfl
  rw [hnxt, hstreaming.nxt, huna, h.flip.rcv_nxt_peer hx, ← flatten_pendingText]
  have hback : (exchange y x).inFlight = pendingText y.tcp := rfl
  rcases h.flip.inv with hsame | ⟨a, ha, hahead⟩
  · -- it stands behind the pending text, which has not been queued
    have hlen : (pendingText y.tcp).toList.flatten.length ≤ 1379 := by
      cases hp : pendingText y.tcp with
      | none =>
          simp
      | some bs =>
          simpa using h.pacedPeer.pending_sized h.that hp
    rw [hsame, InRun, add_sub_cancel_left, UInt32.toNat_ofNat', Nat.mod_eq_of_lt (by omega)]
    omega
  · rw [hback] at ha
    rw [hahead, ha, Option.toList_some, List.flatten_append, List.length_append, Endpoint.sndSeq,
      Endpoint.sndSeq, add_ofNat_add]
    exact inRun_self (by decide)

/-! ## The pending segment -/

variable [TimerLib τ] [LawfulTimerLib τ]

/-- What lies in the header buffer of the segment that waits for its acknowledgment. -/
structure Pending (x : Conn τ) (seg : TxSegment) (raw : Segment) : Prop where
  txSeg : x.tcp.txSeg = some seg
  rawData : seg.rawData = some raw
  data : seg.flags = segFlagAck
  offset : raw.dataOffset = 5
  flags : raw.flags = segFlagAck
  payload : raw.payload = seg.payload
  nonempty : seg.payload ≠ []
  seq : raw.seq = x.tcp.snd.una

theorem Live.pending (h : Live s x y) (hx : x.tcp.state = .established) {seg : TxSegment}
    (hs : x.tcp.txSeg = some seg) : ∃ raw, Pending x seg raw := by
  have hsending : Sending True x := by
    have hshape := h.paced.send.shape
    rwa [hx] at hshape
  have hflags := hsending.flags seg hs
  have hseq := (h.ready.sequence.transfer (Or.inl hx)).seq seg hs
  rcases h.ready.retransmit.packed seg hs with ⟨raw, hraw, hid⟩
  exact ⟨raw, hs, hraw, hflags, (Segment.dataOffset_of_identity hid).trans (h.ready.noOptions seg hs),
    (Segment.flags_of_identity hid).trans hflags, Segment.payload_of_identity hid,
    h.ready.full.pending seg hs hflags, (Segment.seq_of_identity hid).trans hseq⟩

omit [TimerLib τ] [LawfulTimerLib τ] in
/-- However often it is sent, it is accepted. -/
theorem Pending.verifies {seg : TxSegment} {raw : Segment} (hp : Pending x seg raw)
    (hsize : seg.payload.length ≤ 1379) (hwhole : WholeWords seg.payload) :
    (connDatagram x.tcp raw).Verifies := by
  have hflags : raw.flags < 0x1000 := by
    rw [hp.flags]
    decide
  have hsize' : raw.payload.length ≤ 65515 := by
    rw [hp.payload]
    omega
  refine verifies_of_wholeWords hp.offset hflags hsize' ?_
  have hpayload : (connDatagram x.tcp raw).seg.payload = seg.payload := hp.payload
  rw [hpayload]
  exact hwhole

/-! ## One round -/

omit [LawfulTimerLib τ] in
/-- Before `tcp_close` nothing leaves ESTABLISHED. -/
theorem established_step {e : Event} (hc : EndInv s (step c e)) (hst : c.tcp.state = .established) :
    (step c e).tcp.state = .established := by
  have hfollows := step_mem_follows c e
  rw [hst] at hfollows
  have hcases : (step c e).tcp.state = .established ∨ (step c e).tcp.state = .closeWait ∨
      (step c e).tcp.state = .finWait1 := by
    simpa [follows] using hfollows
  rcases hcases with h | h | h
  · exact h
  · rcases hc.state with h' | h' | h' | h' <;> simp [h] at h'
  · rcases hc.state with h' | h' | h' | h' <;> simp [h] at h'

omit [TimerLib τ] [LawfulTimerLib τ] in
/-- A segment with text, as `tx_seg` holds it, is out of the window once it was queued. -/
theorem outOfWindow_of_queued {t : Tcb τ} {seg : Segment} (hwnd : t.rcv.wnd = 1500)
    (hflags : seg.flags = segFlagAck) (hp : seg.payload ≠ []) (hlen : seg.payload.length ≤ 1379)
    (hnxt : t.rcv.nxt = seg.seq + UInt32.ofNat seg.payload.length) : OutOfWindow t seg := by
  have hsegLen : tcpSegmentLength seg = seg.payload.length := tcpSegmentLength_of_flags_ack hflags
  have hpos := List.length_pos_of_ne_nil hp
  have hn : t.rcv.wnd.toNat = 1500 := by rw [hwnd]; rfl
  rw [OutOfWindow, if_neg (by omega), hsegLen, hn]
  intro i hi hrun
  -- it is `length - i` numbers before the window
  have hdist : (seg.seq + UInt32.ofNat i) - t.rcv.nxt =
      0 - UInt32.ofNat (seg.payload.length - i) := by
    have hsplit : UInt32.ofNat seg.payload.length =
        UInt32.ofNat i + UInt32.ofNat (seg.payload.length - i) := by
      rw [← UInt32.ofNat_add]
      congr 1
      omega
    rw [hnxt, hsplit]
    grind
  rw [InRun, hdist, toNat_sub_eq] at hrun
  have hk : (UInt32.ofNat (seg.payload.length - i)).toNat = seg.payload.length - i := by
    rw [UInt32.toNat_ofNat', Nat.mod_eq_of_lt (by omega)]
  have hzero : (0 : UInt32).toNat = 0 := rfl
  rw [hk, hzero, if_neg (by omega)] at hrun
  omega

omit [LawfulTimerLib τ] in
theorem length_queuedBlocks_step (c : Conn τ) (e : Event) :
    (queuedBlocks c.log).length ≤ (queuedBlocks (step c e).log).length := by
  rcases log_prefix_step c e with ⟨l, hlog⟩
  rw [← hlog, queuedBlocks_append, List.length_append]
  exact Nat.le_add_right _ _

omit [LawfulTimerLib τ] in
/-- Text at `rcv.nxt` is queued. -/
theorem queuedBlocks_of_next (hst : c.tcp.state = .established) (hwnd : c.tcp.rcv.wnd = 1500)
    {env : Env} (hmem : env.AllocOk) (seg : Received) (hflags : seg.flags = segFlagAck)
    (hp : seg.payload ≠ []) (hseq : seg.seq = c.tcp.rcv.nxt)
    (hacc : seqAccepted c.tcp seg.toSegment = true) :
    (queuedBlocks c.log).length < (queuedBlocks (step c (.received env seg)).log).length := by
  rcases ctrl_of_flags_ack hflags with ⟨hA, _, hR, hF⟩
  have hlen : tcpSegmentLength seg.toSegment = seg.payload.length :=
    tcpSegmentLength_of_flags_ack hflags
  have hpos := List.length_pos_of_ne_nil hp
  have hreceived : tcpReceived env c seg = receivedWhenEstablished env c seg := by
    simp [tcpReceived, hst, receivedEventProcess]
  have hrcv := ackEstablished_rcv env c seg
  rw [step, hreceived, receivedWhenEstablished_of_ack env c hacc hR hA, hF,
    if_neg Bool.false_ne_true, textEstablished]
  rcases (queueMove_ackEstablished env c seg).log with ⟨l, hlog, _⟩
  rcases tcpHandleData_cases env (ackEstablished env c seg) seg with
      ⟨_, hnot⟩ | ⟨_, _, _, l', hlog', _⟩
  · have hno := hnot (by rw [hrcv, hseq]) (by omega)
    rw [hmem] at hno
    cases hno
  · have htext : textBytes (ackEstablished env c seg).tcp seg ≠ [] := by
      refine List.ne_nil_of_length_pos ?_
      have hn : (1500 : UInt16).toNat = 1500 := rfl
      rw [length_textBytes, textLength, hrcv, hwnd, hn, hlen]
      omega
    have hone : queuedBlocks [Action.queued (textBytes (ackEstablished env c seg).tcp seg)] =
        [textBytes (ackEstablished env c seg).tcp seg] :=
      nonEmpty_singleton htext
    rw [hlog', hlog, queuedBlocks_append, queuedBlocks_append, queuedBlocks_append, hone]
    simp only [List.length_append, List.length_singleton]
    omega

/-- The pending segment arrives: its text is queued now or was before. -/
theorem text_arrives (h : Live s x y) (hw : Unwrapped s x y) (hx : x.tcp.state = .established)
    (hy : y.tcp.state = .established) {seg : TxSegment} {dg : Datagram} (hp : Pending x seg dg.seg)
    (now : ℕ) {y' : Conn τ} (hy' : y' = step y (.received (.working now) (dg.received [])))
    (hinv : (exchange x y').Inv) :
    (exchange x y').rcvd = (exchange x y').acked ++ [seg.payload] := by
  have hflight : (exchange x y').inFlight = some seg.payload := pendingText_some hp.txSeg hp.nonempty
  have hacked : (exchange x y').acked = (exchange x y).acked := rfl
  -- one block more has been queued than is acknowledged
  have hlen : (exchange x y).acked.length < (queuedBlocks y'.log).length := by
    rcases h.inv with hsame | ⟨a, _, hahead⟩
    · have hseq : dg.seg.seq = y.tcp.rcv.nxt := by
        rw [hp.seq, (h.this.streaming hx).una_eq (d := y) (h.paced.openHistory h.this) h.paced.lined,
          h.rcv_nxt_peer hy, hsame]
      have hrun : InRun y.tcp.rcv.nxt 1500 dg.seg.seq := by
        rw [hseq]
        exact inRun_self (by decide)
      have hacc := seqAccepted_of_inRun h.pacedPeer.wnd (h.toTandem.not_wraps hw hy) hrun
      have htext : dg.seg.payload ≠ [] := by
        rw [hp.payload]
        exact hp.nonempty
      have hgrow := queuedBlocks_of_next hy h.pacedPeer.wnd (Env.allocOk_working now)
        (dg.received []) hp.flags htext hseq hacc
      rw [hy', ← hsame]
      exact hgrow
    · have hgrow := length_queuedBlocks_step y (.received (.working now) (dg.received []))
      have hbefore : (queuedBlocks y.log).length = (exchange x y).acked.length + 1 := by
        have hlen := congrArg List.length hahead
        rwa [List.length_append] at hlen
      rw [hy']
      omega
  rcases hinv with hsame | ⟨b, hb, hahead⟩
  · exfalso
    have hlen' := congrArg List.length hsame
    have hqueue : (exchange x y').rcvd = queuedBlocks y'.log := rfl
    rw [hqueue, hacked] at hlen'
    omega
  · rw [hflight] at hb
    cases hb
    exact hahead

omit [TimerLib τ] [LawfulTimerLib τ] in
/-- With the window open, a rejected segment is answered unless it is a RST. -/
theorem processReceivedSeq_answers (env : Env) {seg : Received} (hwnd : c.tcp.rcv.wnd ≠ 0)
    (h : seqAccepted c.tcp seg.toSegment = false) (hR : segCtrlR seg.toSegment = false) :
    (processReceivedSeq env c seg).1 =
      (tcpSendCtrlSeg env c c.tcp.snd.nxt c.tcp.rcv.nxt segFlagAck).1 := by
  have hwnd' : (c.tcp.rcv.wnd != 0) = true := by simpa using hwnd
  simp only [seqAccepted, hwnd', Bool.true_and, Bool.or_eq_false_iff] at h
  rcases h with ⟨hfirst, hlast⟩
  by_cases hlen : tcpSegmentLength seg.toSegment = 0
  · simp [processReceivedSeq, hwnd, hlen, hfirst, segUnacceptable, hR]
  · have hlast' : sncmp c.tcp.rcv.nxt .le
        (seg.seq + UInt32.ofNat (tcpSegmentLength seg.toSegment) - 1) .ls
        (c.tcp.rcv.nxt + c.tcp.rcv.wnd.toUInt32) = false := by
      simpa [hlen] using hlast
    simp [processReceivedSeq, hwnd, hlen, hfirst, hlast', segUnacceptable, hR]

/-- The pending segment arrives once more: it is answered with a bare acknowledgment. -/
theorem copy_answered (h : Live s x y) (hw : Unwrapped s x y) (hx : x.tcp.state = .established)
    (hy : y.tcp.state = .established) {seg : TxSegment} {dg : Datagram} (hp : Pending x seg dg.seg)
    (hrcvd : (exchange x y).rcvd = (exchange x y).acked ++ [seg.payload]) (now : ℕ) :
    step y (.received (.working now) (dg.received [])) =
      { tcp := y.tcp
        log := y.log ++ [.output (some (connDatagram y.tcp (bareAck y.tcp))) true] } := by
  have huna := (h.this.streaming hx).una_eq (d := y) (h.paced.openHistory h.this) h.paced.lined
  have htext : dg.seg.payload ≠ [] := by
    rw [hp.payload]
    exact hp.nonempty
  have hsize : dg.seg.payload.length ≤ 1379 := by
    rw [hp.payload]
    exact h.paced.pending_sized h.this (pendingText_some hp.txSeg hp.nonempty)
  have hnxt : y.tcp.rcv.nxt = dg.seg.seq + UInt32.ofNat dg.seg.payload.length := by
    rw [h.rcv_nxt_peer hy, hrcvd, hp.seq, huna, hp.payload, List.flatten_append, List.length_append,
      List.flatten_singleton]
    exact (add_ofNat_add _ _ _).symm
  have hout : OutOfWindow y.tcp dg.seg :=
    outOfWindow_of_queued h.pacedPeer.wnd hp.flags htext hsize hnxt
  have hacc : seqAccepted y.tcp (dg.received []).toSegment = false := by
    rw [Bool.eq_false_iff]
    exact mt (seqAccepted_of_outOfWindow h.pacedPeer.wnd hout).1 (h.toTandem.not_wraps hw hy)
  have hR : segCtrlR (dg.received []).toSegment = false := (ctrl_of_flags_ack hp.flags).2.2.1
  have hreceived : tcpReceived (.working now) y (dg.received []) =
      receivedWhenEstablished (.working now) y (dg.received []) := by
    simp [tcpReceived, hy, receivedEventProcess]
  have hwnd : y.tcp.rcv.wnd ≠ 0 := by
    rw [h.pacedPeer.wnd]
    decide
  rw [step, hreceived, receivedWhenEstablished_of_rejected _ _ hacc,
    processReceivedSeq_answers _ hwnd hacc hR]
  have hlen : tcpSegmentLength (newSegment y.tcp y.tcp.snd.nxt y.tcp.rcv.nxt segFlagAck []) = 0 :=
    tcpSegmentLength_of_flags_ack rfl
  simp [tcpSendCtrlSeg, tcpIpSend, Env.working, bareAck, connDatagram, hlen]

omit [LawfulTimerLib τ] in
theorem completedSegments_tcpConstructData {env : Env} (hmem : env.AllocOk) (c : Conn τ) :
    completedSegments (tcpConstructData env c).log = completedSegments c.log := by
  rcases tcpConstructData_cases env c with heq | ⟨tx, rest, hs, hd⟩
  · rw [heq]
  · rcases tcpConstructData_cons env c hmem hs hd with ⟨_, sent, hlog⟩
    simp [hlog, completedSegments]

/-- The acknowledgment of the copy releases the pending segment. -/
theorem ack_releases (h : Live s x y) (hw : Unwrapped s x y) (hx : x.tcp.state = .established)
    (hy : y.tcp.state = .established) {seg : TxSegment} {raw : Segment} (hp : Pending x seg raw)
    (hrcvd : (exchange x y).rcvd = (exchange x y).acked ++ [seg.payload]) {dg : Datagram}
    (hack : dg.seg = bareAck y.tcp) (now : ℕ) :
    (exchange (step x (.received (.working now) (dg.received []))) y).acked =
      (exchange x y).acked ++ [seg.payload] := by
  have hstreaming := h.this.streaming hx
  have huna := hstreaming.una_eq (d := y) (h.paced.openHistory h.this) h.paced.lined
  have hpos := List.length_pos_of_ne_nil hp.nonempty
  have hflags : dg.seg.flags = segFlagAck := by
    rw [hack]
    rfl
  rcases ctrl_of_flags_ack hflags with ⟨hA, _, hR, hF⟩
  have hbound := h.paced.acked_length_le (d := y) h.this
  have hflight : (exchange x y).inFlight = some seg.payload := pendingText_some hp.txSeg hp.nonempty
  rw [hflight, Option.toList_some, List.flatten_append, List.length_append,
    List.flatten_singleton] at hbound
  have hthis := hw.this
  -- the acknowledgment is that of everything sent
  have hnxt : x.tcp.snd.nxt =
      s.sndSeq ((exchange x y).acked.flatten.length + seg.payload.length) := by
    rw [hstreaming.nxt, huna]
    simp only [pendingBytes, hp.txSeg]
    exact add_ofNat_add _ _ _
  have hackNxt : (dg.received []).ack = x.tcp.snd.nxt := by
    have hrcv : (dg.received []).ack = y.tcp.rcv.nxt := by
      rw [Datagram.received, hack]
      rfl
    rw [hrcv, h.rcv_nxt_peer hy, hrcvd, hnxt, List.flatten_append, List.length_append,
      List.flatten_singleton]
  have hlt : x.tcp.snd.una < x.tcp.snd.nxt := by
    rw [UInt32.lt_iff_toNat_lt, huna, hnxt, Endpoint.toNat_sndSeq (by omega),
      Endpoint.toNat_sndSeq (by omega)]
    omega
  have hcompletes : ackCompletes x.tcp (dg.received []).ack = true :=
    (ackCompletes_iff hlt _).2 hackNxt
  have hrun : InRun x.tcp.rcv.nxt 1500 (dg.received []).toSegment.seq := by
    rw [Datagram.received, hack]
    exact bareAck_inRun h.toTandem hx hy
  have hacc := seqAccepted_of_inRun h.paced.wnd (h.flip.toTandem.not_wraps hw.flip hx) hrun
  have hreceived : tcpReceived (.working now) x (dg.received []) =
      receivedWhenEstablished (.working now) x (dg.received []) := by
    simp [tcpReceived, hx, receivedEventProcess]
  have hsending : Sending True x := by
    have hshape := h.paced.send.shape
    rwa [hx] at hshape
  have hsegF : segCtrlF seg.toSegment = false :=
    (ctrl_of_flags_ack (hsending.flags seg hp.txSeg)).2.2.2
  rw [step, hreceived, receivedWhenEstablished_of_ack _ _ hacc hR hA]
  have hfin : segCtrlF (dg.received []).toSegment = false := hF
  rw [hfin, if_neg Bool.false_ne_true, textEstablished,
    (sendFrame_tcpHandleData _ _ _).exchange_eq]
  rcases ackEstablished_cases (.working now) x (dg.received []) with
      ⟨_, hnot⟩ | ⟨pending, hs, _, _, hacked⟩
  · rw [hnot seg hp.txSeg hsegF] at hcompletes
    cases hcompletes
  · have heq : pending = seg := by
      have hsame := hs.symm.trans hp.txSeg
      exact Option.some.inj hsame
    have hcompleted : (exchange (tcpConstructData (.working now) (ackedConn x pending)) y).acked =
        (exchange (ackedConn x pending) y).acked := by
      simp only [exchange, completedSegments_tcpConstructData (Env.allocOk_working now)]
    rw [hacked, hcompleted, heq]
    simp [exchange, ackedConn, completedSegments, texts, nonEmpty_singleton hp.nonempty]

/-! ## Events that need no luck -/

/-- Behind the time `now`, the timers run, what the peer sent behind the first `n` entries of its
record arrives and is accepted, and nothing fails. -/
def LateOk (now n : ℕ) (peer : Conn τ) : Event → Prop
  | .received env seg => env.AllocOk ∧ env.SendOk ∧ now ≤ env.now ∧
      ∃ dg ∈ outputs (peer.log.drop n), dg.Verifies ∧ seg = dg.received []
  | .loop env => env.AllocOk ∧ env.SendOk ∧ now ≤ env.now
  | _ => False

omit [TimerLib τ] [LawfulTimerLib τ] in
theorem lateOk_received (now : ℕ) {n : ℕ} {dg : Datagram} (hdg : dg ∈ outputs (y.log.drop n))
    (hverifies : dg.Verifies) : LateOk now n y (.received (.working now) (dg.received [])) :=
  ⟨Env.allocOk_working now, fun _ => rfl, Nat.le_refl _, dg, hdg, hverifies, rfl⟩

omit [TimerLib τ] [LawfulTimerLib τ] in
theorem lateOk_loop {now later : ℕ} (h : now ≤ later) (n : ℕ) (peer : Conn τ) :
    LateOk now n peer (.loop (.working later)) :=
  ⟨Env.allocOk_working later, fun _ => rfl, h⟩

omit [TimerLib τ] [LawfulTimerLib τ] in
theorem outputs_drop_subset (log : List Action) {m n : ℕ} (h : m ≤ n) :
    ∀ dg ∈ outputs (log.drop n), dg ∈ outputs (log.drop m) := by
  intro dg hdg
  have hsuffix : log.drop n <:+ log.drop m := by
    rw [← Nat.add_sub_cancel' h, ← List.drop_drop]
    exact List.drop_suffix _ _
  exact (hsuffix.filterMap _).subset hdg

omit [TimerLib τ] [LawfulTimerLib τ] in
theorem LateOk.netOk {now n : ℕ} {e : Event} (h : LateOk now n y e) : NetOk y e := by
  cases e with
  | received env seg =>
      rcases h with ⟨hmem, _, _, dg, hdg, _, rfl⟩
      exact ⟨hmem, dg, outputs_drop_subset _ (Nat.zero_le n) dg hdg, [], rfl⟩
  | loop env => exact h.1
  | _ => exact h.elim

omit [LawfulTimerLib τ] in
/-- Nothing is accepted. -/
theorem acceptedBlocks_late (hc : EndInv s c) (h : Paced s c) {text : List Byte} {e : Event}
    (hok : EndOk s text c e) {now n : ℕ} (hlate : LateOk now n y e) :
    acceptedBlocks (step c e).log = acceptedBlocks c.log := by
  have hframe : ∀ {c₁ c₂ : Conn τ}, SendFrame c₁ c₂ →
      acceptedBlocks c₂.log = acceptedBlocks c₁.log := by
    intro c₁ c₂ hf
    rcases hf.log with ⟨l, hlog, hneutral⟩
    simp [hlog, acceptedBlocks_of_neutral hneutral]
  rcases step_sending hc h.send hok with
      hf | ⟨env, data, rfl, _⟩ | ⟨env, seg, pending, _, _, hmem, _, _, _, hf⟩ |
      ⟨c₁, syn, ack, hf, hs, _, hstep⟩
  · exact hframe hf
  · exact hlate.elim
  · rw [hframe hf, acceptedBlocks_tcpConstructData hmem]
    simp [ackedConn, acceptedBlocks]
  · rw [hstep, ← hframe hf]
    simp [tcpTxSegComplete, hs, acceptedBlocks]

/-- Both ends ESTABLISHED, with room in the windows, and whole words in the text that waits. -/
structure Going (s : Endpoint) (x y : Conn τ) : Prop where
  live : Live s x y
  unwrapped : Unwrapped s x y
  this : x.tcp.state = .established
  that : y.tcp.state = .established
  whole : AllText WholeWords x
  wholePeer : AllText WholeWords y

theorem Going.flip (h : Going s x y) : Going s.peer y x :=
  ⟨h.live.flip, h.unwrapped.flip, h.that, h.this, h.wholePeer, h.whole⟩

theorem Going.late (h : Going s x y) {now n : ℕ} {e : Event} (hlate : LateOk now n y e) :
    Going s (step x e) y ∧ acceptedBlocks (step x e).log = acceptedBlocks x.log := by
  have hthis := h.unwrapped.this
  have hthat := h.unwrapped.that
  have hok := h.live.endOk hlate.netOk
  have haccepted := acceptedBlocks_late h.live.this h.live.paced hok hlate
  have hiss : s.iss < s.iss + 1 := lt_succ_of_toNat_lt (by omega)
  have hlive := live_step h.live (fun _ => hiss) (by omega) (by omega) hlate.netOk
  have hwhole : AllText WholeWords (step x e) := by
    refine allText_step h.live.this h.live.paced.send h.whole hok ?_
    rintro env data rfl
    exact hlate.elim
  refine ⟨⟨hlive, ⟨?_, h.unwrapped.that⟩, established_step hlive.this h.this, h.that, hwhole,
    h.wholePeer⟩, haccepted⟩
  rw [← flatten_acceptedBlocks, haccepted, flatten_acceptedBlocks]
  exact h.unwrapped.this

theorem Going.latePeer (h : Going s x y) {now n : ℕ} {e : Event} (hlate : LateOk now n x e) :
    Going s x (step y e) ∧ acceptedBlocks (step y e).log = acceptedBlocks y.log := by
  rcases h.flip.late hlate with ⟨hgoing, haccepted⟩
  have hpeer : s.peer.peer = s := by simp [Endpoint.peer]
  rw [← hpeer]
  exact ⟨hgoing.flip, haccepted⟩

/-- With a backlog there is a pending segment. -/
theorem Going.pending (h : Going s x y) (hback : 0 < (exchange x y).backlog) :
    ∃ seg raw, Pending x seg raw := by
  have hsending : Sending True x := by
    have hshape := h.live.paced.send.shape
    rwa [h.this] at hshape
  cases hs : x.tcp.txSeg with
  | none =>
      exfalso
      have hempty : (exchange x y).backlog = 0 := by
        simp [StopAndWait.backlog, exchange, pendingText_none hs, hsending.busy hs]
      omega
  | some seg =>
      exact ⟨seg, h.live.pending h.this hs⟩

omit [TimerLib τ] [LawfulTimerLib τ] in
theorem mem_outputs_drop {log : List Action} {n : ℕ} (hn : n ≤ log.length) (dg : Datagram)
    (rest : List Action) : dg ∈ outputs ((log ++ .output (some dg) true :: rest).drop n) := by
  rw [List.drop_append_of_le_length hn]
  exact List.mem_filterMap.2 ⟨Action.output (some dg) true, by simp, rfl⟩

/-- The pending segment goes out, by the timer. -/
theorem Going.sends (hruns : TimersRun τ) (h : Going s x y) {seg : TxSegment} {raw : Segment}
    (hp : Pending x seg raw) {m : ℕ} (hm : m ≤ x.log.length) (now : ℕ) :
    ∃ e, (∀ n (peer : Conn τ), LateOk now n peer e) ∧ Pending (step x e) seg raw ∧
      (exchange (step x e) y).acked = (exchange x y).acked ∧ m ≤ (step x e).log.length ∧
      ∃ dg ∈ outputs ((step x e).log.drop m), dg.Verifies ∧ dg.seg = raw := by
  have hsize : seg.payload.length ≤ 1379 :=
    h.live.paced.pending_sized h.live.this (pendingText_some hp.txSeg hp.nonempty)
  have hverifies := hp.verifies hsize (h.whole.pending seg hp.txSeg hp.data)
  rcases h.live.ready.resends hruns hp.txSeg hp.rawData now with ⟨later, t, hle, hstep⟩
  refine ⟨.loop (.working later), lateOk_loop hle, ?_⟩
  rw [hstep]
  refine ⟨⟨hp.txSeg, hp.rawData, hp.data, hp.offset, hp.flags, hp.payload, hp.nonempty, hp.seq⟩, ?_, ?_,
    connDatagram x.tcp raw, mem_outputs_drop hm _ [], hverifies, rfl⟩
  · simp [exchange, completedSegments]
  · simp
    omega

/-- One block is taken, behind the times `tx` and `ty` of the two clocks. -/
theorem round (hruns : TimersRun τ) (h : Going s x y) (hback : 0 < (exchange x y).backlog) {m n : ℕ}
    (hm : m ≤ x.log.length) (hn : n ≤ y.log.length) (tx ty : ℕ) :
    ∃ e₁ e₂ e₃ e₄ e₅, LateOk tx n y e₁ ∧ LateOk ty m (step x e₁) e₂ ∧
      LateOk (e₁.clock tx) n (step y e₂) e₃ ∧
      LateOk (e₂.clock ty) m (step (step x e₁) e₃) e₄ ∧
      LateOk (e₃.clock (e₁.clock tx)) n (step (step y e₂) e₄) e₅ ∧
      (exchange (step (step (step x e₁) e₃) e₅) (step (step y e₂) e₄)).acked.length =
        (exchange x y).acked.length + 1 := by
  rcases h.pending hback with ⟨seg, raw, hp⟩
  -- the timer sends it
  rcases h.sends hruns hp hm tx with ⟨e₁, hlate₁, hp₁, hacked₁, hm₁, dg, hdg, hverifies, rfl⟩
  have h₁ := (h.late (hlate₁ n y)).1
  -- it arrives, and is queued now if it was not before
  let e₂ : Event := .received (.working ty) (dg.received [])
  have hlate₂ : LateOk ty m (step x e₁) e₂ := lateOk_received ty hdg hverifies
  have h₂ := (h₁.latePeer hlate₂).1
  have hrcvd₂ := text_arrives h₁.live h₁.unwrapped h₁.this h₁.that hp₁ ty rfl h₂.live.inv
  have hn₂ : n ≤ (step y e₂).log.length := by
    have hle := (log_prefix_step y e₂).length_le
    omega
  -- the timer sends it once more
  rcases h₂.sends hruns hp₁ hm₁ (e₁.clock tx) with
      ⟨e₃, hlate₃, hp₃, hacked₃, _, dg', hdg', hverifies', hraw⟩
  rw [← hraw] at hp₃
  have h₃ := (h₂.late (hlate₃ n (step y e₂))).1
  -- the copy is answered
  let e₄ : Event := .received (.working ty) (dg'.received [])
  have hlate₄ : LateOk (e₂.clock ty) m (step (step x e₁) e₃) e₄ := lateOk_received ty hdg' hverifies'
  have h₄ := (h₃.latePeer hlate₄).1
  have hrcvd₃ : (exchange (step (step x e₁) e₃) (step y e₂)).rcvd =
      (exchange (step (step x e₁) e₃) (step y e₂)).acked ++ [seg.payload] := by
    rw [hacked₃]
    exact hrcvd₂
  have hanswer := copy_answered h₃.live h₃.unwrapped h₃.this h₃.that hp₃ hrcvd₃ ty
  let ack := connDatagram (step y e₂).tcp (bareAck (step y e₂).tcp)
  let t₃ := e₃.clock (e₁.clock tx)
  let e₅ : Event := .received (.working t₃) (ack.received [])
  have hlate₅ : LateOk t₃ n (step (step y e₂) e₄) e₅ := by
    refine lateOk_received t₃ ?_ (verifies_newSegment _ _ _ (by decide))
    rw [hanswer]
    exact mem_outputs_drop hn₂ ack []
  -- the acknowledgment takes it out of `tx_seg`
  have hrcvd₄ : (exchange (step (step x e₁) e₃) (step (step y e₂) e₄)).rcvd =
      (exchange (step (step x e₁) e₃) (step (step y e₂) e₄)).acked ++ [seg.payload] := by
    have hqueue : (exchange (step (step x e₁) e₃) (step (step y e₂) e₄)).rcvd =
        (exchange (step (step x e₁) e₃) (step y e₂)).rcvd := by
      rw [hanswer]
      simp [exchange, queuedBlocks]
    rw [hqueue]
    exact hrcvd₃
  have hack : ack.seg = bareAck (step (step y e₂) e₄).tcp := by
    rw [hanswer]
    rfl
  have hreleased := ack_releases h₄.live h₄.unwrapped h₄.this h₄.that hp₃ hrcvd₄ hack t₃
  refine ⟨e₁, e₂, e₃, e₄, e₅, hlate₁ n y, hlate₂, hlate₃ n _, hlate₄, hlate₅, ?_⟩
  rw [hreleased, List.length_append, List.length_singleton]
  have hsame : (exchange (step (step x e₁) e₃) (step (step y e₂) e₄)).acked =
      (exchange x y).acked := hacked₃.trans hacked₁
  rw [hsame]

/-! ## The way on -/

/-- Only the timers run, what arrives was sent after `p`, and no clock goes back. -/
def SinceOk (p : Pair τ) (t : TimedPair τ) : PairEvent → Prop
  | .atA e => LateOk t.nowA p.b.log.length t.pair.b e
  | .atB e => LateOk t.nowB p.a.log.length t.pair.a e

/-- Everything that `src` accepted has been queued at `dst`, and `src` knows it. -/
structure Delivered (src dst : Conn τ) : Prop where
  txSeg : src.tcp.txSeg = none
  txData : src.tcp.txData = []
  queued : queuedBlocks dst.log = acceptedBlocks src.log

structure Recovering (s : Endpoint) (p₀ p : Pair τ) : Prop where
  going : Going s p.a p.b
  laterA : p₀.a.log.length ≤ p.a.log.length
  laterB : p₀.b.log.length ≤ p.b.log.length
  acceptedA : acceptedBlocks p.a.log = acceptedBlocks p₀.a.log
  acceptedB : acceptedBlocks p.b.log = acceptedBlocks p₀.b.log

theorem recovering_step {p₀ : Pair τ} {t : TimedPair τ} (h : Recovering s p₀ t.pair) {e : PairEvent}
    (hok : SinceOk p₀ t e) : Recovering s p₀ (timedStep t e).pair := by
  cases e with
  | atA e =>
      rcases h.going.late hok with ⟨hgoing, haccepted⟩
      have hle := (log_prefix_step t.pair.a e).length_le
      exact ⟨hgoing, h.laterA.trans hle, h.laterB, haccepted.trans h.acceptedA, h.acceptedB⟩
  | atB e =>
      rcases h.going.latePeer hok with ⟨hgoing, haccepted⟩
      have hle := (log_prefix_step t.pair.b e).length_le
      exact ⟨hgoing, h.laterA, h.laterB.trans hle, h.acceptedA, haccepted.trans h.acceptedB⟩

/-- The blocks that are not acknowledged. -/
def unacked (p : Pair τ) : ℕ :=
  (exchange p.a p.b).backlog + (exchange p.b p.a).backlog

omit [LawfulTimerLib τ] in
theorem acked_length_step (c d : Conn τ) (e : Event) :
    (exchange c d).acked.length ≤ (exchange (step c e) d).acked.length := by
  rcases log_prefix_step c e with ⟨l, hlog⟩
  simp only [exchange, ← hlog, completedSegments_append, texts_append, List.length_append]
  exact Nat.le_add_right _ _

/-- What was accepted is acknowledged or not. -/
theorem Recovering.split {p₀ p : Pair τ} (h : Recovering s p₀ p) :
    (exchange p.a p.b).acked.length + (exchange p.a p.b).backlog =
        (acceptedBlocks p₀.a.log).length ∧
      (exchange p.b p.a).acked.length + (exchange p.b p.a).backlog =
        (acceptedBlocks p₀.b.log).length := by
  have hlive := h.going.live
  constructor
  · rw [← StopAndWait.length_sent, hlive.paced.sent hlive.this, h.acceptedA]
  · rw [← StopAndWait.length_sent, hlive.pacedPeer.sent hlive.that, h.acceptedB]

/-- Fewer blocks are left after a round of either end. -/
theorem recovering_round (hruns : TimersRun τ) {p₀ : Pair τ} {t : TimedPair τ}
    (h : Recovering s p₀ t.pair) (hleft : 0 < unacked t.pair) :
    ∃ es, Machine.Along timedStep (SinceOk p₀) t es ∧ Recovering s p₀ (runTimed t es).pair ∧
      unacked (runTimed t es).pair < unacked t.pair := by
  rcases t with ⟨p, nowA, nowB⟩
  have hkeep : ∀ es, Machine.Along timedStep (SinceOk p₀) ⟨p, nowA, nowB⟩ es →
      Recovering s p₀ (runTimed ⟨p, nowA, nowB⟩ es).pair :=
    fun es hes => Machine.run_invariant timedStep (I := fun t => Recovering s p₀ t.pair)
      (fun _ _ h hok => recovering_step h hok) h hes
  dsimp only at h hleft ⊢
  have hbefore := h.split
  by_cases hback : 0 < (exchange p.a p.b).backlog
  · rcases round hruns h.going hback h.laterA h.laterB nowA nowB with
        ⟨e₁, e₂, e₃, e₄, e₅, h₁, h₂, h₃, h₄, h₅, hacked⟩
    have hes : Machine.Along timedStep (SinceOk p₀) ⟨p, nowA, nowB⟩
        [.atA e₁, .atB e₂, .atA e₃, .atB e₄, .atA e₅] :=
      ⟨h₁, h₂, h₃, h₄, h₅, trivial⟩
    refine ⟨_, hes, hkeep _ hes, ?_⟩
    have hafter := (hkeep _ hes).split
    have hb₁ := acked_length_step p.b p.a e₂
    have hb₂ := acked_length_step (step p.b e₂) p.a e₄
    simp only [unacked, runTimed, Machine.run_cons, Machine.run_nil, timedStep, pairStep] at hafter ⊢
    have hsame : ∀ d : Conn τ, (exchange (step (step p.b e₂) e₄) d).acked =
        (exchange (step (step p.b e₂) e₄) p.a).acked := fun _ => rfl
    rw [hsame] at hafter
    omega
  · rcases round hruns h.going.flip (by unfold unacked at hleft; omega) h.laterB h.laterA nowB
        nowA with ⟨e₁, e₂, e₃, e₄, e₅, h₁, h₂, h₃, h₄, h₅, hacked⟩
    have hes : Machine.Along timedStep (SinceOk p₀) ⟨p, nowA, nowB⟩
        [.atB e₁, .atA e₂, .atB e₃, .atA e₄, .atB e₅] :=
      ⟨h₁, h₂, h₃, h₄, h₅, trivial⟩
    refine ⟨_, hes, hkeep _ hes, ?_⟩
    have hafter := (hkeep _ hes).split
    have ha₁ := acked_length_step p.a p.b e₂
    have ha₂ := acked_length_step (step p.a e₂) p.b e₄
    simp only [unacked, runTimed, Machine.run_cons, Machine.run_nil, timedStep, pairStep] at hafter ⊢
    have hsame : ∀ d : Conn τ, (exchange (step (step p.a e₂) e₄) d).acked =
        (exchange (step (step p.a e₂) e₄) p.b).acked := fun _ => rfl
    rw [hsame] at hafter
    omega

theorem Going.delivered (h : Going s x y) (hback : (exchange x y).backlog = 0) : Delivered x y := by
  have hsending : Sending True x := by
    have hshape := h.live.paced.send.shape
    rwa [h.this] at hshape
  have hs : x.tcp.txSeg = none := by
    by_contra hsome
    rcases Option.ne_none_iff_exists'.1 hsome with ⟨seg, hs⟩
    rcases h.live.pending h.this hs with ⟨raw, hp⟩
    have hflight : (exchange x y).inFlight = some seg.payload :=
      pendingText_some hs hp.nonempty
    simp [StopAndWait.backlog, hflight] at hback
  refine ⟨hs, hsending.busy hs, ?_⟩
  rw [← h.live.paced.sent (d := y) h.live.this]
  exact h.live.inv.rcvd_eq_sent hback

/-- A run of the data path, at a state in which both ends are ESTABLISHED. -/
theorem going_run {a₀ b₀ : Conn τ} (ha : OpenedLossy a₀) (hb : OpenedPassive b₀)
    {es : List PairEvent} (hok : Machine.Along pairStep PairOk ⟨a₀, b₀⟩ es)
    (hesta : (runPair ⟨a₀, b₀⟩ es).a.tcp.state = .established)
    (hestb : (runPair ⟨a₀, b₀⟩ es).b.tcp.state = .established)
    (hlenA : a₀.tcp.snd.iss.toNat + (acceptedBytes (runPair ⟨a₀, b₀⟩ es).a.log).length + 1502 ≤ 2 ^ 32)
    (hlenB : b₀.tcp.snd.iss.toNat + (acceptedBytes (runPair ⟨a₀, b₀⟩ es).b.log).length + 1502 ≤ 2 ^ 32)
    (hwholeA : AllText WholeWords (runPair ⟨a₀, b₀⟩ es).a)
    (hwholeB : AllText WholeWords (runPair ⟨a₀, b₀⟩ es).b) :
    Going ⟨false, a₀.tcp.snd.iss, b₀.tcp.snd.iss⟩ (runPair ⟨a₀, b₀⟩ es).a
      (runPair ⟨a₀, b₀⟩ es).b := by
  have hlen : longest (runPair ⟨a₀, b₀⟩ es) < 2 ^ 32 - 1 :=
    max_lt (by omega) (by omega)
  have hiss : a₀.tcp.snd.iss < a₀.tcp.snd.iss + 1 := lt_succ_of_toNat_lt (by omega)
  exact ⟨live_run ha hb hiss hok (by omega), ⟨hlenA, hlenB⟩, hesta, hestb, hwholeA, hwholeB⟩

/-- Round after round, until nothing is left. -/
theorem Going.exists_delivered (hruns : TimersRun τ) {p : Pair τ} (h : Going s p.a p.b)
    (nowA nowB : ℕ) :
    ∃ fs, Machine.Along timedStep (SinceOk p) ⟨p, nowA, nowB⟩ fs ∧ Recovering s p (runPair p fs) ∧
      Delivered (runPair p fs).a (runPair p fs).b ∧ Delivered (runPair p fs).b (runPair p fs).a := by
  have hstart : Recovering s p p := ⟨h, Nat.le_refl _, Nat.le_refl _, rfl, rfl⟩
  rcases Machine.exists_run_of_measure timedStep (C := SinceOk p) (I := fun t => Recovering s p t.pair)
      (m := fun t => unacked t.pair) (fun t ht hleft => recovering_round hruns ht hleft)
      (s := ⟨p, nowA, nowB⟩) hstart with ⟨fs, hfs, hend, hzero⟩
  rw [pair_runTimed] at hend hzero
  have hback : (exchange (runPair p fs).a (runPair p fs).b).backlog = 0 ∧
      (exchange (runPair p fs).b (runPair p fs).a).backlog = 0 :=
    Nat.add_eq_zero_iff.1 hzero
  exact ⟨fs, hfs, hend, hend.going.delivered hback.1, hend.going.flip.delivered hback.2⟩

omit [LawfulTimerLib τ]

/-- From every state of every run of the pair in which both ends are ESTABLISHED, with the numbers of
both streams and the windows behind them below `2^32`, and whole words in every buffer that is not yet
acknowledged: some run of the timers alone, in which only datagrams arrive that were sent after this
state and that `tcp_unpack` accepts, brings everything that was accepted to the other end and lets the
sender know.  The clocks may show any time at first, and go on from there. -/
theorem recovers [LastingTimerLib τ] {a₀ b₀ : Conn τ} (ha : OpenedLossy a₀) (hb : OpenedPassive b₀)
    {es : List PairEvent} (hok : Machine.Along pairStep PairOk ⟨a₀, b₀⟩ es)
    (hesta : (runPair ⟨a₀, b₀⟩ es).a.tcp.state = .established)
    (hestb : (runPair ⟨a₀, b₀⟩ es).b.tcp.state = .established)
    (hlenA : a₀.tcp.snd.iss.toNat + (acceptedBytes (runPair ⟨a₀, b₀⟩ es).a.log).length + 1502 ≤ 2 ^ 32)
    (hlenB : b₀.tcp.snd.iss.toNat + (acceptedBytes (runPair ⟨a₀, b₀⟩ es).b.log).length + 1502 ≤ 2 ^ 32)
    (hwholeA : AllText WholeWords (runPair ⟨a₀, b₀⟩ es).a)
    (hwholeB : AllText WholeWords (runPair ⟨a₀, b₀⟩ es).b) (nowA nowB : ℕ) :
    let p := runPair ⟨a₀, b₀⟩ es
    ∃ fs, Machine.Along timedStep (SinceOk p) ⟨p, nowA, nowB⟩ fs ∧
      Delivered (runPair p fs).a (runPair p fs).b ∧ Delivered (runPair p fs).b (runPair p fs).a ∧
      acceptedBlocks (runPair p fs).a.log = acceptedBlocks p.a.log ∧
      acceptedBlocks (runPair p fs).b.log = acceptedBlocks p.b.log ∧
      (runPair p fs).a.tcp.state = .established ∧ (runPair p fs).b.tcp.state = .established := by
  intro p
  let _ : LawfulTimerLib τ := TimedTimerLib.lawful τ
  rcases (going_run ha hb hok hesta hestb hlenA hlenB hwholeA hwholeB).exists_delivered
      (LastingTimerLib.timersRun τ) nowA nowB with
    ⟨fs, hfs, hend, hdeliveredA, hdeliveredB⟩
  exact ⟨fs, hfs, hdeliveredA, hdeliveredB, hend.acceptedA, hend.acceptedB, hend.going.this,
    hend.going.that⟩

/-- The first copy of two bytes was lost, and so were all acknowledgments. -/
theorem recovers_sample :
    let p := runPair ⟨sampleConn 100 (some samplePeer), sampleServer⟩ (sampleExchange.take 4)
    queuedBlocks p.b.log = [] ∧ acceptedBlocks p.a.log = [[1, 2]] ∧
      ∃ fs, Machine.Along timedStep (SinceOk p) ⟨p, 104, 203⟩ fs ∧
        Delivered (runPair p fs).a (runPair p fs).b := by
  intro p
  have hwholeA : AllText WholeWords p.a := by
    refine ⟨by decide, fun seg hs _ => ?_⟩
    cases hs
    decide
  have hwholeB : AllText WholeWords p.b := by
    refine ⟨by decide, fun seg hs _ => ?_⟩
    cases hs
  rcases recovers (openedLossy_sampleConn 100) openedPassive_sampleServer (sampleExchange_take_ok 4)
      (by decide) (by decide) (by decide) (by decide) hwholeA hwholeB 104 203 with
    ⟨fs, hfs, hdelivered, _⟩
  exact ⟨by decide, by decide, fs, hfs, hdelivered⟩

end Tcp
end DtsNet
