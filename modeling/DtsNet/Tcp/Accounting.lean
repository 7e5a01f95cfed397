import DtsNet.Tcp.Handlers

/-!
# Accounting — one segment in ESTABLISHED

The receiver should append the text that it expects and has room for, take the FIN if it is the
next number behind this text, and advance `RCV.NXT` by exactly what it took.  Without a FIN it
does.  A FIN is counted as text by `tcp_segment_length` and handled once more by
`tcp_handle_fin_ack`, which sets `RCV.NXT` anew from `SEG.SEQ`.
-/

namespace DtsNet
namespace Tcp

open Ip Dblk

variable {τ : Type}

/-! ## What is asked -/

/-- The bytes in `rx_data`. -/
def rxBytes (t : Tcb τ) : List Byte :=
  t.rxData.flatMap Block.bytes

/-- The text of a segment that the receiver expects and has room for. -/
def expectedText (t : Tcb τ) (seg : Received) : List Byte :=
  if seg.seq = t.rcv.nxt then seg.payload.take (min seg.payload.length t.rcv.wnd.toNat) else []

/-- The segment has a FIN, whose number is the next one behind the expected text. -/
def finExpected (t : Tcb τ) (seg : Received) : Bool :=
  segCtrlF seg.toSegment && seg.seq + UInt32.ofNat seg.payload.length ==
    t.rcv.nxt + UInt32.ofNat (expectedText t seg).length

structure Accounts (seg : Received) (c c' : Conn τ) : Prop where
  text : rxBytes c'.tcp = rxBytes c.tcp ++ expectedText c.tcp seg
  fin : c'.tcp.state = .closeWait ↔ finExpected c.tcp seg = true
  nxt : c'.tcp.rcv.nxt = c.tcp.rcv.nxt + UInt32.ofNat (expectedText c.tcp seg).length +
    if finExpected c.tcp seg then 1 else 0

theorem length_expectedText {t : Tcb τ} {seg : Received} (hseq : seg.seq = t.rcv.nxt) :
    (expectedText t seg).length = min seg.payload.length t.rcv.wnd.toNat := by
  rw [expectedText, if_pos hseq, List.length_take]
  omega

theorem expectedText_congr {t t' : Tcb τ} (h : t'.rcv = t.rcv) (seg : Received) :
    expectedText t' seg = expectedText t seg := by
  rw [expectedText, expectedText, h]

theorem ofNat_wnd_ne_zero {wnd : UInt16} (h : wnd ≠ 0) : UInt32.ofNat wnd.toNat ≠ 0 := by
  intro hzero
  have hlt := wnd.toNat_lt
  have hnat := congrArg UInt32.toNat hzero
  rw [UInt32.toNat_ofNat', Nat.mod_eq_of_lt (by omega)] at hnat
  exact h (UInt16.toNat_inj.1 hnat)

/-! ## The text -/

theorem rxBytes_takeText (t : Tcb τ) (dat : Received) :
    rxBytes (takeText t dat) = rxBytes t ++ textBytes t dat := by
  simp [rxBytes, takeText, Block.bytes]

section Text

variable {env : Env} {c : Conn τ} {seg : Received}

theorem tcpHandleData_tcp_of (hmem : env.AllocOk) (hseq : seg.seq = c.tcp.rcv.nxt)
    (hlen : 0 < tcpSegmentLength seg.toSegment) :
    (tcpHandleData env c seg).1.tcp = takeText c.tcp seg := by
  rcases tcpHandleData_cases env c seg with ⟨_, hnot⟩ | ⟨_, _, htcp, _⟩
  · have hfail := hnot hseq hlen
    rw [hmem] at hfail
    cases hfail
  · exact htcp

theorem tcpHandleData_of_not (h : seg.seq = c.tcp.rcv.nxt → tcpSegmentLength seg.toSegment = 0) :
    (tcpHandleData env c seg).1 = c := by
  rcases tcpHandleData_cases env c seg with ⟨heq, _⟩ | ⟨hseq, hlen, _⟩
  · exact heq
  · rw [h hseq] at hlen
    exact absurd hlen (Nat.lt_irrefl _)

/-- Without SYN and FIN exactly the expected text is taken. -/
theorem tcpHandleData_of_plain (hmem : env.AllocOk) (hS : segCtrlS seg.toSegment = false)
    (hF : segCtrlF seg.toSegment = false) :
    rxBytes (tcpHandleData env c seg).1.tcp = rxBytes c.tcp ++ expectedText c.tcp seg ∧
      (tcpHandleData env c seg).1.tcp.rcv.nxt =
        c.tcp.rcv.nxt + UInt32.ofNat (expectedText c.tcp seg).length := by
  have hlen := tcpSegmentLength_of_plain hS hF
  by_cases hseq : seg.seq = c.tcp.rcv.nxt
  · have hexpected := length_expectedText hseq
    by_cases hpos : 0 < tcpSegmentLength seg.toSegment
    · have hn : textLength c.tcp seg = min seg.payload.length c.tcp.rcv.wnd.toNat := by
        rw [textLength, hlen, Nat.min_comm]
      have htext : textBytes c.tcp seg = expectedText c.tcp seg := by
        rw [textBytes, hn, expectedText, if_pos hseq]
        exact memRead_append_left (Nat.min_le_left _ _) _
      rw [tcpHandleData_tcp_of hmem hseq hpos, rxBytes_takeText, htext, hexpected, ← hn]
      exact ⟨rfl, rfl⟩
    · have hzero : tcpSegmentLength seg.toSegment = 0 := by omega
      have hpayload : seg.payload = [] := List.eq_nil_of_length_eq_zero (hlen ▸ hzero)
      rw [tcpHandleData_of_not fun _ => hzero]
      simp [expectedText, hpayload]
  · rw [tcpHandleData_of_not fun h => absurd h hseq]
    simp [expectedText, hseq]

/-- What `tcp_handle_fin_ack` makes of `RCV.NXT`. -/
theorem tcpHandleFinAck_nxt (env : Env) (c : Conn τ) (seg : Received) :
    (tcpHandleFinAck env c seg).1.tcp.rcv.nxt = seg.seq + 1 ∨
      (tcpHandleFinAck env c seg).1.tcp.rcv.nxt = c.tcp.rcv.nxt := by
  cases h : sncmp c.tcp.snd.una .ls seg.ack .le c.tcp.snd.nxt with
  | false =>
      rw [tcpHandleFinAck_of_not env c h]
      exact Or.inr rfl
  | true =>
      rw [(tcpHandleFinAck_of env c h).1]
      exact Or.inl rfl

end Text

/-! ## The segment -/

section Established

variable [TimerLib τ] {env : Env} {c : Conn τ} {seg : Received}

theorem rxBytes_ackEstablished (env : Env) (c : Conn τ) (seg : Received) :
    rxBytes (ackEstablished env c seg).tcp = rxBytes c.tcp := by
  rcases ackEstablished_cases env c seg with ⟨h, _⟩ | ⟨s, _, _, _, h⟩
  · rw [h]
  · rw [h, rxBytes, tcpConstructData_rxData]
    rfl

theorem accounts_of_plain (hst : c.tcp.state = .established) (hmem : env.AllocOk)
    (hS : segCtrlS seg.toSegment = false) (hF : segCtrlF seg.toSegment = false) :
    Accounts seg c (textEstablished env c seg) := by
  have hrcv := ackEstablished_rcv env c seg
  have htext := expectedText_congr hrcv seg
  rcases @tcpHandleData_of_plain τ env (ackEstablished env c seg) seg hmem hS hF with ⟨hrx, hnxt⟩
  refine ⟨?_, ?_, ?_⟩
  · rw [textEstablished, hrx, rxBytes_ackEstablished, htext]
  · simp [textEstablished, hst, finExpected, hF]
  · rw [textEstablished, hnxt, htext, hrcv]
    simp [finExpected, hF]

/-- An expected FIN: it is queued as a byte of text or, where the window ends before it, `RCV.NXT`
does not step over it. -/
theorem not_accounts_of_fin_inOrder {c' : Conn τ} (hwnd : c.tcp.rcv.wnd ≠ 0) (hmem : env.AllocOk)
    (hF : segCtrlF seg.toSegment = true) (hst' : c'.tcp.state = .closeWait)
    (hrx' : rxBytes c'.tcp = rxBytes (textEstablished env c seg).tcp)
    (hnxt' : c'.tcp.rcv.nxt = seg.seq + 1 ∨
      c'.tcp.rcv.nxt = (textEstablished env c seg).tcp.rcv.nxt)
    (hseq : seg.seq = c.tcp.rcv.nxt) : ¬ Accounts seg c c' := by
  intro h
  have hrcv := ackEstablished_rcv env c seg
  have hlen : seg.payload.length + 1 ≤ tcpSegmentLength seg.toSegment := by
    rw [tcpSegmentLength, hF, if_pos rfl]
    omega
  have hseq' : seg.seq = (ackEstablished env c seg).tcp.rcv.nxt := by rw [hrcv, hseq]
  have htaken : (textEstablished env c seg).tcp = takeText (ackEstablished env c seg).tcp seg :=
    tcpHandleData_tcp_of hmem hseq' (by omega)
  have hn : textLength (ackEstablished env c seg).tcp seg =
      min c.tcp.rcv.wnd.toNat (tcpSegmentLength seg.toSegment) := by
    rw [textLength, hrcv]
  -- as many bytes are queued as expected only if the window ends before the FIN
  have hqueued := congrArg List.length h.text
  rw [hrx', htaken, rxBytes_takeText, rxBytes_ackEstablished, List.length_append,
    List.length_append, length_textBytes, hn, length_expectedText hseq] at hqueued
  have hfull : (expectedText c.tcp seg).length = c.tcp.rcv.wnd.toNat := by
    rw [length_expectedText hseq]
    omega
  have hnxt := h.nxt
  rw [h.fin.1 hst', if_pos rfl, hfull] at hnxt
  rcases hnxt' with hnxt' | hnxt'
  · rw [hnxt', hseq, add_assoc] at hnxt
    have hone := add_left_cancel hnxt
    exact ofNat_wnd_ne_zero hwnd (by grind)
  · have hn' : textLength (ackEstablished env c seg).tcp seg = c.tcp.rcv.wnd.toNat := by
      omega
    rw [hnxt', htaken, takeText, hn', hrcv] at hnxt
    grind

/-- A FIN behind text that is not expected takes the state along, but `RCV.NXT` stays or goes back
to the text. -/
theorem not_accounts_of_fin_outOfOrder {c' : Conn τ} (hst' : c'.tcp.state = .closeWait)
    (hnxt' : c'.tcp.rcv.nxt = seg.seq + 1 ∨
      c'.tcp.rcv.nxt = (textEstablished env c seg).tcp.rcv.nxt)
    (hseq : seg.seq ≠ c.tcp.rcv.nxt) : ¬ Accounts seg c c' := by
  intro h
  have hrcv := ackEstablished_rcv env c seg
  have hexpected : expectedText c.tcp seg = [] := by
    rw [expectedText, if_neg hseq]
  have hsame : textEstablished env c seg = ackEstablished env c seg := by
    refine tcpHandleData_of_not fun h => ?_
    rw [hrcv] at h
    exact absurd h hseq
  have hnxt := h.nxt
  rw [h.fin.1 hst', if_pos rfl, hexpected] at hnxt
  rcases hnxt' with hnxt' | hnxt'
  · rw [hnxt'] at hnxt
    exact hseq (by simpa using hnxt)
  · rw [hnxt', hsame, hrcv] at hnxt
    simp at hnxt

/-- For every ESTABLISHED connection and every segment that passes the sequence check and has an
ACK and neither RST nor SYN: the account balances exactly if there is no FIN. -/
theorem accounts_iff (hst : c.tcp.state = .established) (hmem : env.AllocOk)
    (hacc : seqAccepted c.tcp seg.toSegment = true) (hA : segCtrlA seg.toSegment = true)
    (hR : segCtrlR seg.toSegment = false) (hS : segCtrlS seg.toSegment = false) :
    Accounts seg c (tcpReceived env c seg) ↔ segCtrlF seg.toSegment = false := by
  have hreceived : tcpReceived env c seg = receivedWhenEstablished env c seg := by
    simp [tcpReceived, hst, receivedEventProcess]
  rw [hreceived, receivedWhenEstablished_of_ack env c hacc hR hA]
  cases hF : segCtrlF seg.toSegment with
  | false =>
      simpa using accounts_of_plain hst hmem hS hF
  | true =>
      have hwnd : c.tcp.rcv.wnd ≠ 0 := by
        simp only [seqAccepted, Bool.and_eq_true, bne_iff_ne] at hacc
        exact hacc.1
      have hrx : ∀ c : Conn τ, rxBytes (tcpHandleFinAck env c seg).1.tcp = rxBytes c.tcp := by
        intro c
        cases h : sncmp c.tcp.snd.una .ls seg.ack .le c.tcp.snd.nxt with
        | false =>
            rw [tcpHandleFinAck_of_not env c h]
        | true =>
            rw [(tcpHandleFinAck_of env c h).1]
            rfl
      have hnxt := tcpHandleFinAck_nxt env (textEstablished env c seg) seg
      simp only [if_true, Bool.true_eq_false, iff_false]
      by_cases hseq : seg.seq = c.tcp.rcv.nxt
      · exact not_accounts_of_fin_inOrder hwnd hmem hF rfl (hrx _) hnxt hseq
      · exact not_accounts_of_fin_outOfOrder rfl hnxt hseq

end Established

/-- One byte of text for the sample connection. -/
theorem accounts_iff_sample :
    let c := runConn (sampleConn 100 (some samplePeer))
      [.received (.working 101) (peerSegment 700 101 (segFlagSyn ||| segFlagAck) [])]
    Accounts (peerSegment 701 101 segFlagAck [9]) c
      (tcpReceived (.working 102) c (peerSegment 701 101 segFlagAck [9])) := by
  have hst : (runConn (sampleConn 100 (some samplePeer))
      [.received (.working 101) (peerSegment 700 101 (segFlagSyn ||| segFlagAck) [])]).tcp.state =
      .established := by
    decide
  exact (accounts_iff hst (Env.allocOk_working 102) (by decide) (by decide) (by decide)
    (by decide)).2 (by decide)

/-- A FIN without text, in order: the byte behind the segment is queued as text. -/
theorem accounts_fails_sample :
    let c := runConn (sampleConn 100 (some samplePeer))
      [.received (.working 101) (peerSegment 700 101 (segFlagSyn ||| segFlagAck) [])]
    let fin := peerSegment 701 101 (segFlagFin ||| segFlagAck) []
    c.tcp.state = .established ∧ seqAccepted c.tcp fin.toSegment = true ∧
      expectedText c.tcp fin = [] ∧
      (tcpReceived (.working 102) c fin).tcp.rxData.flatMap Block.bytes = [0] ∧
      ¬ Accounts fin c (tcpReceived (.working 102) c fin) := by
  refine ⟨by decide, by decide, by decide, by decide, ?_⟩
  intro h
  exact absurd h.text (by decide)

end Tcp
end DtsNet
