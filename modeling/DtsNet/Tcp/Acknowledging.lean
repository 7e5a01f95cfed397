import DtsNet.Tcp.Binding
import DtsNet.Tcp.Emission
import DtsNet.Tcp.Queue
import DtsNet.Library.Channel

/-!
# Acknowledging — which numbers the connection acknowledges

A peer sends slices of one stream of bytes, and a FIN behind the last byte.  An acknowledgment
should not cover a byte that was not queued to `rx_data`, nor the FIN before all bytes.  The ACK
numbers come from `rcv.nxt`; `tcp_handle_data` moves it over queued text only, but
`tcp_handle_fin_ack` sets it behind whatever FIN it is given.  `AckOk` asks for FINs in order.
-/

namespace DtsNet
namespace Tcp

open Ip Dblk History Slices

variable {τ : Type}

/-! ## The peer -/

/-- What the peer has to say: its initial sequence number and its bytes. -/
structure Peer where
  irs : UInt32
  stream : List Byte

/-- The number `k` places behind the SYN. -/
def Peer.seq (p : Peer) (k : ℕ) : UInt32 :=
  p.irs + 1 + UInt32.ofNat k

/-- A segment of the peer whose text starts at offset `o` of the stream.  The FIN comes right
behind the last byte; segments without SYN, text and FIN may have any sequence number. -/
structure Peer.Sends (p : Peer) (seg : Segment) (o : ℕ) : Prop where
  syn : segCtrlS seg = true → seg.seq = p.irs ∧ segCtrlF seg = false
  text : segCtrlS seg = false → seg.payload ≠ [] ∨ segCtrlF seg = true →
    seg.seq = p.seq o ∧ SliceAt p.stream o seg.payload
  fin : segCtrlF seg = true → o + seg.payload.length = p.stream.length

/-! ## The property -/

/-- The number `ack` covers the first bytes of the stream, and behind the last byte the FIN; all
of these bytes were queued. -/
def Covered (p : Peer) (log : List Action) (ack : UInt32) : Prop :=
  ∃ k ≤ p.stream.length + 1, ack = p.seq k ∧ p.stream.take k <+: queuedBytes log

def AckCovered (p : Peer) (log : List Action) (seg : Segment) : Prop :=
  segCtrlA seg = true → Covered p log seg.ack

theorem lasting_ackCovered (p : Peer) : Lasting (AckCovered p) := by
  intro log l seg h hA
  rcases h hA with ⟨k, hk, hack, hq⟩
  refine ⟨k, hk, hack, ?_⟩
  rw [queuedBytes_append]
  exact hq.trans (List.prefix_append _ _)

theorem ackCovered_rst (p : Peer) (log : List Action) (t : Tcb τ) (seq ack : UInt32) :
    AckCovered p log (newSegment t seq ack segFlagRst []) := by
  intro hA
  have hno : segCtrlA (newSegment t seq ack segFlagRst []) = false := (ctrl_of_flags_rst rfl).1
  rw [hno] at hA
  cases hA

/-! ## The invariant -/

/-- `rcv.nxt` may be acknowledged, and what was queued agrees with the stream as far as that
goes. -/
structure AckReady (p : Peer) (c : Conn τ) : Prop where
  agrees : (queuedBytes c.log).take p.stream.length <+: p.stream
  nxt : Covered p c.log c.tcp.rcv.nxt

/-- Exactly the bytes before `rcv.nxt` were queued. -/
structure InOrder (p : Peer) (c : Conn τ) : Prop where
  queued : queuedBytes c.log <+: p.stream
  nxt : c.tcp.rcv.nxt = p.seq (queuedBytes c.log).length

def AckShape (p : Peer) (c : Conn τ) : State → Prop
  | .listen => queuedBytes c.log = []
  | .synSent => queuedBytes c.log = []
  | .synReceived => queuedBytes c.log = [] ∧ c.tcp.rcv.nxt = p.irs + 1
  | .established => InOrder p c
  | .closing => True
  | .closed => True
  | _ => AckReady p c

structure AckInv (p : Peer) (c : Conn τ) : Prop where
  emits : Emits (AckCovered p) c
  shape : AckShape p c c.tcp.state

/-- A FIN in order: what comes before it was queued, and if it has text, the first byte of that
too, or `takes` says that it will be. -/
def FinInOrder (queued o : ℕ) (seg : Segment) (takes : Prop) : Prop :=
  if seg.payload = [] then o ≤ queued else o < queued ∨ takes

/-- `tcp_handle_fin_ack` acts on the acknowledgment. -/
def FinTaken (t : Tcb τ) (seg : Received) : Prop :=
  sncmp t.snd.una .ls seg.ack .le t.snd.nxt = true

/-- The segment comes from the peer.  If it is in ESTABLISHED and starts at `rcv.nxt`, it is not
one from `2^32` numbers before; if its FIN is looked at, the FIN is in order. -/
def AckOk (p : Peer) [TimerLib τ] (c : Conn τ) : Event → Prop
  | .received env seg => ∃ o, p.Sends seg.toSegment o ∧
      match c.tcp.state with
      | .established =>
          (2 ^ 32 ≤ p.stream.length + 1 → seg.seq = c.tcp.rcv.nxt →
            0 < tcpSegmentLength seg.toSegment →
              segCtrlS seg.toSegment = false ∧ o = (queuedBytes c.log).length) ∧
          (seqAccepted c.tcp seg.toSegment = true → segCtrlR seg.toSegment = false →
            segCtrlAF seg.toSegment = true → FinTaken (ackEstablished env c seg).tcp seg →
              FinInOrder (queuedBytes c.log).length o seg.toSegment
                (seg.seq = c.tcp.rcv.nxt ∧
                  env.malloc .rxBlock (ackEstablished env c seg).log = true))
      | .finWait2 | .timeWait | .closeWait =>
          segCtrlAF seg.toSegment = true → FinTaken c.tcp seg →
            FinInOrder (queuedBytes c.log).length o seg.toSegment False
      | _ => True
  | _ => True

/-! ## The stream and what was queued -/

section Stream

variable {p : Peer} {c c' : Conn τ}

theorem covered_zero (log : List Action) : Covered p log (p.irs + 1) :=
  ⟨0, Nat.zero_le _, by simp [Peer.seq], by simp⟩

theorem InOrder.ready (h : InOrder p c) : AckReady p c := by
  have hlen := h.queued.length_le
  refine ⟨?_, _, Nat.le_succ_of_le hlen, h.nxt, ?_⟩
  · rw [List.take_of_length_le hlen]
    exact h.queued
  · rw [← List.prefix_iff_eq_take.1 h.queued]

/-- Nothing was queued yet. -/
theorem inOrder_of_nil (hq : queuedBytes c.log = []) (hnxt : c.tcp.rcv.nxt = p.irs + 1) :
    InOrder p c := by
  refine ⟨?_, ?_⟩
  · rw [hq]
    exact List.nil_prefix
  · rw [hnxt, hq]
    simp [Peer.seq]

theorem AckReady.congr (h : AckReady p c) (hq : queuedBytes c'.log = queuedBytes c.log)
    (hnxt : c'.tcp.rcv.nxt = c.tcp.rcv.nxt) : AckReady p c' := by
  refine ⟨?_, ?_⟩
  · rw [hq]
    exact h.agrees
  · rw [hnxt]
    rcases h.nxt with ⟨k, hk, hack, hcov⟩
    exact ⟨k, hk, hack, by rw [hq]; exact hcov⟩

theorem InOrder.congr (h : InOrder p c) (hq : queuedBytes c'.log = queuedBytes c.log)
    (hnxt : c'.tcp.rcv.nxt = c.tcp.rcv.nxt) : InOrder p c' := by
  refine ⟨?_, ?_⟩
  · rw [hq]
    exact h.queued
  · rw [hq, hnxt]
    exact h.nxt

theorem Peer.Sends.not_syn {seg : Segment} {o : ℕ} (h : p.Sends seg o)
    (hF : segCtrlF seg = true) : segCtrlS seg = false := by
  by_contra hS
  have hno := (h.syn (by simpa using hS)).2
  rw [hF] at hno
  cases hno

/-- Where the FIN starts, counted from the SYN. -/
theorem Peer.Sends.seq_fin {seg : Segment} {o : ℕ} (h : p.Sends seg o)
    (hF : segCtrlF seg = true) : seg.seq + 1 = p.seq (o + 1) := by
  rw [(h.text (h.not_syn hF) (Or.inr hF)).1]
  exact Circular.add_ofNat_add _ o 1

/-- What `tcp_handle_fin_ack` acknowledges is covered if the bytes before it were queued. -/
theorem covered_fin {log : List Action} {seg : Segment} {o : ℕ} (hsends : p.Sends seg o)
    (hF : segCtrlF seg = true) (hq : p.stream.take (o + 1) <+: queuedBytes log) :
    Covered p log (seg.seq + 1) := by
  have ho := hsends.fin hF
  exact ⟨o + 1, by omega, hsends.seq_fin hF, hq⟩

theorem take_prefix_of_finInOrder {seg : Segment} {o : ℕ} (hsends : p.Sends seg o)
    (hF : segCtrlF seg = true) (hagrees : (queuedBytes c.log).take p.stream.length <+: p.stream)
    (horder : FinInOrder (queuedBytes c.log).length o seg False) :
    p.stream.take (o + 1) <+: queuedBytes c.log := by
  have ho := hsends.fin hF
  by_cases hpayload : seg.payload = []
  · -- the FIN has no text: it stands behind the whole stream
    rw [FinInOrder, if_pos hpayload] at horder
    rw [hpayload, List.length_nil, Nat.add_zero] at ho
    have hall : p.stream.take (o + 1) = p.stream.take o := by
      rw [ho, List.take_length, List.take_of_length_le (by omega)]
    rw [hall]
    exact take_prefix_of_agree hagrees horder
  · rw [FinInOrder, if_neg hpayload, or_false] at horder
    exact take_prefix_of_agree hagrees horder

/-- Text at `rcv.nxt` is the slice behind what was queued. -/
theorem InOrder.slice {seg : Segment} {o : ℕ} (hc : InOrder p c) (hsends : p.Sends seg o)
    (hseq : seg.seq = c.tcp.rcv.nxt) (hlen : 0 < tcpSegmentLength seg)
    (hold : 2 ^ 32 ≤ p.stream.length + 1 →
      segCtrlS seg = false ∧ o = (queuedBytes c.log).length) :
    segCtrlS seg = false ∧ o = (queuedBytes c.log).length ∧ SliceAt p.stream o seg.payload := by
  have hq := hc.queued.length_le
  have hnot : segCtrlS seg = false := by
    by_cases hbig : 2 ^ 32 ≤ p.stream.length + 1
    · exact (hold hbig).1
    · by_contra hS
      -- the SYN is `2^32` numbers away from everything behind it
      have hirs : p.irs + UInt32.ofNat 0 =
          p.irs + UInt32.ofNat (1 + (queuedBytes c.log).length) := by
        have h := (hsends.syn (by simpa using hS)).1
        rw [hseq, hc.nxt, Peer.seq] at h
        rw [← Circular.add_ofNat_add]
        simpa using h.symm
      have := Circular.ofNat_add_inj (by omega) (by omega) hirs
      omega
  have htext : seg.payload ≠ [] ∨ segCtrlF seg = true := by
    by_contra hno
    rw [not_or, not_not, Bool.not_eq_true] at hno
    rw [tcpSegmentLength_of_plain hnot hno.2, hno.1] at hlen
    exact Nat.lt_irrefl _ hlen
  rcases hsends.text hnot htext with ⟨hseq', hslice⟩
  refine ⟨hnot, ?_, hslice⟩
  by_cases hbig : 2 ^ 32 ≤ p.stream.length + 1
  · exact (hold hbig).2
  · have ho := hslice.1
    have heq : p.seq o = p.seq (queuedBytes c.log).length := by
      rw [← hseq', ← hc.nxt, hseq]
    exact Circular.ofNat_add_inj (by omega) (by omega) heq

/-- What `tcp_handle_data` queues from such a segment: text of the stream, and behind the last
byte perhaps one more for the FIN. -/
theorem textBytes_of_slice {t : Tcb τ} {dat : Received} {q : List Byte} (hq : q <+: p.stream)
    (hS : segCtrlS dat.toSegment = false) (hslice : SliceAt p.stream q.length dat.payload)
    (hfin : segCtrlF dat.toSegment = true → q.length + dat.payload.length = p.stream.length) :
    q ++ textBytes t dat <+: p.stream ∨
      segCtrlF dat.toSegment = true ∧ textLength t dat = dat.payload.length + 1 ∧
        ∃ rest, q ++ textBytes t dat = p.stream ++ rest := by
  have hlen : tcpSegmentLength dat.toSegment =
      dat.payload.length + if segCtrlF dat.toSegment then 1 else 0 := by
    simp [tcpSegmentLength, hS]
  have hle : textLength t dat ≤ tcpSegmentLength dat.toSegment := Nat.min_le_right _ _
  by_cases hshort : textLength t dat ≤ dat.payload.length
  · left
    rw [textBytes, memRead_append_left hshort]
    exact (hslice.take _).prefix_append hq
  · right
    cases hF : segCtrlF dat.toSegment with
    | false =>
        simp [hlen, hF] at hle
        omega
    | true =>
        simp only [hlen, hF, if_true] at hle
        have hwhole : q ++ dat.payload = p.stream := by
          refine (hslice.prefix_append hq).eq_of_length ?_
          simpa using hfin hF
        refine ⟨rfl, by omega, memRead dat.beyond (textLength t dat - dat.payload.length), ?_⟩
        rw [textBytes, memRead_append_right (by omega), ← List.append_assoc, hwhole]

end Stream

/-! ## Text -/

section Text

variable {p : Peer} {c : Conn τ} (env : Env)

/-- The part of `received_when_established` behind the acknowledgment, for a segment of the
peer. -/
structure TextDone (p : Peer) (c c' : Conn τ) (seg : Received) : Prop where
  emits : Emits (AckCovered p) c'
  ready : AckReady p c'
  inOrder : segCtrlF seg.toSegment = false → InOrder p c'
  grows : queuedBytes c.log <+: queuedBytes c'.log

theorem textDone_tcpHandleData (hemits : Emits (AckCovered p) c) (hc : InOrder p c)
    {seg : Received} {o : ℕ} (hsends : p.Sends seg.toSegment o)
    (hold : 2 ^ 32 ≤ p.stream.length + 1 → seg.seq = c.tcp.rcv.nxt →
      0 < tcpSegmentLength seg.toSegment →
        segCtrlS seg.toSegment = false ∧ o = (queuedBytes c.log).length) :
    TextDone p c (tcpHandleData env c seg).1 seg := by
  rcases tcpHandleData_cases env c seg with ⟨h, _⟩ | ⟨hseq, hlen, htcp, l, hlog, hl⟩
  · rw [h]
    exact ⟨hemits, hc.ready, fun _ => hc, List.prefix_refl _⟩
  · rcases hc.slice hsends hseq hlen (fun hbig => hold hbig hseq hlen) with ⟨hS, ho, hslice⟩
    have hqueue : queuedBytes (tcpHandleData env c seg).1.log =
        queuedBytes c.log ++ textBytes c.tcp seg := by
      rcases hl with rfl | ⟨sent, rfl⟩ <;> simp [hlog, queuedBytes]
    have hnxt : (takeText c.tcp seg).rcv.nxt =
        p.seq ((queuedBytes c.log).length + textLength c.tcp seg) := by
      rw [takeText, hc.nxt]
      exact Circular.add_ofNat_add _ _ _
    rw [ho] at hslice
    have hfin : segCtrlF seg.toSegment = true →
        (queuedBytes c.log).length + seg.payload.length = p.stream.length := by
      intro hF
      rw [← ho]
      exact hsends.fin hF
    have hqlen : (queuedBytes c.log ++ textBytes c.tcp seg).length =
        (queuedBytes c.log).length + textLength c.tcp seg := by
      simp
    have hcases := textBytes_of_slice (t := c.tcp) hc.queued hS hslice hfin
    -- what is acknowledged for the text
    have hcov : Covered p (c.log ++ [.queued (textBytes c.tcp seg)])
        (takeText c.tcp seg).rcv.nxt := by
      have hq : queuedBytes (c.log ++ [.queued (textBytes c.tcp seg)]) =
          queuedBytes c.log ++ textBytes c.tcp seg := by
        simp [queuedBytes]
      refine ⟨_, ?_, hnxt, ?_⟩
      · rcases hcases with h | ⟨hF, htl, _⟩
        · have := h.length_le
          omega
        · have := hfin hF
          omega
      · rw [hq]
        rcases hcases with h | ⟨hF, htl, rest, h⟩
        · rw [← hqlen, ← List.prefix_iff_eq_take.1 h]
        · rw [h]
          exact (List.take_prefix _ _).trans (List.prefix_append _ _)
    refine ⟨?_, ⟨?_, ?_⟩, ?_, ?_⟩
    · exact emits_tcpHandleData env (lasting_ackCovered p) hemits seg fun _ _ _ => hcov
    · rw [hqueue]
      rcases hcases with h | ⟨_, _, rest, h⟩
      · exact (List.take_prefix _ _).trans h
      · rw [h, List.take_left]
    · rw [htcp]
      rcases hcov with ⟨k, hk, hack, hq⟩
      refine ⟨k, hk, hack, ?_⟩
      rw [hqueue]
      simpa [queuedBytes] using hq
    · intro hF
      refine ⟨?_, ?_⟩
      · rw [hqueue]
        rcases hcases with h | ⟨hF', _⟩
        · exact h
        · simp [hF] at hF'
      · rw [htcp, hnxt, hqueue, hqlen]
    · rw [hqueue]
      exact List.prefix_append _ _

/-- A FIN whose first byte of text is at `rcv.nxt` has that byte queued if memory can be had. -/
theorem take_prefix_of_taken (hc : InOrder p c) {seg : Received} {o : ℕ}
    (hsends : p.Sends seg.toSegment o) (hF : segCtrlF seg.toSegment = true)
    (hold : 2 ^ 32 ≤ p.stream.length + 1 → seg.seq = c.tcp.rcv.nxt →
      0 < tcpSegmentLength seg.toSegment →
        segCtrlS seg.toSegment = false ∧ o = (queuedBytes c.log).length)
    (hdone : TextDone p c (tcpHandleData env c seg).1 seg) (hwnd : c.tcp.rcv.wnd ≠ 0)
    (hseq : seg.seq = c.tcp.rcv.nxt) (hmem : env.malloc .rxBlock c.log = true) :
    p.stream.take (o + 1) <+: queuedBytes (tcpHandleData env c seg).1.log := by
  have hlen : 0 < tcpSegmentLength seg.toSegment := by
    simp [tcpSegmentLength, hF]
  have ho := (hc.slice hsends hseq hlen fun hbig => hold hbig hseq hlen).2.1
  rcases tcpHandleData_cases env c seg with ⟨_, hno⟩ | ⟨_, _, _, l, hlog, hl⟩
  · rw [hno hseq hlen] at hmem
    cases hmem
  · have hqueue : queuedBytes (tcpHandleData env c seg).1.log =
        queuedBytes c.log ++ textBytes c.tcp seg := by
      rcases hl with rfl | ⟨sent, rfl⟩ <;> simp [hlog, queuedBytes]
    have hwnd' : 0 < c.tcp.rcv.wnd.toNat := by
      by_contra h
      exact hwnd (UInt16.toNat_inj.1 (by simpa using h))
    have htext : 0 < textLength c.tcp seg := Nat.lt_min.2 ⟨hwnd', hlen⟩
    refine take_prefix_of_agree hdone.ready.agrees ?_
    rw [hqueue, List.length_append, length_textBytes, ho]
    omega

/-- `tcp_handle_fin_ack` on a FIN behind queued bytes only. -/
theorem ready_tcpHandleFinAck (hemits : Emits (AckCovered p) c) (hc : AckReady p c)
    {seg : Received} {o : ℕ} (hsends : p.Sends seg.toSegment o)
    (hF : segCtrlF seg.toSegment = true)
    (horder : FinTaken c.tcp seg → p.stream.take (o + 1) <+: queuedBytes c.log) :
    Emits (AckCovered p) (tcpHandleFinAck env c seg).1 ∧
      AckReady p (tcpHandleFinAck env c seg).1 := by
  have hqueue := (queueMove_tcpHandleFinAck env c seg).bytes_eq
  refine ⟨?_, ?_⟩
  · exact emits_tcpHandleFinAck env (lasting_ackCovered p) hemits seg fun htaken _ =>
      covered_fin hsends hF (horder htaken)
  · cases htaken : sncmp c.tcp.snd.una .ls seg.ack .le c.tcp.snd.nxt with
    | false =>
        rw [tcpHandleFinAck_of_not env c htaken]
        exact hc
    | true =>
        refine ⟨?_, ?_⟩
        · rw [hqueue]
          exact hc.agrees
        · rw [(tcpHandleFinAck_of env c htaken).1, takeFin]
          refine covered_fin hsends hF ?_
          rw [hqueue]
          exact horder htaken

end Text

/-! ## The handlers -/

section Handlers

variable {p : Peer} {c c' : Conn τ} (env : Env)

theorem ackCovered_of_ready (h : AckReady p c) {seg : Segment} (hack : seg.ack = c.tcp.rcv.nxt) :
    AckCovered p c.log seg := by
  intro _
  rw [hack]
  exact h.nxt

theorem ackInv_receivedWhenListen (hst : c.tcp.state = .listen) (hc : AckInv p c)
    {seg : Received} (hsyn : segCtrlS seg.toSegment = true → seg.seq = p.irs) :
    AckInv p (receivedWhenListen env c seg) := by
  have hnil : queuedBytes c.log = [] := by
    have h := hc.shape
    rw [hst] at h
    exact h
  have hqueue : queuedBytes (receivedWhenListen env c seg).log = [] :=
    (queueMove_receivedWhenListen env c seg).bytes_eq.trans hnil
  refine ⟨?_, ?_⟩
  · refine emits_receivedWhenListen env (lasting_ackCovered p) hc.emits seg
      (ackCovered_rst p _ _ _ _) fun hS _ => ?_
    -- the SYN is all that the SYN,ACK acknowledges
    rw [newSegment_ack, hsyn hS]
    exact covered_zero _
  · rcases receivedWhenListen_tcp env c seg with h | ⟨hS, _, h | h⟩
    · rw [h, hst]
      exact hqueue
    · rw [h, takeSyn, hst]
      exact hqueue
    · rw [h]
      refine ⟨hqueue, ?_⟩
      rw [h, takeSyn, hsyn hS]

theorem ackInv_receivedWhenSynReceived (hst : c.tcp.state = .synReceived) (hc : AckInv p c)
    (seg : Received) : AckInv p (receivedWhenSynReceived env c seg) := by
  have hshape : queuedBytes c.log = [] ∧ c.tcp.rcv.nxt = p.irs + 1 := by
    have h := hc.shape
    rw [hst] at h
    exact h
  rcases hshape with ⟨hnil, hnxt⟩
  have hready : InOrder p c := inOrder_of_nil hnil hnxt
  have hqueue : queuedBytes (receivedWhenSynReceived env c seg).log = [] :=
    (queueMove_receivedWhenSynReceived env c seg).bytes_eq.trans hnil
  cases hacc : seqAccepted c.tcp seg.toSegment with
  | false =>
      rw [receivedWhenSynReceived_of_rejected env c hacc] at hqueue ⊢
      refine ⟨emits_processReceivedSeq env (lasting_ackCovered p) hc.emits seg
        (ackCovered_of_ready hready.ready rfl), ?_⟩
      rw [processReceivedSeq_tcp, hst]
      exact ⟨hqueue, by rw [processReceivedSeq_tcp]; exact hnxt⟩
  | true =>
      cases hR : segCtrlR seg.toSegment with
      | true =>
          rw [receivedWhenSynReceived_of_rst env c hacc hR]
          refine ⟨hc.emits.congr rfl rfl, ?_⟩
          cases c.tcp.passive with
          | true =>
              exact hnil
          | false =>
              trivial
      | false =>
          cases hA : segCtrlA seg.toSegment with
          | false =>
              rw [receivedWhenSynReceived_of_no_ack env c hacc hR hA]
              exact hc
          | true =>
              have hack : Emits (AckCovered p) (ackSynReceived env c seg) ∧
                  AckInv p (ackSynReceived env c seg) ∧ InOrder p (ackSynReceived env c seg) := by
                cases hcmp : sncmp c.tcp.snd.una .le seg.ack .le c.tcp.snd.nxt with
                | true =>
                    rw [ackSynReceived_of env c hcmp]
                    have hin : InOrder p
                        { c with tcp.snd.una := seg.ack, tcp.state := .established } :=
                      hready.congr rfl rfl
                    exact ⟨hc.emits.congr rfl rfl, ⟨hc.emits.congr rfl rfl, hin⟩, hin⟩
                | false =>
                    rw [ackSynReceived_of_not env c hcmp]
                    have hemits := emits_tcpSendCtrlSeg env (lasting_ackCovered p) hc.emits
                      (ackCovered_rst p c.log c.tcp seg.ack 0)
                    have hquiet := (queueMove_tcpSendCtrlSeg env c seg.ack 0 segFlagRst).bytes_eq
                    have htcp := tcpSendCtrlSeg_rst_tcp env c seg.ack 0
                    refine ⟨hemits, ⟨hemits, ?_⟩, hready.congr hquiet (by rw [htcp])⟩
                    rw [htcp, hst]
                    exact ⟨hquiet.trans hnil, by rw [htcp]; exact hnxt⟩
              rcases hack with ⟨hemits, hinv, hin⟩
              rw [receivedWhenSynReceived_of_ack env c hacc hR hA]
              cases segCtrlF seg.toSegment with
              | false =>
                  exact hinv
              | true =>
                  -- the FIN is not counted here
                  exact ⟨hemits.congr rfl rfl, (hin.ready).congr rfl rfl⟩

variable [TimerLib τ]

theorem ackInv_receivedWhenSynSent (hst : c.tcp.state = .synSent) (hc : AckInv p c)
    {seg : Received} (hsyn : segCtrlS seg.toSegment = true → seg.seq = p.irs) :
    AckInv p (receivedWhenSynSent env c seg) := by
  have hnil : queuedBytes c.log = [] := by
    have h := hc.shape
    rw [hst] at h
    exact h
  have hqueue : queuedBytes (receivedWhenSynSent env c seg).log = [] :=
    (queueMove_receivedWhenSynSent env c seg).bytes_eq.trans hnil
  rcases receivedWhenSynSent_cases env c seg with h | ⟨_, _, _, h⟩ | ⟨_, _, h⟩
  · rw [h]
    exact hc
  · rw [h] at hqueue ⊢
    refine ⟨emits_tcpSendCtrlSeg env (lasting_ackCovered p) hc.emits (ackCovered_rst p _ _ _ _), ?_⟩
    rw [tcpSendCtrlSeg_rst_tcp, hst]
    exact hqueue
  · rcases h with ⟨_, h⟩ | ⟨_, hS, _, h⟩
    · rw [h]
      exact ⟨hc.emits.congr rfl rfl, trivial⟩
    · have hnxt : seg.seq + 1 = p.irs + 1 := by rw [hsyn hS]
      -- the SYN is all that the acknowledgment covers
      have hack : ∀ (log : List Action) (t : Tcb τ),
          AckCovered p log (newSegment t seg.ack (seg.seq + 1) segFlagAck []) := by
        intro log t _
        rw [newSegment_ack, hnxt]
        exact covered_zero log
      rw [h] at hqueue ⊢
      rcases synAckReply_cases env c seg with ⟨_, htcp, hlog⟩ | ⟨_, _, hest⟩
      · refine ⟨?_, ?_⟩
        · have hseg : (synAckReply env c seg).tcp.txSeg = c.tcp.txSeg := by rw [htcp, takeSynAck]
          rcases hlog with hlog | ⟨dg, hdg, hlog⟩
          · exact hc.emits.congr hseg hlog
          · refine hc.emits.of_keep (lasting_ackCovered p) hseg hlog ?_
            intro a ha
            rw [List.mem_singleton.1 ha, SendRule, hdg]
            exact hack _ _
        · rw [htcp, takeSynAck, hst]
          exact hqueue
      · rw [hest] at hqueue ⊢
        refine ⟨?_, ?_⟩
        · have htaken : Emits (AckCovered p) { c with tcp := takeSynAck c.tcp seg } :=
            hc.emits.congr rfl rfl
          have hsent := emits_tcpSendCtrlSeg env (lasting_ackCovered p) htaken (hack _ _)
          refine emits_tcpTxSegComplete (lasting_ackCovered p) ?_ seg.ack
          exact hsent.congr (by simp) rfl
        · rw [tcpTxSegComplete_state]
          refine inOrder_of_nil hqueue ?_
          rw [tcpTxSegComplete_rcv]
          exact hnxt

theorem AckReady.ackedConn (hc : AckReady p c) (s : TxSegment) :
    AckReady p (Tcp.ackedConn c s) := by
  refine hc.congr ?_ rfl
  simp [Tcp.ackedConn, queuedBytes]

omit [TimerLib τ] in
/-- A data segment covers what was queued when it is built. -/
theorem ackCovered_dataSegment (hc : AckReady p c) (tx : Block) :
    AckCovered p c.log (dataSegment c.tcp tx) :=
  ackCovered_of_ready hc rfl

/-- The acknowledgment part of `received_when_established`. -/
theorem ready_ackEstablished (hemits : Emits (AckCovered p) c) (hc : AckReady p c)
    (seg : Received) :
    Emits (AckCovered p) (ackEstablished env c seg) ∧
      queuedBytes (ackEstablished env c seg).log = queuedBytes c.log := by
  refine ⟨?_, (queueMove_ackEstablished env c seg).bytes_eq⟩
  -- the next data segment goes out from the acknowledged state
  exact emits_ackEstablished env (lasting_ackCovered p) hemits seg fun s tx _ _ _ =>
    ackCovered_dataSegment (hc.ackedConn s) tx

theorem ackInv_receivedWhenEstablished (hst : c.tcp.state = .established) (hc : AckInv p c)
    {seg : Received} (hok : AckOk p c (.received env seg)) :
    AckInv p (receivedWhenEstablished env c seg) := by
  have hin : InOrder p c := by
    have h := hc.shape
    rw [hst] at h
    exact h
  simp only [AckOk, hst] at hok
  rcases hok with ⟨o, hsends, hold, hfin⟩
  cases hacc : seqAccepted c.tcp seg.toSegment with
  | false =>
      rw [receivedWhenEstablished_of_rejected env c hacc]
      refine ⟨emits_processReceivedSeq env (lasting_ackCovered p) hc.emits seg
        (ackCovered_of_ready hin.ready rfl), ?_⟩
      rw [processReceivedSeq_tcp, hst]
      exact hin.congr (queueMove_processReceivedSeq env c seg).bytes_eq
        (by rw [processReceivedSeq_tcp])
  | true =>
      by_cases hRA : segCtrlR seg.toSegment = true ∨ segCtrlA seg.toSegment = false
      · rw [receivedWhenEstablished_of_ignored env c hacc hRA]
        exact hc
      · rw [not_or, Bool.not_eq_true, Bool.not_eq_false] at hRA
        rcases hRA with ⟨hR, hA⟩
        rw [receivedWhenEstablished_of_ack env c hacc hR hA]
        -- the acknowledgment changes neither `rcv` nor what was queued
        rcases ready_ackEstablished env hc.emits hin.ready seg with ⟨hemits₁, hqueue₁⟩
        have hin₁ : InOrder p (ackEstablished env c seg) :=
          hin.congr hqueue₁ (by rw [ackEstablished_rcv])
        have hold₁ : 2 ^ 32 ≤ p.stream.length + 1 →
            seg.seq = (ackEstablished env c seg).tcp.rcv.nxt →
              0 < tcpSegmentLength seg.toSegment → segCtrlS seg.toSegment = false ∧
                o = (queuedBytes (ackEstablished env c seg).log).length := by
          rw [ackEstablished_rcv, hqueue₁]
          exact hold
        have hdone := textDone_tcpHandleData env hemits₁ hin₁ hsends hold₁
        have hstate : (textEstablished env c seg).tcp.state = .established := by
          simp [textEstablished, hst]
        cases hF : segCtrlF seg.toSegment with
        | false =>
            refine ⟨hdone.emits, ?_⟩
            rw [if_neg Bool.false_ne_true, hstate]
            exact hdone.inOrder hF
        | true =>
            have hwnd : (ackEstablished env c seg).tcp.rcv.wnd ≠ 0 := by
              rw [ackEstablished_rcv]
              intro hwnd
              simp [seqAccepted, hwnd] at hacc
            have horder : FinTaken (textEstablished env c seg).tcp seg →
                p.stream.take (o + 1) <+: queuedBytes (textEstablished env c seg).log := by
              intro htaken
              have htaken₁ : FinTaken (ackEstablished env c seg).tcp seg := by
                simpa [FinTaken, textEstablished] using htaken
              have horder := hfin hacc hR (by simp [segCtrlAF, hA, hF]) htaken₁
              by_cases hnow : seg.seq = c.tcp.rcv.nxt ∧
                  env.malloc .rxBlock (ackEstablished env c seg).log = true
              · exact take_prefix_of_taken env hin₁ hsends hF hold₁ hdone hwnd
                  (by rw [ackEstablished_rcv]; exact hnow.1) hnow.2
              · have horder' : FinInOrder (queuedBytes c.log).length o seg.toSegment False := by
                  simpa [FinInOrder, hnow] using horder
                rw [← hqueue₁] at horder'
                exact (take_prefix_of_finInOrder hsends hF hin₁.ready.agrees horder').trans
                  hdone.grows
            rcases ready_tcpHandleFinAck env hdone.emits hdone.ready hsends hF horder with
              ⟨hemits, hready⟩
            exact ⟨hemits.congr rfl rfl, hready.congr rfl rfl⟩

/-- What is sent in FIN_WAIT_1 and LAST_ACK acknowledges `rcv.nxt`. -/
theorem ready_ackWhenClosing (hemits : Emits (AckCovered p) c) (hc : AckReady p c)
    (seg : Received) (next : State) :
    Emits (AckCovered p) (ackWhenClosing env c seg next) ∧
      AckReady p (ackWhenClosing env c seg next) := by
  refine ⟨?_, hc.congr (queueMove_ackWhenClosing env c seg next).bytes_eq
    (by rw [ackWhenClosing_rcv])⟩
  rcases ackWhenClosing_cases env c seg next with h | ⟨_, _, _, _, _, h⟩ | ⟨s, _, _, _, _, h⟩
  · rw [h]
    exact hemits
  · rw [h]
    exact (emits_tcpTxSegComplete (lasting_ackCovered p) hemits seg.ack).congr rfl rfl
  · rw [h]
    exact emits_tcpConstructData env (lasting_ackCovered p)
      (emits_ackedConn (lasting_ackCovered p) hemits s) fun tx _ _ _ =>
        ackCovered_dataSegment (hc.ackedConn s) tx

theorem ready_tcpContructFinAck (hemits : Emits (AckCovered p) c) (hc : AckReady p c) :
    Emits (AckCovered p) (tcpContructFinAck env c) ∧ AckReady p (tcpContructFinAck env c) := by
  refine ⟨?_, hc.congr (queueMove_tcpContructFinAck env c).bytes_eq (by rw [tcpContructFinAck_rcv])⟩
  exact emits_tcpContructFinAck env (lasting_ackCovered p) hemits fun _ _ =>
    ackCovered_of_ready hc rfl

/-- The two handlers that wait for the FIN to be acknowledged. -/
theorem ackInv_retry (hemits : Emits (AckCovered p) c) (hc : AckReady p c) {s : State}
    (hst : c.tcp.state = s ∨ AckShape p c c.tcp.state)
    (hs : ∀ c : Conn τ, AckReady p c → AckShape p c s) :
    AckInv p (if c.tcp.state = s then tcpContructFinAck env c else c) := by
  by_cases h : c.tcp.state = s
  · rw [if_pos h]
    rcases ready_tcpContructFinAck env hemits hc with ⟨hemits', hready⟩
    refine ⟨hemits', ?_⟩
    rw [tcpContructFinAck_state, h]
    exact hs _ hready
  · rw [if_neg h]
    exact ⟨hemits, hst.resolve_left h⟩

/-- A segment in FIN_WAIT_1 or LAST_ACK. -/
theorem ackInv_whenClosing (hemits : Emits (AckCovered p) c) (hc : AckReady p c) (seg : Received)
    (next : State) (hs : ∀ c' : Conn τ, AckReady p c' → AckShape p c' c.tcp.state)
    (hnext : ∀ c' : Conn τ, AckReady p c' → AckShape p c' next) :
    AckInv p (if (ackWhenClosing env c seg next).tcp.state = c.tcp.state then
      tcpContructFinAck env (ackWhenClosing env c seg next) else ackWhenClosing env c seg next) := by
  rcases ready_ackWhenClosing env hemits hc seg next with ⟨hemits', hready⟩
  refine ackInv_retry env hemits' hready ?_ hs
  rcases ackWhenClosing_state env c seg next with h | h
  · exact Or.inl h
  · right
    rw [h]
    exact hnext _ hready

omit [TimerLib τ] in
/-- A FIN that arrives behind ESTABLISHED. -/
theorem ackInv_tcpHandleFinAck (hemits : Emits (AckCovered p) c) (hc : AckReady p c)
    (hshape : ∀ c' : Conn τ, AckReady p c' → AckShape p c' c.tcp.state) {seg : Received} {o : ℕ}
    (hsends : p.Sends seg.toSegment o) (hF : segCtrlF seg.toSegment = true)
    (horder : FinTaken c.tcp seg → FinInOrder (queuedBytes c.log).length o seg.toSegment False) :
    AckInv p (tcpHandleFinAck env c seg).1 := by
  rcases ready_tcpHandleFinAck env hemits hc hsends hF fun htaken =>
    take_prefix_of_finInOrder hsends hF hc.agrees (horder htaken) with ⟨hemits', hready⟩
  refine ⟨hemits', ?_⟩
  rw [tcpHandleFinAck_state]
  exact hshape _ hready

theorem ackInv_tcpReceived (hc : AckInv p c) {seg : Received}
    (hok : AckOk p c (.received env seg)) : AckInv p (tcpReceived env c seg) := by
  have hshape := hc.shape
  have hsyn : segCtrlS seg.toSegment = true → seg.seq = p.irs := by
    rcases hok with ⟨o, hsends, _⟩
    exact fun hS => (hsends.syn hS).1
  cases hst : c.tcp.state with
  | listen =>
      simpa [tcpReceived, hst, receivedEventProcess] using ackInv_receivedWhenListen env hst hc hsyn
  | synSent =>
      simpa [tcpReceived, hst, receivedEventProcess] using ackInv_receivedWhenSynSent env hst hc hsyn
  | synReceived =>
      simpa [tcpReceived, hst, receivedEventProcess] using
        ackInv_receivedWhenSynReceived env hst hc seg
  | established =>
      simpa [tcpReceived, hst, receivedEventProcess] using
        ackInv_receivedWhenEstablished env hst hc hok
  | finWait1 =>
      rw [hst] at hshape
      have hclosing := ackInv_whenClosing env hc.emits hshape seg .finWait2
        (fun _ h => by rw [hst]; exact h) fun _ h => h
      simpa [tcpReceived, hst, receivedEventProcess, receivedWhenFinWait1] using hclosing
  | lastAck =>
      rw [hst] at hshape
      have hclosing := ackInv_whenClosing env hc.emits hshape seg .closed
        (fun _ h => by rw [hst]; exact h) fun _ _ => trivial
      simpa [tcpReceived, hst, receivedEventProcess, receivedWhenLastAck] using hclosing
  | finWait2 =>
      rw [hst] at hshape
      simp only [AckOk, hst] at hok
      rcases hok with ⟨o, hsends, hfin⟩
      cases hAF : segCtrlAF seg.toSegment with
      | false =>
          simpa [tcpReceived, hst, receivedEventProcess, receivedWhenFinWait2, hAF] using hc
      | true =>
          have hF : segCtrlF seg.toSegment = true := (Bool.and_eq_true_iff.1 hAF).1
          let c₁ : Conn τ := { c with
            tcp.state := .timeWait
            tcp.tmr := TimerLib.start c.tcp.tmr env.now c.tcp.timeWaitSeconds }
          have hemits : Emits (AckCovered p) c₁ := hc.emits.congr rfl rfl
          have hready : AckReady p c₁ := AckReady.congr hshape rfl rfl
          simpa [tcpReceived, hst, receivedEventProcess, receivedWhenFinWait2, hAF] using
            ackInv_tcpHandleFinAck env hemits hready (fun _ h => h) hsends hF (hfin hAF)
  | timeWait =>
      rw [hst] at hshape
      simp only [AckOk, hst] at hok
      rcases hok with ⟨o, hsends, hfin⟩
      cases hAF : segCtrlAF seg.toSegment with
      | false =>
          simpa [tcpReceived, hst, receivedEventProcess, receivedWhenTimeWait, hAF] using hc
      | true =>
          have hF : segCtrlF seg.toSegment = true := (Bool.and_eq_true_iff.1 hAF).1
          simpa [tcpReceived, hst, receivedEventProcess, receivedWhenTimeWait, hAF] using
            ackInv_tcpHandleFinAck env hc.emits hshape (fun _ h => by rw [hst]; exact h) hsends hF
              (hfin hAF)
  | closeWait =>
      rw [hst] at hshape
      simp only [AckOk, hst] at hok
      rcases hok with ⟨o, hsends, hfin⟩
      cases hAF : segCtrlAF seg.toSegment with
      | false =>
          simpa [tcpReceived, hst, receivedEventProcess, receivedWhenCloseWait, hAF] using hc
      | true =>
          have hF : segCtrlF seg.toSegment = true := (Bool.and_eq_true_iff.1 hAF).1
          simpa [tcpReceived, hst, receivedEventProcess, receivedWhenCloseWait, hAF] using
            ackInv_tcpHandleFinAck env hc.emits hshape (fun _ h => by rw [hst]; exact h) hsends hF
              (hfin hAF)
  | closing =>
      simpa [tcpReceived, hst, receivedEventProcess] using hc
  | closed =>
      simpa [tcpReceived, hst, receivedEventProcess] using hc

/-! ## Calls of the user and the timer -/

theorem ackInv_tcpSend (hc : AckInv p c) (data : List Byte) : AckInv p (tcpSend env c data).1 := by
  by_cases hst : c.tcp.state = .established
  · have hin : InOrder p c := by
      have h := hc.shape
      rw [hst] at h
      exact h
    rw [tcpSend_of_established env c hst]
    have hacc : ∀ c₁ : Conn τ, c₁.tcp.txSeg = c.tcp.txSeg → c₁.tcp.rcv = c.tcp.rcv →
        c₁.tcp.state = .established → (c₁.log = c.log ∨ c₁.log = c.log ++ [.accepted data]) →
          AckInv p (tcpConstructData env c₁) := by
      intro c₁ hseg hrcv hst₁ hlog
      have hqueue : queuedBytes c₁.log = queuedBytes c.log := by
        rcases hlog with hlog | hlog <;> simp [hlog, queuedBytes]
      have hemits : Emits (AckCovered p) c₁ := by
        rcases hlog with hlog | hlog
        · exact hc.emits.congr hseg hlog
        · refine hc.emits.of_keep (lasting_ackCovered p) hseg hlog ?_
          intro a ha
          rw [List.mem_singleton.1 ha]
          trivial
      have hin₁ : InOrder p c₁ := hin.congr hqueue (by rw [hrcv])
      refine ⟨emits_tcpConstructData env (lasting_ackCovered p) hemits fun tx rest _ _ =>
        ackCovered_of_ready hin₁.ready rfl, ?_⟩
      rw [tcpConstructData_state, hst₁]
      exact hin₁.congr (queueMove_tcpConstructData env c₁).bytes_eq (by rw [tcpConstructData_rcv])
    split
    · exact hacc _ rfl rfl hst (Or.inr rfl)
    · exact hacc _ rfl rfl hst (Or.inl rfl)
  · rw [tcpSend_of_not env c hst]
    exact hc

omit [TimerLib τ] in
/-- What does not touch `rcv` and the queue keeps the shape. -/
theorem AckShape.congr {s : State} (h : AckShape p c s)
    (hq : queuedBytes c'.log = queuedBytes c.log) (hrcv : c'.tcp.rcv = c.tcp.rcv) :
    AckShape p c' s := by
  have hnxt : c'.tcp.rcv.nxt = c.tcp.rcv.nxt := by rw [hrcv]
  cases s with
  | listen =>
      exact hq.trans h
  | synSent =>
      exact hq.trans h
  | synReceived =>
      exact ⟨hq.trans h.1, hnxt.trans h.2⟩
  | established =>
      exact InOrder.congr h hq hnxt
  | closing =>
      trivial
  | closed =>
      trivial
  | _ =>
      exact AckReady.congr h hq hnxt

omit [TimerLib τ] in
theorem ackInv_recvEvent (hc : AckInv p c) (data : List Byte) (size : ℕ) :
    AckInv p (recvEvent c data size) := by
  rcases recvEvent_log c data size with ⟨bs, hlog⟩
  refine ⟨?_, ?_⟩
  · refine hc.emits.of_keep (lasting_ackCovered p) (recvEvent_txSeg c data size) hlog ?_
    intro a ha
    rw [List.mem_singleton.1 ha]
    trivial
  · rw [recvEvent_state]
    exact hc.shape.congr (by simp [hlog, queuedBytes]) (recvEvent_rcv c data size)

theorem ackInv_tcpClose (hc : AckInv p c) : AckInv p (tcpClose env c) := by
  rcases tcpClose_cases env c with ⟨hst, h⟩ | h
  · have hshape := hc.shape
    have hready : AckReady p c := by
      rcases hst with hst | hst <;> rw [hst] at hshape
      · exact InOrder.ready hshape
      · exact hshape
    rcases ready_tcpContructFinAck env hc.emits hready with ⟨hemits, hready'⟩
    rw [h]
    refine ⟨hemits.congr rfl rfl, ?_⟩
    have hclosing : AckReady p
        { tcpContructFinAck env c with tcp.state := closeState c.tcp.state } :=
      hready'.congr rfl rfl
    rcases hst with hst | hst <;> rw [hst] at hclosing ⊢
    · exact hclosing
    · exact hclosing
  · rw [h]
    exact hc

theorem ackInv_tcpLoopVisit (hc : AckInv p c) : AckInv p (tcpLoopVisit env c) := by
  have hstop : AckInv p (stopTimer c) :=
    ⟨hc.emits.congr rfl rfl, hc.shape.congr rfl rfl⟩
  rcases tcpLoopVisit_cases env c with h | ⟨_, h⟩ | ⟨_, h⟩ | ⟨_, _, h⟩
  · rw [h]
    exact hc
  · rw [h]
    refine ⟨emits_tcpRetransmit env (lasting_ackCovered p) hstop.emits, ?_⟩
    have hstate : (tcpRetransmit env (stopTimer c)).tcp.state = (stopTimer c).tcp.state := by
      rw [tcpRetransmit_tcp]
    rw [hstate]
    exact hstop.shape.congr (queueMove_tcpRetransmit env (stopTimer c)).bytes_eq
      (by rw [tcpRetransmit_tcp])
  · rw [h]
    exact ⟨hstop.emits.congr rfl rfl, trivial⟩
  · rw [h]
    exact hstop

theorem ackInv_step {e : Event} (hc : AckInv p c) (hok : AckOk p c e) : AckInv p (step c e) := by
  cases e with
  | received env seg =>
      exact ackInv_tcpReceived env hc hok
  | send env data =>
      exact ackInv_tcpSend env hc data
  | recv data size =>
      exact ackInv_recvEvent hc data size
  | close env =>
      exact ackInv_tcpClose env hc
  | loop env =>
      exact ackInv_tcpLoopVisit env hc

end Handlers

/-! ## Runs -/

variable [TimerLib τ]

theorem ackInv_opened (p : Peer) {c : Conn τ} (hc : Opened c) : AckInv p c := by
  rcases hc with ⟨env, ip, port, dest, destPort, h⟩
  refine ⟨emits_tcpOpenConn env (lasting_ackCovered p) h fun t hA => ?_, ?_⟩
  · have hno : segCtrlA (newSegment t (tcpGenerateIsn env) 0 segFlagSyn []) = false :=
      (ctrl_of_flags_syn rfl).1
    rw [hno] at hA
    cases hA
  · have hqueue : queuedBytes c.log = [] := (queueMove_openWhenClosed env h).bytes_eq
    rw [(binding_tcpOpenConn env c h).2]
    cases dest with
    | none =>
        exact hqueue
    | some dest =>
        exact hqueue

/-- In every run that keeps to `AckOk`, an acknowledgment covers only what was queued before it
was sent. -/
theorem acks_covered (p : Peer) {c₀ : Conn τ} {es : List Event} (h₀ : Opened c₀)
    (hok : Machine.Along step (AckOk p) c₀ es) :
    Each (SendRule (AckCovered p)) (runConn c₀ es).log := by
  have hinv : AckInv p (runConn c₀ es) :=
    Machine.run_invariant step (fun _ _ hc hok => ackInv_step hc hok) (ackInv_opened p h₀) hok
  exact hinv.emits.log

/-- One byte is all that the peer sends. -/
def sampleStream : Peer :=
  { irs := 700, stream := [1] }

/-- The connection is closed from here, with `text` arriving before that, and then by the peer. -/
def sampleFins (text : List Event) : List Event :=
  [.received (.working 101) (peerSegment 700 101 (segFlagSyn ||| segFlagAck) [])] ++ text ++
    [.close (.working 102), .loop (.working 104),
      .received (.working 105) (peerSegment 702 102 segFlagAck []),
      .received (.working 106) (peerSegment 702 102 (segFlagFin ||| segFlagAck) [])]

theorem acks_covered_sample :
    Each (SendRule (AckCovered sampleStream)) (runConn (sampleConn 100 (some samplePeer))
      (sampleFins [.received (.working 101) (peerSegment 701 101 segFlagAck [1])])).log := by
  refine acks_covered sampleStream (opened_sampleConn _ _) ?_
  refine ⟨⟨0, ⟨by decide, by decide, by decide⟩, trivial⟩,
    ⟨0, ⟨by decide, by decide, by decide⟩, ?_, ?_⟩, trivial, trivial,
    ⟨1, ⟨by decide, by decide, by decide⟩, trivial⟩,
    ⟨1, ⟨by decide, by decide, by decide⟩, ?_⟩, trivial⟩
  · intro hbig
    exact absurd hbig (by decide)
  · intro _ _ hAF
    exact absurd hAF (by decide)
  · intro _ _
    have hbare : (peerSegment 702 102 (segFlagFin ||| segFlagAck) []).payload = [] := rfl
    rw [FinInOrder, if_pos hbare]
    decide

/-- Without the text, the FIN makes the connection acknowledge it all the same. -/
theorem acks_uncovered :
    ∃ (p : Peer) (c₀ : Conn Deadline) (es : List Event), Opened c₀ ∧
      (∀ env seg, Event.received env seg ∈ es → ∃ o, p.Sends seg.toSegment o) ∧
      ¬ Each (SendRule (AckCovered p)) (runConn c₀ es).log := by
  refine ⟨sampleStream, sampleConn 100 (some samplePeer), sampleFins [], opened_sampleConn _ _,
    ?_, ?_⟩
  · intro env seg hmem
    simp only [sampleFins, List.append_nil, List.singleton_append, List.mem_cons,
      List.not_mem_nil, or_false, Event.received.injEq, reduceCtorEq, false_or] at hmem
    rcases hmem with ⟨_, rfl⟩ | ⟨_, rfl⟩ | ⟨_, rfl⟩
    · exact ⟨0, by decide, by decide, by decide⟩
    · exact ⟨1, by decide, by decide, by decide⟩
    · exact ⟨1, by decide, by decide, by decide⟩
  · intro h
    have hsent : ∃ dg ∈ outputs (runConn (sampleConn 100 (some samplePeer)) (sampleFins [])).log,
        segCtrlA dg.seg = true ∧ dg.seg.ack = 703 := by
      decide
    have hqueued : queuedBytes (runConn (sampleConn 100 (some samplePeer)) (sampleFins [])).log =
        [] := by
      decide
    rcases hsent with ⟨dg, hdg, hA, hack⟩
    rcases meets_of_mem_outputs (lasting_ackCovered sampleStream) h hdg hA with ⟨k, hk, hseq, hcov⟩
    rw [hack] at hseq
    rw [hqueued, List.prefix_nil] at hcov
    -- 703 is the number behind the FIN
    rcases k with _ | _ | _ | k
    · exact absurd hseq (by decide)
    · exact absurd hseq (by decide)
    · exact absurd hcov (by decide)
    · exact absurd hk (by simp [sampleStream])

end Tcp
end DtsNet
