import DtsNet.Tcp.Binding
import DtsNet.Tcp.Emission
import DtsNet.Tcp.Queue
import DtsNet.Library.Channel

/-!
# Endpoint — one end of a connection between two ends of this stack

An end sends slices of the bytes it accepted, numbered from its own initial sequence number, and
acknowledges bytes it queued.  `Sends` says this of a segment and grows with both streams, so it
holds of old segments too.  As long as the other end sends only such segments and nobody closes,
one event adds to the accepted bytes, or queues a slice of the other end's bytes that starts where
the queue ends, and the end goes on to send only such segments.
-/

namespace DtsNet
namespace Tcp

open Ip Dblk History Slices

variable {τ : Type}

/-! ## What an end may send -/

/-- Which end it is, and the two initial sequence numbers. -/
structure Endpoint where
  passive : Bool
  iss : UInt32
  irs : UInt32

namespace Endpoint

/-- The same connection seen from the other side. -/
def peer (s : Endpoint) : Endpoint :=
  { passive := !s.passive, iss := s.irs, irs := s.iss }

/-- The number of byte `k` of its own stream. -/
def sndSeq (s : Endpoint) (k : ℕ) : UInt32 :=
  s.iss + 1 + UInt32.ofNat k

/-- The number of byte `k` of the other end's stream. -/
def rcvSeq (s : Endpoint) (k : ℕ) : UInt32 :=
  s.irs + 1 + UInt32.ofNat k

/-- A segment of an end that accepted `sent` and queued `rcvd`.  No FIN is sent before
`tcp_close`, and only the passive end sends a RST. -/
structure Sends (s : Endpoint) (sent rcvd : List Byte) (seg : Segment) : Prop where
  fin : segCtrlF seg = false
  rst : segCtrlR seg = true → s.passive = true ∧ segCtrlA seg = false
  syn : segCtrlS seg = true → seg.seq = s.iss
  text : segCtrlS seg = false → seg.payload ≠ [] →
    ∃ o, seg.seq = s.sndSeq o ∧ SliceAt sent o seg.payload
  ack : segCtrlA seg = true → ∃ k ≤ rcvd.length, seg.ack = s.rcvSeq k

theorem Sends.mono {s : Endpoint} {sent sent' rcvd rcvd' : List Byte} {seg : Segment}
    (h : s.Sends sent rcvd seg) (hsent : sent <+: sent') (hrcvd : rcvd.length ≤ rcvd'.length) :
    s.Sends sent' rcvd' seg := by
  refine ⟨h.fin, h.rst, h.syn, ?_, ?_⟩
  · intro hS htext
    rcases h.text hS htext with ⟨o, hseq, hslice⟩
    exact ⟨o, hseq, hslice.mono hsent⟩
  · intro hA
    rcases h.ack hA with ⟨k, hk, hack⟩
    exact ⟨k, Nat.le_trans hk hrcvd, hack⟩

/-- `Sends` for the streams of a record. -/
def Says (s : Endpoint) (log : List Action) (seg : Segment) : Prop :=
  s.Sends (acceptedBytes log) (queuedBytes log) seg

theorem lasting_says (s : Endpoint) : Lasting s.Says := by
  intro log l seg h
  refine h.mono ?_ ?_
  · rw [acceptedBytes_append]
    exact List.prefix_append _ _
  · rw [queuedBytes_append, List.length_append]
    exact Nat.le_add_right _ _

variable (s : Endpoint) {sent rcvd : List Byte} {seg : Segment}

theorem sends_ack (hflags : seg.flags = segFlagAck) {k : ℕ} (hk : k ≤ rcvd.length)
    (hack : seg.ack = s.rcvSeq k)
    (htext : seg.payload ≠ [] → ∃ o, seg.seq = s.sndSeq o ∧ SliceAt sent o seg.payload) :
    s.Sends sent rcvd seg := by
  rcases ctrl_of_flags_ack hflags with ⟨_, hS, hR, hF⟩
  refine ⟨hF, ?_, ?_, fun _ => htext, fun _ => ⟨k, hk, hack⟩⟩
  · intro h
    rw [hR] at h
    cases h
  · intro h
    rw [hS] at h
    cases h

theorem sends_rst (hflags : seg.flags = segFlagRst) (hpassive : s.passive = true)
    (hpayload : seg.payload = []) : s.Sends sent rcvd seg := by
  rcases ctrl_of_flags_rst hflags with ⟨hA, hS, _, hF⟩
  refine ⟨hF, fun _ => ⟨hpassive, hA⟩, ?_, fun _ h => absurd hpayload h, ?_⟩
  · intro h
    rw [hS] at h
    cases h
  · intro h
    rw [hA] at h
    cases h

theorem sends_syn (hflags : seg.flags = segFlagSyn) (hseq : seg.seq = s.iss) :
    s.Sends sent rcvd seg := by
  rcases ctrl_of_flags_syn hflags with ⟨hA, hS, hR, hF⟩
  refine ⟨hF, ?_, fun _ => hseq, ?_, ?_⟩
  · intro h
    rw [hR] at h
    cases h
  · intro h
    rw [hS] at h
    cases h
  · intro h
    rw [hA] at h
    cases h

theorem sends_synAck (hflags : seg.flags = segFlagSyn ||| segFlagAck) (hseq : seg.seq = s.iss)
    (hack : seg.ack = s.irs + 1) : s.Sends sent rcvd seg := by
  rcases ctrl_of_flags_synAck hflags with ⟨_, hS, hR, hF⟩
  refine ⟨hF, ?_, fun _ => hseq, ?_, fun _ => ⟨0, Nat.zero_le _, by simp [hack, rcvSeq]⟩⟩
  · intro h
    rw [hR] at h
    cases h
  · intro h
    rw [hS] at h
    cases h

/-- Text that starts at the number behind `q` is the slice behind `q`. -/
theorem slice_of_seq (hsends : s.peer.Sends sent rcvd seg) {q : List Byte}
    (hq : q.length ≤ sent.length) (hlen : sent.length + 1 < 2 ^ 32) (hseq : seg.seq = s.rcvSeq q.length)
    (htext : 0 < tcpSegmentLength seg) :
    segCtrlS seg = false ∧ SliceAt sent q.length seg.payload := by
  have hnot : segCtrlS seg = false := by
    by_contra hS
    -- the SYN is fewer than `2^32` numbers before everything behind it
    have hirs : s.irs + UInt32.ofNat 0 = s.irs + UInt32.ofNat (1 + q.length) := by
      have h := hsends.syn (by simpa using hS)
      rw [hseq, rcvSeq, peer] at h
      rw [← Circular.add_ofNat_add]
      simpa using h.symm
    have := Circular.ofNat_add_inj (by omega) (by omega) hirs
    omega
  have hpayload : seg.payload ≠ [] := by
    intro hnil
    rw [tcpSegmentLength_of_plain hnot hsends.fin, hnil] at htext
    exact Nat.lt_irrefl _ htext
  rcases hsends.text hnot hpayload with ⟨o, hseq', hslice⟩
  have ho : o = q.length := by
    have ho := hslice.1
    have heq : s.rcvSeq o = s.rcvSeq q.length := hseq'.symm.trans hseq
    exact Circular.ofNat_add_inj (by omega) (by omega) heq
  rw [← ho]
  exact ⟨hnot, hslice⟩

/-- Before the peer queued anything, its acknowledgments cover the SYN only. -/
theorem ack_of_nil (hsends : s.peer.Sends sent [] seg) (hA : segCtrlA seg = true) :
    seg.ack = s.iss + 1 := by
  rcases hsends.ack hA with ⟨k, hk, hack⟩
  have hk0 : k = 0 := by simpa using hk
  simpa [hk0, rcvSeq, peer] using hack

theorem says_ack (log : List Action) (t : Tcb τ) (seq : UInt32) {ack : UInt32} {k : ℕ}
    (hk : k ≤ (queuedBytes log).length) (hack : ack = s.rcvSeq k) :
    s.Says log (newSegment t seq ack segFlagAck []) :=
  s.sends_ack rfl hk hack fun h => absurd rfl h

theorem says_rst (log : List Action) (t : Tcb τ) (seq ack : UInt32) (hpassive : s.passive = true) :
    s.Says log (newSegment t seq ack segFlagRst []) :=
  s.sends_rst rfl hpassive rfl

end Endpoint

/-! ## The invariant of an end -/

/-- The text of the segment in `tx_seg`. -/
def pendingBytes (t : Tcb τ) : List Byte :=
  match t.txSeg with
  | some seg => seg.payload
  | none => []

/-- The bytes in `tx_data`. -/
def waitingBytes (t : Tcb τ) : List Byte :=
  t.txData.flatMap Block.bytes

/-- No text has been accepted or queued. -/
structure Fresh (c : Conn τ) : Prop where
  accepted : acceptedBytes c.log = []
  queued : queuedBytes c.log = []
  txData : c.tcp.txData = []

/-- What was accepted is acknowledged, in `tx_seg`, or in `tx_data`, in this order; exactly the
queued bytes lie before `rcv.nxt`. -/
structure Streaming (s : Endpoint) (c : Conn τ) : Prop where
  accepted : ∃ done, acceptedBytes c.log = done ++ pendingBytes c.tcp ++ waitingBytes c.tcp ∧
    c.tcp.snd.una = s.sndSeq done.length
  nxt : c.tcp.snd.nxt = c.tcp.snd.una + UInt32.ofNat (pendingBytes c.tcp).length
  rcv : c.tcp.rcv.nxt = s.rcvSeq (queuedBytes c.log).length

def EndShape (s : Endpoint) (c : Conn τ) : State → Prop
  | .listen => s.passive = true ∧ Fresh c ∧ c.tcp.txSeg = none ∧ c.tcp.snd.nxt = s.iss
  | .synSent => s.passive = false ∧ Fresh c ∧ c.tcp.snd.nxt = s.iss + 1
  | .synReceived => s.passive = true ∧ Fresh c ∧ c.tcp.txSeg = none ∧
      c.tcp.snd.nxt = s.iss + 1 ∧ c.tcp.rcv.nxt = s.irs + 1
  | .established => Streaming s c
  | _ => False

structure EndInv (s : Endpoint) (c : Conn τ) : Prop where
  emits : Emits s.Says c
  iss : c.tcp.snd.iss = s.iss
  shape : EndShape s c c.tcp.state

/-- What one event does to the streams of an end whose peer has accepted `sent`. -/
structure Advances (sent : List Byte) (c c' : Conn τ) : Prop where
  accepted : ∃ bs, acceptedBytes c'.log = acceptedBytes c.log ++ bs
  queued : ∃ bs, queuedBytes c'.log = queuedBytes c.log ++ bs ∧
    SliceAt sent (queuedBytes c.log).length bs

variable {s : Endpoint} {sent rcvd : List Byte} {c c' : Conn τ}

theorem Advances.of_eq (hq : queuedBytes c.log <+: sent)
    (haccepted : acceptedBytes c'.log = acceptedBytes c.log)
    (hqueued : queuedBytes c'.log = queuedBytes c.log) : Advances sent c c' :=
  ⟨⟨[], by simp [haccepted]⟩, [], by simp [hqueued], sliceAt_nil hq.length_le⟩

theorem Fresh.congr (h : Fresh c) (haccepted : acceptedBytes c'.log = acceptedBytes c.log)
    (hqueued : queuedBytes c'.log = queuedBytes c.log) (hdata : c'.tcp.txData = c.tcp.txData) :
    Fresh c' :=
  ⟨haccepted.trans h.accepted, hqueued.trans h.queued, hdata.trans h.txData⟩

theorem SendFrame.fresh (hframe : SendFrame c c') (h : Fresh c)
    (hqueued : queuedBytes c'.log = queuedBytes c.log) : Fresh c' :=
  h.congr hframe.acceptedBytes_eq hqueued hframe.txData

theorem SendFrame.pendingBytes_eq (hframe : SendFrame c c') :
    pendingBytes c'.tcp = pendingBytes c.tcp := by
  cases hs : c.tcp.txSeg with
  | none =>
      have hs' : c'.tcp.txSeg = none := hframe.txSeg_eq_none.2 hs
      simp [pendingBytes, hs, hs']
  | some seg =>
      rcases hframe.exists_some hs with ⟨seg', hs', hid⟩
      have hpayload : seg'.payload = seg.payload := Segment.payload_of_identity hid
      simp [pendingBytes, hs, hs', hpayload]

/-- The sending side of `Streaming` does not change in a frame. -/
theorem SendFrame.streaming (hframe : SendFrame c c') (h : Streaming s c)
    (hsnd : c'.tcp.snd = c.tcp.snd)
    (hrcv : c'.tcp.rcv.nxt = s.rcvSeq (queuedBytes c'.log).length) : Streaming s c' := by
  have hwaiting : waitingBytes c'.tcp = waitingBytes c.tcp := by
    rw [waitingBytes, hframe.txData, waitingBytes]
  refine ⟨?_, ?_, hrcv⟩
  · rw [hframe.acceptedBytes_eq, hframe.pendingBytes_eq, hwaiting, hsnd]
    exact h.accepted
  · rw [hsnd, hframe.pendingBytes_eq]
    exact h.nxt

/-- Where the handshake ends. -/
theorem streaming_of_fresh (h : Fresh c) (hs : c.tcp.txSeg = none) (huna : c.tcp.snd.una = s.iss + 1)
    (hnxt : c.tcp.snd.nxt = s.iss + 1) (hrcv : c.tcp.rcv.nxt = s.irs + 1) : Streaming s c := by
  have hpending : pendingBytes c.tcp = [] := by simp [pendingBytes, hs]
  refine ⟨⟨[], ?_, ?_⟩, ?_, ?_⟩
  · simp [h.accepted, hpending, waitingBytes, h.txData]
  · simp [huna, Endpoint.sndSeq]
  · simp [hnxt, huna, hpending]
  · simp [hrcv, h.queued, Endpoint.rcvSeq]

/-! ## The next data segment -/

theorem says_dataSegment (h : Streaming s c) (hs : c.tcp.txSeg = none) {tx : Block}
    {rest : List Block} (hd : c.tcp.txData = tx :: rest) : s.Says c.log (dataSegment c.tcp tx) := by
  refine s.sends_ack rfl (Nat.le_refl _) h.rcv fun _ => ?_
  rcases h.accepted with ⟨done, haccepted, huna⟩
  refine ⟨done.length, huna, ?_⟩
  have hsplit : acceptedBytes c.log = done ++ tx.bytes ++ rest.flatMap Block.bytes := by
    simpa [pendingBytes, hs, waitingBytes, hd] using haccepted
  rw [hsplit]
  exact sliceAt_mid done tx.bytes _

section Construct

variable [TimerLib τ] {env : Env}

theorem streaming_tcpConstructData (hmem : env.AllocOk) (h : Streaming s c) :
    Streaming s (tcpConstructData env c) ∧
      acceptedBytes (tcpConstructData env c).log = acceptedBytes c.log := by
  rcases tcpConstructData_cases env c with heq | ⟨tx, rest, hs, hd⟩
  · rw [heq]
    exact ⟨h, rfl⟩
  · rcases tcpConstructData_cons env c hmem hs hd with ⟨htcp, sent, hlog⟩
    have haccepted : acceptedBytes (tcpConstructData env c).log = acceptedBytes c.log := by
      simp [hlog, acceptedBytes]
    have hpending : pendingBytes (tcpConstructData env c).tcp = tx.bytes := by
      simp [pendingBytes, htcp, dataSegment]
    have hnone : pendingBytes c.tcp = [] := by simp [pendingBytes, hs]
    refine ⟨⟨?_, ?_, ?_⟩, haccepted⟩
    · -- the block moves from `tx_data` to `tx_seg`
      rcases h.accepted with ⟨done, hacc, huna⟩
      refine ⟨done, ?_, by rw [tcpConstructData_una]; exact huna⟩
      rw [haccepted, hacc, hpending, hnone]
      simp [waitingBytes, hd, htcp]
    · have hnxt : c.tcp.snd.nxt = c.tcp.snd.una := by simpa [hnone] using h.nxt
      rw [hpending, htcp, hnxt]
    · rw [tcpConstructData_rcv, (queueMove_tcpConstructData env c).bytes_eq]
      exact h.rcv

theorem streaming_ackedConn (h : Streaming s c) {seg : TxSegment} (hs : c.tcp.txSeg = some seg) :
    Streaming s (ackedConn c seg) ∧
      acceptedBytes (ackedConn c seg).log = acceptedBytes c.log := by
  have haccepted : acceptedBytes (ackedConn c seg).log = acceptedBytes c.log := by
    simp [ackedConn, acceptedBytes]
  have hpending : pendingBytes c.tcp = seg.payload := by simp [pendingBytes, hs]
  refine ⟨⟨?_, ?_, ?_⟩, haccepted⟩
  · rcases h.accepted with ⟨done, hacc, huna⟩
    refine ⟨done ++ seg.payload, ?_, ?_⟩
    · rw [haccepted, hacc, hpending]
      simp [pendingBytes, ackedConn, waitingBytes]
    · have hnxt : (ackedConn c seg).tcp.snd.una = c.tcp.snd.nxt := rfl
      rw [hnxt, h.nxt, huna, hpending, List.length_append]
      exact Circular.add_ofNat_add _ _ _
  · simp [pendingBytes, ackedConn]
  · have hqueued : queuedBytes (ackedConn c seg).log = queuedBytes c.log := by
      simp [ackedConn, queuedBytes]
    rw [hqueued]
    exact h.rcv

end Construct

/-! ## The handshake -/

section Handshake

variable (env : Env)

theorem EndInv.iss_of_binding (hc : EndInv s c) (h : c'.tcp.binding = c.tcp.binding) :
    c'.tcp.snd.iss = s.iss := by
  have hiss := congrArg Binding.iss h
  exact hiss.trans hc.iss

theorem endInv_receivedWhenListen (hst : c.tcp.state = .listen) (hc : EndInv s c) {seg : Received}
    (hsends : s.peer.Sends sent rcvd seg.toSegment) : EndInv s (receivedWhenListen env c seg) := by
  have hshape := hc.shape
  rw [hst] at hshape
  rcases hshape with ⟨hpassive, hfresh, hnone, hnxt⟩
  have hseq : segCtrlS seg.toSegment = true → seg.seq + 1 = s.irs + 1 := fun hS => by
    rw [hsends.syn hS, Endpoint.peer]
  have hframe := sendFrame_receivedWhenListen env c seg
  have hfresh' : Fresh (receivedWhenListen env c seg) :=
    hframe.fresh hfresh (queueMove_receivedWhenListen env c seg).bytes_eq
  have hnone' : (receivedWhenListen env c seg).tcp.txSeg = none := hframe.txSeg_eq_none.2 hnone
  have hiss : (receivedWhenListen env c seg).tcp.snd.iss = s.iss :=
    hc.iss_of_binding (binding_receivedWhenListen env c seg)
  refine ⟨?_, hiss, ?_⟩
  · refine emits_receivedWhenListen env s.lasting_says hc.emits seg
      (s.says_rst _ _ _ _ hpassive) fun hS => ?_
    exact s.sends_synAck rfl hc.iss (hseq hS)
  · rcases receivedWhenListen_tcp env c seg with h | ⟨hS, _, h | h⟩
    · have hst' : (receivedWhenListen env c seg).tcp.state = .listen := by rw [h, hst]
      rw [hst']
      exact ⟨hpassive, hfresh', hnone', by rw [h]; exact hnxt⟩
    · have hst' : (receivedWhenListen env c seg).tcp.state = .listen := by rw [h, takeSyn, hst]
      rw [hst']
      exact ⟨hpassive, hfresh', hnone', by rw [h]; exact hnxt⟩
    · have hst' : (receivedWhenListen env c seg).tcp.state = .synReceived := by rw [h]
      rw [hst']
      refine ⟨hpassive, hfresh', hnone', ?_, ?_⟩
      · rw [h, hnxt]
      · rw [h]
        exact hseq hS

/-- What neither moves the state nor touches the two streams: an answer that takes no sequence
number, sending `tx_seg` again, `tcp_recv`. -/
theorem EndInv.of_frame (hc : EndInv s c) (hemits : Emits s.Says c') (hframe : SendFrame c c')
    (hqueued : queuedBytes c'.log = queuedBytes c.log) (hst : c'.tcp.state = c.tcp.state)
    (hsnd : c'.tcp.snd = c.tcp.snd) (hrcv : c'.tcp.rcv = c.tcp.rcv) : EndInv s c' := by
  refine ⟨hemits, by rw [hsnd]; exact hc.iss, ?_⟩
  have hshape := hc.shape
  rw [hst]
  cases hst' : c.tcp.state with
  | listen =>
      rw [hst'] at hshape
      rcases hshape with ⟨hpassive, hfresh, hnone, hnxt⟩
      exact ⟨hpassive, hframe.fresh hfresh hqueued, hframe.txSeg_eq_none.2 hnone,
        by rw [hsnd]; exact hnxt⟩
  | synSent =>
      rw [hst'] at hshape
      rcases hshape with ⟨hactive, hfresh, hnxt⟩
      exact ⟨hactive, hframe.fresh hfresh hqueued, by rw [hsnd]; exact hnxt⟩
  | synReceived =>
      rw [hst'] at hshape
      rcases hshape with ⟨hpassive, hfresh, hnone, hnxt, hirs⟩
      exact ⟨hpassive, hframe.fresh hfresh hqueued, hframe.txSeg_eq_none.2 hnone,
        by rw [hsnd]; exact hnxt, by rw [hrcv]; exact hirs⟩
  | established =>
      rw [hst'] at hshape
      exact hframe.streaming hshape hsnd (by rw [hqueued, hrcv]; exact hshape.rcv)
  | _ =>
      rw [hst'] at hshape
      exact hshape.elim

/-- A RST that the passive end sends. -/
theorem EndInv.of_rst (hc : EndInv s c) (seq ack : UInt32)
    (hemits : Emits s.Says (tcpSendCtrlSeg env c seq ack segFlagRst).1) :
    EndInv s (tcpSendCtrlSeg env c seq ack segFlagRst).1 := by
  have htcp := tcpSendCtrlSeg_rst_tcp env c seq ack
  exact hc.of_frame hemits (sendFrame_tcpSendCtrlSeg_rst env c seq ack)
    (queueMove_tcpSendCtrlSeg env c seq ack segFlagRst).bytes_eq (by rw [htcp]) (by rw [htcp])
    (by rw [htcp])

theorem endInv_processReceivedSeq (hc : EndInv s c) (seg : Received) {k : ℕ}
    (hk : k ≤ (queuedBytes c.log).length) (hrcv : c.tcp.rcv.nxt = s.rcvSeq k) :
    EndInv s (processReceivedSeq env c seg).1 := by
  have hemits := emits_processReceivedSeq env s.lasting_says hc.emits seg
    (s.says_ack c.log c.tcp c.tcp.snd.nxt hk hrcv)
  have htcp := processReceivedSeq_tcp env c seg
  exact hc.of_frame hemits (sendFrame_processReceivedSeq env c seg)
    (queueMove_processReceivedSeq env c seg).bytes_eq (by rw [htcp]) (by rw [htcp]) (by rw [htcp])

theorem endInv_receivedWhenSynReceived (hst : c.tcp.state = .synReceived) (hc : EndInv s c)
    {seg : Received} (hsends : s.peer.Sends sent [] seg.toSegment) :
    EndInv s (receivedWhenSynReceived env c seg) := by
  have hshape := hc.shape
  rw [hst] at hshape
  rcases hshape with ⟨hpassive, hfresh, hnone, hnxt, hrcv⟩
  cases hacc : seqAccepted c.tcp seg.toSegment with
  | false =>
      rw [receivedWhenSynReceived_of_rejected env c hacc]
      exact endInv_processReceivedSeq env hc seg (Nat.zero_le _) (by simp [hrcv, Endpoint.rcvSeq])
  | true =>
      have hR : segCtrlR seg.toSegment = false := by
        by_contra hR
        -- the peer is the active end
        have h := (hsends.rst (by simpa using hR)).1
        simp [Endpoint.peer, hpassive] at h
      cases hA : segCtrlA seg.toSegment with
      | false =>
          rw [receivedWhenSynReceived_of_no_ack env c hacc hR hA]
          exact hc
      | true =>
          rw [receivedWhenSynReceived_of_ack env c hacc hR hA, hsends.fin,
            if_neg Bool.false_ne_true]
          have hemits := emits_ackSynReceived env s.lasting_says hc.emits seg
            (s.says_rst c.log c.tcp seg.ack 0 hpassive)
          cases hcmp : sncmp c.tcp.snd.una .le seg.ack .le c.tcp.snd.nxt with
          | false =>
              rw [ackSynReceived_of_not env c hcmp] at hemits ⊢
              exact hc.of_rst env seg.ack 0 hemits
          | true =>
              rw [ackSynReceived_of env c hcmp] at hemits ⊢
              have hack : seg.ack = s.iss + 1 := s.ack_of_nil hsends hA
              exact ⟨hemits, hc.iss, streaming_of_fresh (hfresh.congr rfl rfl rfl) hnone hack hnxt hrcv⟩

variable [TimerLib τ]

theorem acceptedBytes_synAckReply (seg : Received) :
    acceptedBytes (synAckReply env c seg).log = acceptedBytes c.log := by
  rcases synAckReply_cases env c seg with ⟨_, _, hlog | ⟨dg, _, hlog⟩⟩ | ⟨_, _, hest⟩
  · rw [hlog]
  · simp [hlog, acceptedBytes]
  · rw [hest, acceptedBytes_tcpTxSegComplete]
    simp [tcpSendCtrlSeg_log, acceptedBytes]

theorem acceptedBytes_receivedWhenSynSent (seg : Received) :
    acceptedBytes (receivedWhenSynSent env c seg).log = acceptedBytes c.log := by
  rcases receivedWhenSynSent_cases env c seg with
      h | ⟨_, _, _, h⟩ | ⟨_, _, ⟨_, h⟩ | ⟨_, _, _, h⟩⟩
  · rw [h]
  · rw [h]
    exact (sendFrame_tcpSendCtrlSeg_rst env c seg.ack seg.seq).acceptedBytes_eq
  · rw [h]
  · rw [h]
    exact acceptedBytes_synAckReply env seg

theorem endInv_synAckReply (hst : c.tcp.state = .synSent) (hc : EndInv s c) {seg : Received}
    (hseq : seg.seq = s.irs) (hack : seg.ack = s.iss + 1) : EndInv s (synAckReply env c seg) := by
  have hshape := hc.shape
  rw [hst] at hshape
  rcases hshape with ⟨hactive, hfresh, hnxt⟩
  have hrcv : seg.seq + 1 = s.irs + 1 := by rw [hseq]
  have hemits : Emits s.Says (synAckReply env c seg) :=
    emits_synAckReply env s.lasting_says hc.emits seg fun log =>
      s.says_ack log _ _ (Nat.zero_le _) (by simp [hrcv, Endpoint.rcvSeq])
  have haccepted := acceptedBytes_synAckReply (c := c) env seg
  have hqueued := (queueMove_synAckReply env c seg).bytes_eq
  rcases synAckReply_cases env c seg with ⟨_, htcp, _⟩ | ⟨_, _, hest⟩
  · refine ⟨hemits, by rw [htcp]; exact hc.iss, ?_⟩
    rw [htcp, takeSynAck, hst]
    refine ⟨hactive, hfresh.congr haccepted hqueued (by rw [htcp, takeSynAck]), ?_⟩
    rw [htcp]
    exact hnxt
  · -- the SYN leaves `tx_seg`
    have hfresh' : Fresh (synAckReply env c seg) :=
      hfresh.congr haccepted hqueued (by rw [hest, tcpTxSegComplete_txData, takeSynAck])
    have hst' : (synAckReply env c seg).tcp.state = .established := by
      rw [hest, tcpTxSegComplete_state]
    have hsnd : (synAckReply env c seg).tcp.snd = { c.tcp.snd with una := seg.ack } := by
      rw [hest, tcpTxSegComplete_snd, takeSynAck]
    refine ⟨hemits, by rw [hsnd]; exact hc.iss, ?_⟩
    rw [hst']
    refine streaming_of_fresh hfresh' ?_ (by rw [hsnd, hack]) (by rw [hsnd]; exact hnxt) ?_
    · rw [hest, tcpTxSegComplete_txSeg]
    · rw [hest, tcpTxSegComplete_rcv]
      exact hrcv

theorem endInv_receivedWhenSynSent (hst : c.tcp.state = .synSent) (hc : EndInv s c)
    (hiss : s.iss < s.iss + 1) {seg : Received} (hsends : s.peer.Sends sent [] seg.toSegment) :
    EndInv s (receivedWhenSynSent env c seg) := by
  have hnxt : c.tcp.snd.nxt = s.iss + 1 := by
    have hshape := hc.shape
    rw [hst] at hshape
    exact hshape.2.2
  rcases receivedWhenSynSent_cases env c seg with h | ⟨hA, _, hcmp, _⟩ | ⟨hA, _, h⟩
  · rw [h]
    exact hc
  · -- the peer acknowledges the SYN and nothing else, so that no RST is sent
    exfalso
    have hle : s.iss ≤ s.iss + 1 := UInt32.le_of_lt hiss
    have hok : sncmp s.iss .ls (s.iss + 1) .le (s.iss + 1) = true :=
      (sncmp_ls_le_iff hle _).2 ⟨hiss, UInt32.le_refl _⟩
    rw [hc.iss, hnxt, s.ack_of_nil hsends hA, hok] at hcmp
    cases hcmp
  · rcases h with ⟨hR, _⟩ | ⟨_, hS, _, h⟩
    · exfalso
      have hno := (hsends.rst hR).2
      rw [hA] at hno
      cases hno
    · rw [h]
      exact endInv_synAckReply env hst hc (hsends.syn hS) (s.ack_of_nil hsends hA)

end Handshake

/-! ## Text -/

section Text

variable (env : Env)

/-- `tcp_handle_data` takes text of the peer only where the queue ends. -/
theorem streaming_tcpHandleData (h : Streaming s c) {dat : Received}
    (hsends : s.peer.Sends sent rcvd dat.toSegment) (hq : queuedBytes c.log <+: sent)
    (hlen : sent.length + 1 < 2 ^ 32) :
    Streaming s (tcpHandleData env c dat).1 ∧ Advances sent c (tcpHandleData env c dat).1 := by
  have hframe := sendFrame_tcpHandleData env c dat
  rcases tcpHandleData_cases env c dat with ⟨hsame, _⟩ | ⟨hseq, htext, htcp, l, hlog, hl⟩
  · rw [hsame]
    exact ⟨h, .of_eq hq rfl rfl⟩
  · rcases s.slice_of_seq hsends hq.length_le hlen (hseq.trans h.rcv) htext with ⟨hS, hslice⟩
    -- neither SYN nor FIN is counted, so the copy stays inside the payload
    have hbytes : textBytes c.tcp dat = dat.payload.take (textLength c.tcp dat) := by
      refine memRead_append_left ?_ _
      rw [textLength, tcpSegmentLength_of_plain hS hsends.fin]
      exact Nat.min_le_right _ _
    have hqueued : queuedBytes (tcpHandleData env c dat).1.log =
        queuedBytes c.log ++ textBytes c.tcp dat := by
      rcases hl with rfl | ⟨sent, rfl⟩ <;> simp [hlog, queuedBytes]
    refine ⟨hframe.streaming h (tcpHandleData_snd env c dat) ?_, ?_, ?_⟩
    · rw [htcp, takeText, hqueued, List.length_append, length_textBytes, h.rcv]
      exact Circular.add_ofNat_add _ _ _
    · exact ⟨[], by simp [hframe.acceptedBytes_eq]⟩
    · refine ⟨textBytes c.tcp dat, hqueued, ?_⟩
      rw [hbytes]
      exact hslice.take _

theorem emits_streaming_tcpHandleData (hemits : Emits s.Says c) (h : Streaming s c) (dat : Received) :
    Emits s.Says (tcpHandleData env c dat).1 := by
  refine emits_tcpHandleData env s.lasting_says hemits dat fun _ _ => ?_
  refine s.says_ack _ _ _ (k := (queuedBytes c.log).length + textLength c.tcp dat) ?_ ?_
  · simp [queuedBytes]
  · rw [takeText, h.rcv]
    exact Circular.add_ofNat_add _ _ _

end Text

section Established

variable [TimerLib τ] {env : Env}

theorem streaming_ackEstablished (hmem : env.AllocOk) (h : Streaming s c) (seg : Received) :
    Streaming s (ackEstablished env c seg) ∧
      acceptedBytes (ackEstablished env c seg).log = acceptedBytes c.log := by
  rcases ackEstablished_cases env c seg with ⟨hsame, _⟩ | ⟨pending, hs, _, _, hacked⟩
  · rw [hsame]
    exact ⟨h, rfl⟩
  · rcases streaming_ackedConn h hs with ⟨h₁, haccepted₁⟩
    rcases streaming_tcpConstructData hmem h₁ with ⟨h₂, haccepted₂⟩
    rw [hacked]
    exact ⟨h₂, haccepted₂.trans haccepted₁⟩

theorem endInv_receivedWhenEstablished (hst : c.tcp.state = .established) (hc : EndInv s c)
    (hmem : env.AllocOk) {seg : Received} (hsends : s.peer.Sends sent rcvd seg.toSegment)
    (hq : queuedBytes c.log <+: sent) (hlen : sent.length + 1 < 2 ^ 32) :
    EndInv s (receivedWhenEstablished env c seg) ∧
      Advances sent c (receivedWhenEstablished env c seg) := by
  have h : Streaming s c := by
    have hshape := hc.shape
    rwa [hst] at hshape
  cases hacc : seqAccepted c.tcp seg.toSegment with
  | false =>
      rw [receivedWhenEstablished_of_rejected env c hacc]
      exact ⟨endInv_processReceivedSeq env hc seg (Nat.le_refl _) h.rcv,
        .of_eq hq (sendFrame_processReceivedSeq env c seg).acceptedBytes_eq
          (queueMove_processReceivedSeq env c seg).bytes_eq⟩
  | true =>
      by_cases hRA : segCtrlR seg.toSegment = true ∨ segCtrlA seg.toSegment = false
      · rw [receivedWhenEstablished_of_ignored env c hacc hRA]
        exact ⟨hc, .of_eq hq rfl rfl⟩
      · rw [not_or, Bool.not_eq_true, Bool.not_eq_false] at hRA
        have htextOnly : receivedWhenEstablished env c seg = textEstablished env c seg := by
          rw [receivedWhenEstablished_of_ack env c hacc hRA.1 hRA.2, hsends.fin,
            if_neg Bool.false_ne_true]
        rw [htextOnly]
        -- the acknowledgment leaves both streams as they are
        have hqueued := (queueMove_ackEstablished env c seg).bytes_eq
        rcases streaming_ackEstablished hmem h seg with ⟨h₁, haccepted⟩
        have hemits : Emits s.Says (ackEstablished env c seg) := by
          refine emits_ackEstablished env s.lasting_says hc.emits seg fun pending tx rest hs hd => ?_
          exact says_dataSegment (streaming_ackedConn h hs).1 rfl hd
        rw [← hqueued] at hq
        rcases streaming_tcpHandleData env h₁ hsends hq hlen with ⟨h₂, hadv⟩
        refine ⟨⟨emits_streaming_tcpHandleData env hemits h₁ seg, ?_, ?_⟩, ?_, ?_⟩
        · exact hc.iss_of_binding (by simp [textEstablished])
        · rw [textEstablished, tcpHandleData_state, ackEstablished_state, hst]
          exact h₂
        · rw [← haccepted]
          exact hadv.accepted
        · rw [← hqueued]
          exact hadv.queued

/-! ## One event -/

/-- What may happen to an end whose peer has accepted `sent`: a segment of the peer arrives, which
may carry any acknowledgment of what this end accepted, or the user calls `tcp_send` with 1 to 1379
bytes or `tcp_recv`, or `tcp_loop` runs; every allocation succeeds. -/
def EndOk (s : Endpoint) (sent : List Byte) (c : Conn τ) : Event → Prop
  | .received env seg =>
      env.AllocOk ∧ s.peer.Sends sent (acceptedBytes c.log) seg.toSegment
  | .send env data => env.AllocOk ∧ data.length ≤ 1379
  | .recv _ _ => True
  | .close _ => False
  | .loop env => env.AllocOk

theorem endInv_tcpReceived (hc : EndInv s c) (hiss : s.passive = false → s.iss < s.iss + 1)
    (hmem : env.AllocOk) {seg : Received}
    (hsends : s.peer.Sends sent (acceptedBytes c.log) seg.toSegment)
    (hq : queuedBytes c.log <+: sent) (hlen : sent.length + 1 < 2 ^ 32) :
    EndInv s (tcpReceived env c seg) ∧ Advances sent c (tcpReceived env c seg) := by
  have hshape := hc.shape
  cases hst : c.tcp.state with
  | listen =>
      rw [hst] at hshape
      have hreceived : tcpReceived env c seg = receivedWhenListen env c seg := by
        simp [tcpReceived, hst, receivedEventProcess]
      rw [hreceived]
      exact ⟨endInv_receivedWhenListen env hst hc hsends,
        .of_eq hq (sendFrame_receivedWhenListen env c seg).acceptedBytes_eq
          (queueMove_receivedWhenListen env c seg).bytes_eq⟩
  | synSent =>
      rw [hst] at hshape
      rcases hshape with ⟨hactive, hfresh, _⟩
      have hreceived : tcpReceived env c seg = receivedWhenSynSent env c seg := by
        simp [tcpReceived, hst, receivedEventProcess]
      rw [hfresh.accepted] at hsends
      rw [hreceived]
      refine ⟨endInv_receivedWhenSynSent env hst hc (hiss hactive) hsends,
        .of_eq hq (acceptedBytes_receivedWhenSynSent env seg)
          (queueMove_receivedWhenSynSent env c seg).bytes_eq⟩
  | synReceived =>
      rw [hst] at hshape
      have hreceived : tcpReceived env c seg = receivedWhenSynReceived env c seg := by
        simp [tcpReceived, hst, receivedEventProcess]
      rw [hshape.2.1.accepted] at hsends
      rw [hreceived]
      exact ⟨endInv_receivedWhenSynReceived env hst hc hsends,
        .of_eq hq (sendFrame_receivedWhenSynReceived env c seg).acceptedBytes_eq
          (queueMove_receivedWhenSynReceived env c seg).bytes_eq⟩
  | established =>
      have hreceived : tcpReceived env c seg = receivedWhenEstablished env c seg := by
        simp [tcpReceived, hst, receivedEventProcess]
      rw [hreceived]
      exact endInv_receivedWhenEstablished hst hc hmem hsends hq hlen
  | _ =>
      rw [hst] at hshape
      exact hshape.elim

theorem endInv_tcpSend (hc : EndInv s c) (hmem : env.AllocOk) {data : List Byte}
    (hdata : data.length ≤ 1379) (hq : queuedBytes c.log <+: sent) :
    EndInv s (tcpSend env c data).1 ∧ Advances sent c (tcpSend env c data).1 := by
  by_cases hst : c.tcp.state = .established
  · have h : Streaming s c := by
      have hshape := hc.shape
      rwa [hst] at hshape
    have haccepted : acceptedBytes (acceptData c data).log = acceptedBytes c.log ++ data := by
      simp [acceptData, acceptedBytes]
    have hqueued : queuedBytes (acceptData c data).log = queuedBytes c.log := by
      simp [acceptData, queuedBytes]
    have hwaiting : waitingBytes (acceptData c data).tcp = waitingBytes c.tcp ++ data := by
      have hmod : data.length % 65536 = data.length := Nat.mod_eq_of_lt (by omega)
      simp [waitingBytes, acceptData, dblkCopyFrom_new, Block.bytes, hmod, memRead_eq_take]
    have h₁ : Streaming s (acceptData c data) := by
      refine ⟨?_, h.nxt, by rw [hqueued]; exact h.rcv⟩
      rcases h.accepted with ⟨done, hacc, huna⟩
      refine ⟨done, ?_, huna⟩
      have hpending : pendingBytes (acceptData c data).tcp = pendingBytes c.tcp := rfl
      rw [haccepted, hacc, hwaiting, hpending, List.append_assoc]
    have hemits₁ : Emits s.Says (acceptData c data) := by
      refine hc.emits.of_keep s.lasting_says rfl rfl ?_
      intro a ha
      rw [List.mem_singleton.1 ha]
      trivial
    have hemits : Emits s.Says (tcpConstructData env (acceptData c data)) :=
      emits_tcpConstructData env s.lasting_says hemits₁ fun tx rest hs hd => says_dataSegment h₁ hs hd
    rcases streaming_tcpConstructData hmem h₁ with ⟨h₂, haccepted₂⟩
    have hqueued₂ := (queueMove_tcpConstructData env (acceptData c data)).bytes_eq
    rw [tcpSend_of_established env c hst, if_pos (hmem _ _)]
    refine ⟨⟨hemits, ?_, ?_⟩, ?_, ?_⟩
    · have hbinding : (tcpConstructData env (acceptData c data)).tcp.binding = c.tcp.binding := by
        rw [binding_tcpConstructData]
        rfl
      exact hc.iss_of_binding hbinding
    · rw [tcpConstructData_state, acceptData, hst]
      exact h₂
    · exact ⟨data, by rw [haccepted₂, haccepted]⟩
    · exact ⟨[], by rw [hqueued₂, hqueued]; simp, sliceAt_nil hq.length_le⟩
  · rw [tcpSend_of_not env c hst]
    exact ⟨hc, .of_eq hq rfl rfl⟩

omit [TimerLib τ] in
theorem endInv_recvEvent (hc : EndInv s c) (hq : queuedBytes c.log <+: sent) (data : List Byte)
    (size : ℕ) :
    EndInv s (recvEvent c data size) ∧ Advances sent c (recvEvent c data size) := by
  have hframe := sendFrame_recvEvent c data size
  have hqueued : queuedBytes (recvEvent c data size).log = queuedBytes c.log := by
    rcases recvEvent_log c data size with ⟨bs, hlog⟩
    simp [hlog, queuedBytes]
  refine ⟨?_, .of_eq hq hframe.acceptedBytes_eq hqueued⟩
  exact hc.of_frame (emits_recvEvent s.lasting_says hc.emits data size) hframe hqueued
    (recvEvent_state c data size) (recvEvent_snd c data size) (recvEvent_rcv c data size)

theorem endInv_tcpLoopVisit (hc : EndInv s c) (hq : queuedBytes c.log <+: sent) :
    EndInv s (tcpLoopVisit env c) ∧ Advances sent c (tcpLoopVisit env c) := by
  have hemits := emits_tcpLoopVisit env s.lasting_says hc.emits
  have hstop := sendFrame_stopTimer c
  rcases tcpLoopVisit_cases env c with h | ⟨_, h⟩ | ⟨hst, _⟩ | ⟨_, _, h⟩
  · rw [h]
    exact ⟨hc, .of_eq hq rfl rfl⟩
  · have htcp := tcpRetransmit_tcp env (stopTimer c)
    have hframe := hstop.trans (sendFrame_tcpRetransmit env (stopTimer c))
    have hqueued := (queueMove_tcpRetransmit env (stopTimer c)).bytes_eq
    rw [h] at hemits ⊢
    refine ⟨?_, .of_eq hq hframe.acceptedBytes_eq hqueued⟩
    exact hc.of_frame hemits hframe hqueued (by rw [htcp, stopTimer]) (by rw [htcp, stopTimer])
      (by rw [htcp, stopTimer])
  · -- nobody has closed
    exfalso
    have hshape := hc.shape
    rw [hst] at hshape
    exact hshape
  · rw [h] at hemits ⊢
    exact ⟨hc.of_frame hemits hstop rfl rfl rfl rfl, .of_eq hq rfl rfl⟩

/-- `tcp_open` of the active end; whether its SYN goes out does not matter. -/
theorem endInv_openActive (hmem : env.AllocOk) {ip : Netif} {port : UInt32} {dest : IpAddr}
    {destPort : UInt16} (hopen : tcpOpenConn env ip port (some dest) destPort = some c)
    (hactive : s.passive = false) (hiss : s.iss = c.tcp.snd.iss) : EndInv s c := by
  rcases tcpOpenConn_active (τ := τ) env hmem ip port dest destPort with ⟨sent, _, h⟩
  rw [hopen] at h
  cases h
  refine ⟨?_, hiss.symm, hactive, ⟨?_, ?_, rfl⟩, ?_⟩
  · exact emits_tcpOpenConn env s.lasting_says hopen fun t => s.sends_syn rfl hiss.symm
  · simp [acceptedBytes]
  · simp [queuedBytes]
  · rw [hiss]
    rfl

theorem endInv_openPassive {ip : Netif} {port : UInt32} {destPort : UInt16}
    (hopen : tcpOpenConn env ip port none destPort = some c) (hpassive : s.passive = true)
    (hiss : s.iss = c.tcp.snd.iss) : EndInv s c := by
  rw [tcpOpenConn_passive] at hopen
  cases hopen
  refine ⟨⟨each_nil, ?_⟩, hiss.symm, hpassive, ⟨rfl, rfl, rfl⟩, rfl, hiss.symm⟩
  intro seg raw hseg
  cases hseg

theorem endInv_step (hc : EndInv s c) (hiss : s.passive = false → s.iss < s.iss + 1)
    (hq : queuedBytes c.log <+: sent) (hlen : sent.length + 1 < 2 ^ 32) {e : Event}
    (hok : EndOk s sent c e) : EndInv s (step c e) ∧ Advances sent c (step c e) := by
  cases e with
  | received env seg =>
      exact endInv_tcpReceived hc hiss hok.1 hok.2 hq hlen
  | send env data =>
      exact endInv_tcpSend hc hok.1 hok.2 hq
  | recv data size =>
      exact endInv_recvEvent hc hq data size
  | close env =>
      exact hok.elim
  | loop env =>
      exact endInv_tcpLoopVisit hc hq

end Established

end Tcp
end DtsNet
