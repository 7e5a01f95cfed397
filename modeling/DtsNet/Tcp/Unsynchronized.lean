import DtsNet.Tcp.Comparison
import DtsNet.Tcp.Handlers

/-!
# Unsynchronized — bad acknowledgments in LISTEN and SYN_SENT

An acknowledgment of something that was never sent should be answered with a reset to its sender,
unless it is a reset itself, and change nothing.  `BadAckOk` says when the two handlers do this:
the reset goes to the address in the control block, LISTEN goes on to the SYN behind it, and
SYN_SENT looks at a RST again after it has found its acknowledgment to be bad.
-/

namespace DtsNet
namespace Tcp

open Ip Dblk

variable {τ : Type}

/-! ## What is asked -/

/-- In LISTEN every acknowledgment is bad, in SYN_SENT one outside `(ISS, SND.NXT]`. -/
def BadAck (t : Tcb τ) (seg : Segment) : Prop :=
  segCtrlA seg = true ∧
    (t.state = .listen ∨ t.state = .synSent ∧ ¬ Between t.snd.iss .ls seg.ack .le t.snd.nxt)

/-- The datagram resets the connection of the sender of `seg`. -/
structure ResetsSender (seg : Received) (dg : Datagram) : Prop where
  flags : dg.seg.flags = segFlagRst
  seq : dg.seg.seq = seg.ack
  dest : ipAddrEquals dg.dest seg.src = true
  destPort : dg.seg.destPort = seg.srcPort

/-- Nothing changes, and at most the reset is sent; whether it leaves is up to the environment. -/
structure ResetOnly (env : Env) (seg : Received) (c c' : Conn τ) : Prop where
  state : c'.tcp.state = c.tcp.state
  snd : c'.tcp.snd = c.tcp.snd
  rcv : c'.tcp.rcv = c.tcp.rcv
  txSeg : c'.tcp.txSeg = c.tcp.txSeg
  dest : c'.tcp.dest = c.tcp.dest
  destPort : c'.tcp.destPort = c.tcp.destPort
  silent : segCtrlR seg.toSegment = true → c'.log = c.log
  answered : segCtrlR seg.toSegment = false → ∃ dg, ResetsSender seg dg ∧
    c'.log = c.log ++ [.output (some dg) (env.malloc .copy c.log && env.ipHlSend c.log)]

/-! ## The condition -/

/-- The control block holds the address and port that the segment came from. -/
def FromPeer (t : Tcb τ) (seg : Received) : Prop :=
  ipAddrEquals t.dest seg.src = true ∧ t.destPort = seg.srcPort

def BadAckOk (t : Tcb τ) (seg : Received) : Prop :=
  if segCtrlR seg.toSegment then
    t.state = .synSent → sncmp t.snd.una .le seg.ack .le t.snd.nxt = false
  else
    FromPeer t seg ∧ (t.state = .listen → segCtrlS seg.toSegment = false) ∧
      (t.state = .synSent → t.snd.iss ≤ t.snd.nxt)

/-! ## The reset -/

section Reset

variable {env : Env} {c : Conn τ} {seg : Received}

theorem ResetOnly.refl (hR : segCtrlR seg.toSegment = true) : ResetOnly env seg c c := by
  refine ⟨rfl, rfl, rfl, rfl, rfl, rfl, fun _ => rfl, ?_⟩
  intro h
  rw [hR] at h
  exact absurd h (by decide)

/-- The reset of the code: its destination is taken from the control block. -/
theorem resetOnly_tcpSendCtrlSeg_iff (hR : segCtrlR seg.toSegment = false) (ack : UInt32) :
    ResetOnly env seg c (tcpSendCtrlSeg env c seg.ack ack segFlagRst).1 ↔ FromPeer c.tcp seg := by
  have htcp := tcpSendCtrlSeg_rst_tcp env c seg.ack ack
  have hlog := tcpSendCtrlSeg_log env c seg.ack ack segFlagRst
  constructor
  · intro h
    rcases h.answered hR with ⟨dg, hdg, heq⟩
    rw [hlog] at heq
    have hdg' : connDatagram c.tcp (newSegment c.tcp seg.ack ack segFlagRst []) = dg := by
      simpa using heq
    subst hdg'
    exact ⟨hdg.dest, hdg.destPort⟩
  · rintro ⟨hdest, hport⟩
    refine ⟨by rw [htcp], by rw [htcp], by rw [htcp], by rw [htcp], by rw [htcp], by rw [htcp],
      fun h => ?_, fun _ => ⟨_, ⟨rfl, rfl, hdest, hport⟩, hlog⟩⟩
    rw [hR] at h
    exact absurd h (by decide)

/-- Anything that is sent besides is noticed. -/
theorem ResetOnly.log_length {c' : Conn τ} (h : ResetOnly env seg c c') :
    c'.log.length ≤ c.log.length + 1 := by
  cases hR : segCtrlR seg.toSegment with
  | true =>
      rw [h.silent hR]
      omega
  | false =>
      rcases h.answered hR with ⟨dg, _, hlog⟩
      simp [hlog]

theorem ResetOnly.log_ne {c' : Conn τ} (h : ResetOnly env seg c c')
    (hR : segCtrlR seg.toSegment = false) : c'.log ≠ c.log := by
  rcases h.answered hR with ⟨dg, _, hlog⟩
  simp [hlog]

theorem ResetOnly.flags_eq {c' : Conn τ} (h : ResetOnly env seg c c')
    (hR : segCtrlR seg.toSegment = false) {dg : Datagram} {sent : Bool}
    (hlog : c'.log = c.log ++ [.output (some dg) sent]) : dg.seg.flags = segFlagRst := by
  rcases h.answered hR with ⟨dg', hdg, hlog'⟩
  have heq : dg = dg' := by
    rw [hlog] at hlog'
    exact (by simpa using hlog' : dg = dg' ∧ _).1
  rw [heq]
  exact hdg.flags

end Reset

/-! ## The two handlers -/

section Handlers

variable {env : Env} {c : Conn τ} {seg : Received}

theorem resetOnly_receivedWhenListen_iff (hA : segCtrlA seg.toSegment = true) :
    ResetOnly env seg c (receivedWhenListen env c seg) ↔ segCtrlR seg.toSegment = true ∨
      FromPeer c.tcp seg ∧ segCtrlS seg.toSegment = false := by
  cases hR : segCtrlR seg.toSegment with
  | true =>
      simpa [receivedWhenListen, hR] using ResetOnly.refl hR
  | false =>
      cases hS : segCtrlS seg.toSegment with
      | false =>
          simpa [receivedWhenListen, hR, hA, hS] using resetOnly_tcpSendCtrlSeg_iff hR 0
      | true =>
          -- the SYN is answered too
          simp only [Bool.false_eq_true, Bool.true_eq_false, and_false, or_false, iff_false]
          intro h
          have hlen := h.log_length
          have hreply : (receivedWhenListen env c seg).log.length = c.log.length + 2 := by
            have hlog : (receivedWhenListen env c seg).log =
                (synReply env (tcpSendCtrlSeg env c seg.ack 0 segFlagRst).1 seg).log := by
              simp only [receivedWhenListen, hR, hA, hS]
              rfl
            rw [hlog, synReply_log, tcpSendCtrlSeg_log]
            simp
          omega

/-- A SYN whose acknowledgment passes the comparison is taken instead of answered with a reset. -/
theorem not_resetOnly_synAckReply [TimerLib τ] (hst : c.tcp.state = .synSent)
    (hR : segCtrlR seg.toSegment = false) : ¬ ResetOnly env seg c (synAckReply env c seg) := by
  intro h
  rcases synAckReply_cases env c seg with ⟨_, _, hlog | ⟨dg, hdg, hlog⟩⟩ | ⟨_, _, heq⟩
  · exact h.log_ne hR hlog
  · -- the acknowledgment is no reset
    have hflags := h.flags_eq hR hlog
    rw [hdg, newSegment_flags] at hflags
    exact absurd hflags (by decide)
  · have hstate := h.state
    rw [heq, tcpTxSegComplete_state, hst] at hstate
    cases hstate

theorem resetOnly_receivedWhenSynSent_iff [TimerLib τ] (hst : c.tcp.state = .synSent)
    (hA : segCtrlA seg.toSegment = true)
    (hbad : ¬ Between c.tcp.snd.iss .ls seg.ack .le c.tcp.snd.nxt) :
    ResetOnly env seg c (receivedWhenSynSent env c seg) ↔
      if segCtrlR seg.toSegment then sncmp c.tcp.snd.una .le seg.ack .le c.tcp.snd.nxt = false
      else FromPeer c.tcp seg ∧ c.tcp.snd.iss ≤ c.tcp.snd.nxt := by
  cases hR : segCtrlR seg.toSegment with
  | true =>
      simp only [if_true]
      cases hacc : sncmp c.tcp.snd.una .le seg.ack .le c.tcp.snd.nxt with
      | true =>
          simp only [Bool.true_eq_false, iff_false]
          intro h
          have hstate := h.state
          simp [receivedWhenSynSent, synSentAcceptable, hA, hR, hacc, hst] at hstate
      | false =>
          simpa [receivedWhenSynSent, synSentAcceptable, hA, hR, hacc] using ResetOnly.refl hR
  | false =>
      simp only [Bool.false_eq_true, if_false]
      by_cases hle : c.tcp.snd.iss ≤ c.tcp.snd.nxt
      · have hiss : sncmp c.tcp.snd.iss .ls seg.ack .le c.tcp.snd.nxt = false := by
          rw [Bool.eq_false_iff]
          exact mt ((sncmp_correct_iff .ls .le seg.ack).2 (Or.inl hle)).1 hbad
        simpa [receivedWhenSynSent, hA, hR, hiss, hle] using
          resetOnly_tcpSendCtrlSeg_iff hR seg.seq
      · -- `sncmp` takes the bad acknowledgment for a good one
        have hiss : sncmp c.tcp.snd.iss .ls seg.ack .le c.tcp.snd.nxt = true := by
          rw [sncmp_iff_of_gt .ls .le seg.ack (UInt32.not_le.1 hle)]
          simpa using hbad
        simp only [hle, and_false, iff_false]
        rcases receivedWhenSynSent_cases env c seg with h | ⟨_, _, h, _⟩ | ⟨_, _, h⟩
        · rw [h]
          exact fun h => h.log_ne hR rfl
        · rw [hiss] at h
          exact absurd h (by decide)
        · rcases h with ⟨h, _⟩ | ⟨_, _, _, h⟩
          · rw [hR] at h
            exact absurd h (by decide)
          · rw [h]
            exact not_resetOnly_synAckReply hst hR

end Handlers

/-! ## Both states -/

variable [TimerLib τ]

/-- For every connection and every bad acknowledgment: it is answered as it should be exactly if
`BadAckOk` holds. -/
theorem resetOnly_iff_badAckOk {env : Env} {c : Conn τ} {seg : Received}
    (h : BadAck c.tcp seg.toSegment) :
    ResetOnly env seg c (tcpReceived env c seg) ↔ BadAckOk c.tcp seg := by
  rcases h with ⟨hA, hst | ⟨hst, hbad⟩⟩
  · have hiff := @resetOnly_receivedWhenListen_iff τ env c seg hA
    simp only [tcpReceived, hst, receivedEventProcess, hiff, BadAckOk]
    cases segCtrlR seg.toSegment <;> simp
  · have hiff := @resetOnly_receivedWhenSynSent_iff τ env c seg _ hst hA hbad
    simp only [tcpReceived, hst, receivedEventProcess, hiff, BadAckOk]
    simp

/-- An acknowledgment of the peer that is ahead of the SYN is reset. -/
theorem resetOnly_iff_badAckOk_sample :
    ResetOnly (.working 101) (peerSegment 700 500 segFlagAck []) (sampleConn 100 (some samplePeer))
      (tcpReceived (.working 101) (sampleConn 100 (some samplePeer))
        (peerSegment 700 500 segFlagAck [])) := by
  have hbad : BadAck (sampleConn 100 (some samplePeer)).tcp
      (peerSegment 700 500 segFlagAck []).toSegment :=
    ⟨by decide, Or.inr ⟨by decide, by decide⟩⟩
  refine (resetOnly_iff_badAckOk hbad).2 ?_
  exact ⟨⟨by decide, by decide⟩, fun h => absurd h (by decide), fun _ => by decide⟩

/-- A new listener resets the address 0.0.0.0, and also takes the SYN of a SYN,ACK; in SYN_SENT a
RST that acknowledges nothing closes the connection. -/
theorem resetOnly_fails_sample :
    (∀ flags ∈ [segFlagAck, segFlagSyn ||| segFlagAck],
      BadAck (sampleConn 100 none).tcp (peerSegment 700 500 flags []).toSegment ∧
      ¬ ResetOnly (.working 101) (peerSegment 700 500 flags []) (sampleConn 100 none)
        (tcpReceived (.working 101) (sampleConn 100 none) (peerSegment 700 500 flags []))) ∧
    let seg := peerSegment 700 100 (segFlagRst ||| segFlagAck) []
    BadAck (sampleConn 100 (some samplePeer)).tcp seg.toSegment ∧
      ¬ ResetOnly (.working 101) seg (sampleConn 100 (some samplePeer))
        (tcpReceived (.working 101) (sampleConn 100 (some samplePeer)) seg) := by
  have hctrl : ∀ flags ∈ [segFlagAck, segFlagSyn ||| segFlagAck],
      segCtrlA (peerSegment 700 500 flags []).toSegment = true ∧
        segCtrlR (peerSegment 700 500 flags []).toSegment = false := by
    intro flags hflags
    rcases List.mem_pair.1 hflags with rfl | rfl
    · exact ⟨by decide, by decide⟩
    · exact ⟨by decide, by decide⟩
  have hdest : ipAddrEquals (sampleConn 100 none).tcp.dest samplePeer = false := by
    decide
  refine ⟨?_, ⟨by decide, Or.inr ⟨by decide, by decide⟩⟩, fun h => absurd h.state (by decide)⟩
  intro flags hflags
  rcases hctrl flags hflags with ⟨hA, hR⟩
  refine ⟨⟨hA, Or.inl rfl⟩, fun h => ?_⟩
  -- the reset would have to go to the peer
  rcases (resetOnly_receivedWhenListen_iff hA).1 h with hR' | ⟨⟨hpeer, _⟩, _⟩
  · rw [hR] at hR'
    exact absurd hR' (by decide)
  · exact absurd (hdest.symm.trans hpeer) (by decide)

end Tcp
end DtsNet
