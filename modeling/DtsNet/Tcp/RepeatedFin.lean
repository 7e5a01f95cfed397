import DtsNet.Tcp.Handlers

/-!
# RepeatedFin — the FIN of the peer arrives again

A peer that has not seen its FIN acknowledged sends it again, to a connection in CLOSE_WAIT or
TIME_WAIT.  `tcp_handle_fin_ack` answers only a segment that acknowledges something new, which the
acknowledgment `SND.NXT` does at most once.
-/

namespace DtsNet
namespace Tcp

open Ip Dblk

variable {τ : Type}

/-! ## What is asked -/

/-- A copy of the FIN with number `f` that acknowledges everything up to `nxt`. -/
structure FinCopy (f nxt : UInt32) (seg : Received) : Prop where
  flags : segCtrlAF seg.toSegment = true
  seq : seg.seq = f
  ack : seg.ack = nxt

/-- Sends succeed: the copy for the IP layer can be allocated, and the IP layer takes it. -/
def Env.Sends (env : Env) : Prop :=
  ∀ log, (env.malloc .copy log && env.ipHlSend log) = true

/-- The FIN with number `f` is acknowledged, and nothing else happens. -/
structure AnswersFin (f : UInt32) (c c' : Conn τ) : Prop where
  state : c'.tcp.state = c.tcp.state
  sndNxt : c'.tcp.snd.nxt = c.tcp.snd.nxt
  rcvNxt : c'.tcp.rcv.nxt = c.tcp.rcv.nxt
  answer : ∃ dg, segCtrlA dg.seg = true ∧ dg.seg.ack = f + 1 ∧
    c'.log = c.log ++ [.output (some dg) true]

/-! ## One copy -/

theorem sncmp_last (a b : UInt32) : sncmp a .ls b .le b = decide (a < b) := by
  by_cases heq : a = b
  · subst heq
    simp [UInt32.lt_irrefl]
  · by_cases hlt : a < b
    · simp [sncmp, heq, hlt]
    · simp [sncmp, heq, hlt, UInt32.lt_irrefl]

section Copy

variable {env : Env} {c : Conn τ} {seg : Received} {f : UInt32}

/-- What `tcp_handle_fin_ack` does with a copy. -/
theorem answersFin_tcpHandleFinAck_iff (hsend : env.Sends) (hcopy : FinCopy f c.tcp.snd.nxt seg) :
    AnswersFin f c (tcpHandleFinAck env c seg).1 ↔
      c.tcp.snd.una < c.tcp.snd.nxt ∧ c.tcp.rcv.nxt = f + 1 := by
  have hwin : sncmp c.tcp.snd.una .ls seg.ack .le c.tcp.snd.nxt =
      decide (c.tcp.snd.una < c.tcp.snd.nxt) := by
    rw [hcopy.ack]
    exact sncmp_last _ _
  by_cases hlt : c.tcp.snd.una < c.tcp.snd.nxt
  · rw [decide_eq_true hlt] at hwin
    rcases tcpHandleFinAck_of env c hwin with ⟨htcp, _⟩
    have hlog : (tcpHandleFinAck env c seg).1.log = c.log ++ [.output (some (connDatagram c.tcp
        (newSegment c.tcp seg.ack (seg.seq + 1) segFlagAck []))) true] := by
      rw [← hsend c.log]
      simp [tcpHandleFinAck, hwin, tcpSendCtrlSeg_log, connDatagram, newSegment]
    constructor
    · intro h
      have hrcv := h.rcvNxt
      rw [htcp, takeFin, hcopy.seq] at hrcv
      exact ⟨hlt, hrcv.symm⟩
    · rintro ⟨_, hrcv⟩
      refine ⟨by rw [htcp, takeFin], by rw [htcp, takeFin], ?_, ?_⟩
      · rw [htcp, takeFin, hrcv, hcopy.seq]
      · exact ⟨_, (ctrl_of_flags_ack rfl).1, congrArg (· + 1) hcopy.seq, hlog⟩
  · -- the copy acknowledges nothing new and is dropped
    rw [decide_eq_false hlt] at hwin
    rw [tcpHandleFinAck_of_not env c hwin]
    constructor
    · intro h
      rcases h.answer with ⟨dg, _, _, hlog⟩
      simp at hlog
    · rintro ⟨h, _⟩
      exact absurd h hlt

/-- Everything sent is acknowledged by an answered copy. -/
theorem una_tcpHandleFinAck (hcopy : FinCopy f c.tcp.snd.nxt seg)
    (hlt : c.tcp.snd.una < c.tcp.snd.nxt) :
    (tcpHandleFinAck env c seg).1.tcp.snd.una = c.tcp.snd.nxt := by
  have hwin : sncmp c.tcp.snd.una .ls seg.ack .le c.tcp.snd.nxt = true := by
    rw [hcopy.ack, sncmp_last, decide_eq_true hlt]
  rw [(tcpHandleFinAck_of env c hwin).1, takeFin]
  exact hcopy.ack

theorem tcpReceived_finCopy [TimerLib τ]
    (hst : c.tcp.state = .closeWait ∨ c.tcp.state = .timeWait) (hcopy : FinCopy f c.tcp.snd.nxt seg) :
    tcpReceived env c seg = (tcpHandleFinAck env c seg).1 := by
  rcases hst with hst | hst
  · simp [tcpReceived, hst, receivedEventProcess, receivedWhenCloseWait, hcopy.flags]
  · simp [tcpReceived, hst, receivedEventProcess, receivedWhenTimeWait, hcopy.flags]

end Copy

/-! ## Any number of copies -/

variable [TimerLib τ]

/-- For every connection in CLOSE_WAIT or TIME_WAIT and any number of copies of a FIN that arrive
one after another: all are answered exactly if there is none, or one, which acknowledges something
new and whose number is the one before `RCV.NXT`. -/
theorem answersFin_copies_iff {c : Conn τ} {f : UInt32} {copies : List (Env × Received)}
    (hst : c.tcp.state = .closeWait ∨ c.tcp.state = .timeWait)
    (hcopies : ∀ p ∈ copies, p.1.Sends ∧ FinCopy f c.tcp.snd.nxt p.2) :
    Machine.Along step (fun c e => AnswersFin f c (step c e)) c
        (copies.map fun p => .received p.1 p.2) ↔
      copies.length = 0 ∨
        copies.length = 1 ∧ c.tcp.snd.una < c.tcp.snd.nxt ∧ c.tcp.rcv.nxt = f + 1 := by
  cases copies with
  | nil =>
      simp
  | cons p copies =>
      rcases hcopies p (by simp) with ⟨hsend, hcopy⟩
      have hreceived : step c (.received p.1 p.2) = (tcpHandleFinAck p.1 c p.2).1 :=
        tcpReceived_finCopy hst hcopy
      have hfirst := answersFin_tcpHandleFinAck_iff hsend hcopy
      rw [← hreceived] at hfirst
      cases copies with
      | nil =>
          simpa using hfirst
      | cons q copies =>
          -- the first copy, if it is answered, leaves nothing new for the second to acknowledge
          simp only [List.map_cons, Machine.along_cons, List.length_cons, Nat.succ_ne_zero,
            false_or]
          constructor
          · rintro ⟨h₁, h₂, _⟩
            exfalso
            rcases hcopies q (by simp) with ⟨hsend', hcopy'⟩
            have hst' : (step c (.received p.1 p.2)).tcp.state = .closeWait ∨
                (step c (.received p.1 p.2)).tcp.state = .timeWait := by
              rwa [h₁.state]
            rw [← h₁.sndNxt] at hcopy'
            have hreceived' : step (step c (.received p.1 p.2)) (.received q.1 q.2) =
                (tcpHandleFinAck q.1 (step c (.received p.1 p.2)) q.2).1 :=
              tcpReceived_finCopy hst' hcopy'
            rw [hreceived'] at h₂
            have hlt := ((answersFin_tcpHandleFinAck_iff hsend' hcopy').1 h₂).1
            have huna := @una_tcpHandleFinAck τ p.1 c p.2 f hcopy (hfirst.1 h₁).1
            rw [h₁.sndNxt, hreceived, huna] at hlt
            exact UInt32.lt_irrefl _ hlt
          · rintro ⟨h, _⟩
            omega

/-- The peer's FIN finds three bytes unacknowledged, and its copy acknowledges them. -/
theorem answersFin_copies_iff_sample :
    let c := runConn (sampleConn 100 (some samplePeer))
      [.received (.working 101) (peerSegment 700 101 (segFlagSyn ||| segFlagAck) []),
        .send (.working 102) [1, 2, 3],
        .received (.working 103) (peerSegment 701 101 (segFlagFin ||| segFlagAck) [])]
    Machine.Along step (fun c e => AnswersFin 701 c (step c e)) c
      [.received (.working 104) (peerSegment 701 104 (segFlagFin ||| segFlagAck) [])] := by
  intro c
  have hst : c.tcp.state = .closeWait := by decide
  have hiff := @answersFin_copies_iff Deadline _ c 701
    [(.working 104, peerSegment 701 104 (segFlagFin ||| segFlagAck) [])] (Or.inl hst)
  refine (hiff ?_).2 (by decide)
  intro p hp
  rw [List.mem_singleton.1 hp]
  exact ⟨fun _ => rfl, by decide, rfl, by decide⟩

/-- The peer's FIN takes a connection to CLOSE_WAIT, and one that was closed to TIME_WAIT; its first
copy is not answered in either. -/
theorem answersFin_fails_sample :
    let fin := fun ack => peerSegment 701 ack (segFlagFin ||| segFlagAck) []
    let opened := runConn (sampleConn 100 (some samplePeer))
      [.received (.working 101) (peerSegment 700 101 (segFlagSyn ||| segFlagAck) [])]
    let waits := runConn opened [.received (.working 102) (fin 101)]
    let closed := runConn opened [.close (.working 102),
      .received (.working 103) (peerSegment 701 102 segFlagAck []),
      .received (.working 104) (fin 102)]
    (waits.tcp.state = .closeWait ∧ waits.tcp.snd.nxt = 101 ∧
        ¬ AnswersFin 701 waits (step waits (.received (.working 105) (fin 101)))) ∧
      closed.tcp.state = .timeWait ∧ closed.tcp.snd.nxt = 102 ∧
        ¬ AnswersFin 701 closed (step closed (.received (.working 105) (fin 102))) := by
  intro fin opened waits closed
  refine ⟨⟨by decide, by decide, ?_⟩, by decide, by decide, ?_⟩
  · intro h
    rcases h.answer with ⟨dg, _, _, hlog⟩
    have hsame : (step waits (.received (.working 105) (fin 101))).log = waits.log := by decide
    simp [hsame] at hlog
  · intro h
    rcases h.answer with ⟨dg, _, _, hlog⟩
    have hsame : (step closed (.received (.working 105) (fin 102))).log = closed.log := by decide
    simp [hsame] at hlog

end Tcp
end DtsNet
