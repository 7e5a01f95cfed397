import DtsNet.Tcp.Queue

/-!
# Window — segments outside the receive window

A segment none of whose numbers lies in the receive window should change nothing and be answered
with a bare acknowledgment at most.  `WindowOk` says, state by state, when the handlers keep to
this: SYN_RECEIVED and ESTABLISHED make the test, but `sncmp` turns it around for a window that
reaches `2^32`; the other handlers do not make it.
-/

namespace DtsNet
namespace Tcp

open Ip Dblk Circular

variable {τ : Type}

/-! ## Inert segments -/

def Synchronized (s : State) : Prop :=
  s = .synReceived ∨ s = .established ∨ s = .finWait1 ∨ s = .finWait2 ∨ s = .timeWait ∨
    s = .closeWait ∨ s = .lastAck

/-- None of the numbers of the segment, or its `seq` if it has none, is in the window. -/
def OutOfWindow (t : Tcb τ) (seg : Segment) : Prop :=
  if tcpSegmentLength seg = 0 then ¬ InRun t.rcv.nxt t.rcv.wnd.toNat seg.seq
  else ∀ i < tcpSegmentLength seg, ¬ InRun t.rcv.nxt t.rcv.wnd.toNat (seg.seq + UInt32.ofNat i)

instance (t : Tcb τ) (seg : Segment) : Decidable (OutOfWindow t seg) := by
  unfold OutOfWindow
  exact inferInstance

/-- The answer to an unacceptable segment. -/
def bareAck (t : Tcb τ) : Segment :=
  newSegment t t.snd.nxt t.rcv.nxt segFlagAck []

structure InertAt (seg : Received) (c c' : Conn τ) : Prop where
  state : c'.tcp.state = c.tcp.state
  snd : c'.tcp.snd = c.tcp.snd
  rcv : c'.tcp.rcv = c.tcp.rcv
  txSeg : c'.tcp.txSeg = c.tcp.txSeg
  txData : c'.tcp.txData = c.tcp.txData
  rxData : c'.tcp.rxData = c.tcp.rxData
  tmr : c'.tcp.tmr = c.tcp.tmr
  log : c'.log = c.log ∨ segCtrlR seg.toSegment = false ∧
    ∃ sent, c'.log = c.log ++ [.output (some (connDatagram c.tcp (bareAck c.tcp))) sent]

theorem InertAt.refl (seg : Received) (c : Conn τ) : InertAt seg c c :=
  ⟨rfl, rfl, rfl, rfl, rfl, rfl, rfl, Or.inl rfl⟩

/-- An output other than the bare acknowledgment is noticed. -/
theorem InertAt.output_eq {seg : Received} {c c' : Conn τ} (h : InertAt seg c c')
    {dg : Datagram} {sent : Bool} (hlog : c'.log = c.log ++ [.output (some dg) sent]) :
    dg.seg = bareAck c.tcp := by
  rcases h.log with h | ⟨_, sent', h⟩
  · rw [hlog] at h
    simp at h
  · rw [hlog] at h
    have hdg : dg = connDatagram c.tcp (bareAck c.tcp) ∧ sent = sent' := by simpa using h
    rw [hdg.1, connDatagram]

/-- Whatever the environment does. -/
def Inert [TimerLib τ] (c : Conn τ) (seg : Received) : Prop :=
  ∀ env, InertAt seg c (tcpReceived env c seg)

/-! ## The condition -/

def WindowWraps (t : Tcb τ) : Prop :=
  2 ^ 32 ≤ t.rcv.nxt.toNat + t.rcv.wnd.toNat

instance (t : Tcb τ) : Decidable (WindowWraps t) :=
  inferInstanceAs (Decidable (_ ≤ _))

/-- What an acknowledgment would change in FIN_WAIT_1 and LAST_ACK: the segment in `tx_seg` is
completed, or, with nothing left, the FIN is built. -/
def ClosingOk (t : Tcb τ) (seg : Received) : Prop :=
  (t.txSeg = none → t.txData ≠ []) ∧
    (segCtrlA seg.toSegment = true → ∀ s, t.txSeg = some s →
      if segCtrlF s.toSegment then s.seq + 1 ≠ seg.ack else ackCompletes t seg.ack = false)

def WindowOk (t : Tcb τ) (seg : Received) : Prop :=
  match t.state with
  | .synReceived =>
      WindowWraps t → segCtrlR seg.toSegment = false ∧ segCtrlA seg.toSegment = false
  | .established =>
      WindowWraps t → segCtrlR seg.toSegment = true ∨ segCtrlA seg.toSegment = false ∨
        segCtrlF seg.toSegment = false ∧
          ∀ s, t.txSeg = some s → segCtrlF s.toSegment = false → ackCompletes t seg.ack = false
  | .finWait1 | .lastAck => ClosingOk t seg
  | .finWait2 => segCtrlAF seg.toSegment = false
  | .timeWait | .closeWait =>
      segCtrlAF seg.toSegment = true → sncmp t.snd.una .ls seg.ack .le t.snd.nxt = false
  | _ => True

/-! ## The sequence check on such a segment -/

theorem OutOfWindow.first {t : Tcb τ} {seg : Segment} (h : OutOfWindow t seg) :
    ¬ InRun t.rcv.nxt t.rcv.wnd.toNat seg.seq := by
  by_cases hlen : tcpSegmentLength seg = 0
  · simpa [OutOfWindow, hlen] using h
  · rw [OutOfWindow, if_neg hlen] at h
    simpa using h 0 (Nat.pos_of_ne_zero hlen)

theorem OutOfWindow.last {t : Tcb τ} {seg : Segment} (h : OutOfWindow t seg)
    (hlen : tcpSegmentLength seg ≠ 0) :
    ¬ InRun t.rcv.nxt t.rcv.wnd.toNat (seg.seq + UInt32.ofNat (tcpSegmentLength seg) - 1) := by
  rw [OutOfWindow, if_neg hlen] at h
  rcases Nat.exists_eq_succ_of_ne_zero hlen with ⟨n, hn⟩
  have hlast : seg.seq + UInt32.ofNat (tcpSegmentLength seg) - 1 = seg.seq + UInt32.ofNat n := by
    have hsucc : UInt32.ofNat (n + 1) = UInt32.ofNat n + 1 := UInt32.ofNat_add n 1
    rw [hn, Nat.succ_eq_add_one, hsucc]
    grind
  rw [hlast]
  exact h n (by omega)

/-- The sequence check lets it through exactly if the window wraps around. -/
theorem seqAccepted_of_outOfWindow {t : Tcb τ} {seg : Segment} (hwnd : t.rcv.wnd = 1500)
    (h : OutOfWindow t seg) : seqAccepted t seg = true ↔ WindowWraps t := by
  have hn : t.rcv.wnd.toNat = 1500 := by rw [hwnd]; rfl
  have hend : t.rcv.nxt + t.rcv.wnd.toUInt32 = t.rcv.nxt + UInt32.ofNat 1500 := by rw [hwnd]; rfl
  have hwnd0 : (t.rcv.wnd != 0) = true := by rw [hwnd]; rfl
  have hfirst := h.first
  rw [hn] at hfirst
  by_cases hwrap : WindowWraps t
  · have hwrap' : 2 ^ 32 ≤ t.rcv.nxt.toNat + 1500 := by simpa [WindowWraps, hn] using hwrap
    have hcmp := (sncmp_window_of_le (by decide) (by decide) hwrap' seg.seq).2 hfirst
    have haccepted : seqAccepted t seg = true := by
      simp only [seqAccepted, hwnd0, hend, hcmp, Bool.true_and, Bool.true_or]
    simp [haccepted, hwrap]
  · have hlt : t.rcv.nxt.toNat + 1500 < 2 ^ 32 := by
      rw [WindowWraps, hn] at hwrap
      omega
    have hcmp : ∀ x, ¬ InRun t.rcv.nxt 1500 x →
        sncmp t.rcv.nxt .le x .ls (t.rcv.nxt + UInt32.ofNat 1500) = false := by
      intro x hx
      rw [Bool.eq_false_iff]
      exact mt (sncmp_window_of_lt (by decide) hlt x).1 hx
    have hrejected : seqAccepted t seg = false := by
      simp only [seqAccepted, hwnd0, hend, hcmp _ hfirst, Bool.true_and, Bool.false_or,
        Bool.and_eq_false_iff, bne_eq_false_iff_eq]
      by_cases hlen : tcpSegmentLength seg = 0
      · exact Or.inl hlen
      · right
        have hlast := h.last hlen
        rw [hn] at hlast
        exact hcmp _ hlast
    simp [hrejected, hwrap]

theorem OutOfWindow.seq_ne {t : Tcb τ} {seg : Segment} (hwnd : t.rcv.wnd = 1500)
    (h : OutOfWindow t seg) : seg.seq ≠ t.rcv.nxt := by
  intro heq
  refine h.first ?_
  rw [heq, hwnd]
  exact inRun_self (by decide)

/-! ## The handlers that make the test -/

section Checked

variable {env : Env} {c : Conn τ} {seg : Received}

/-- A segment that the sequence check rejects is inert. -/
theorem inertAt_processReceivedSeq (h : seqAccepted c.tcp seg.toSegment = false) :
    InertAt seg c (processReceivedSeq env c seg).1 := by
  have htcp := processReceivedSeq_tcp env c seg
  refine ⟨by rw [htcp], by rw [htcp], by rw [htcp], by rw [htcp], by rw [htcp], by rw [htcp],
    by rw [htcp], ?_⟩
  rcases (processReceivedSeq_of_rejected env c h).2 with h | ⟨hR, h⟩
  · rw [h]
    exact Or.inl rfl
  · rw [h]
    exact Or.inr ⟨hR, _, tcpSendCtrlSeg_log env c c.tcp.snd.nxt c.tcp.rcv.nxt segFlagAck⟩

theorem inert_receivedWhenSynReceived (hst : c.tcp.state = .synReceived)
    (hacc : seqAccepted c.tcp seg.toSegment = true ↔ WindowWraps c.tcp) :
    (∀ env, InertAt seg c (receivedWhenSynReceived env c seg)) ↔ WindowOk c.tcp seg := by
  simp only [WindowOk, hst]
  constructor
  · intro h hwrap
    have haccepted := hacc.2 hwrap
    have h := h (.working 0)
    have hR : segCtrlR seg.toSegment = false := by
      rw [Bool.eq_false_iff]
      intro hR
      have hstate := h.state
      rw [receivedWhenSynReceived_of_rst _ c haccepted hR] at hstate
      cases hp : c.tcp.passive <;> simp [hst, hp] at hstate
    refine ⟨hR, ?_⟩
    rw [Bool.eq_false_iff]
    intro hA
    rw [receivedWhenSynReceived_of_ack _ c haccepted hR hA] at h
    cases hF : segCtrlF seg.toSegment with
    | true =>
        have hstate := h.state
        simp [hF, hst] at hstate
    | false =>
        simp only [hF, Bool.false_eq_true, if_false] at h
        cases hack : sncmp c.tcp.snd.una .le seg.ack .le c.tcp.snd.nxt with
        | true =>
            have hstate := h.state
            simp [ackSynReceived_of _ c hack, hst] at hstate
        | false =>
            -- the RST is no bare acknowledgment
            rw [ackSynReceived_of_not _ c hack] at h
            have hdg := h.output_eq (tcpSendCtrlSeg_log _ c seg.ack 0 segFlagRst)
            have hflags := congrArg Segment.flags hdg
            simp [connDatagram, bareAck] at hflags
            exact absurd hflags (by decide)
  · intro hok env
    cases haccepted : seqAccepted c.tcp seg.toSegment with
    | false =>
        rw [receivedWhenSynReceived_of_rejected env c haccepted]
        exact inertAt_processReceivedSeq haccepted
    | true =>
        rcases hok (hacc.1 haccepted) with ⟨hR, hA⟩
        rw [receivedWhenSynReceived_of_no_ack env c haccepted hR hA]
        exact .refl seg c

theorem una_ne_of_ackCompletes {t : Tcb τ} {ack : UInt32} (h : ackCompletes t ack = true) :
    t.snd.nxt ≠ t.snd.una := by
  intro heq
  simp [ackCompletes, heq] at h

variable [TimerLib τ]

theorem inert_receivedWhenEstablished (hst : c.tcp.state = .established)
    (hacc : seqAccepted c.tcp seg.toSegment = true ↔ WindowWraps c.tcp)
    (hseq : seg.seq ≠ c.tcp.rcv.nxt) :
    (∀ env, InertAt seg c (receivedWhenEstablished env c seg)) ↔ WindowOk c.tcp seg := by
  simp only [WindowOk, hst]
  constructor
  · intro h hwrap
    have haccepted := hacc.2 hwrap
    have h := h (.working 0)
    by_cases hRA : segCtrlR seg.toSegment = true ∨ segCtrlA seg.toSegment = false
    · exact hRA.elim Or.inl fun hA => Or.inr (Or.inl hA)
    · have hR : segCtrlR seg.toSegment = false := by simp_all
      have hA : segCtrlA seg.toSegment = true := by simp_all
      rw [receivedWhenEstablished_of_ack _ c haccepted hR hA] at h
      refine Or.inr (Or.inr ?_)
      cases hF : segCtrlF seg.toSegment with
      | true =>
          have hstate := h.state
          simp [hF, hst] at hstate
      | false =>
          refine ⟨rfl, ?_⟩
          intro s hs hsF
          rw [Bool.eq_false_iff]
          intro hcompletes
          have huna := congrArg Snd.una h.snd
          rcases ackEstablished_cases (.working 0) c seg with ⟨_, hnot⟩ | ⟨s', _, _, _, heq⟩
          · simp [hnot s hs hsF] at hcompletes
          · simp [hF, textEstablished, heq, ackedConn] at huna
            exact una_ne_of_ackCompletes hcompletes huna
  · intro hok env
    cases haccepted : seqAccepted c.tcp seg.toSegment with
    | false =>
        rw [receivedWhenEstablished_of_rejected env c haccepted]
        exact inertAt_processReceivedSeq haccepted
    | true =>
        by_cases hRA : segCtrlR seg.toSegment = true ∨ segCtrlA seg.toSegment = false
        · rw [receivedWhenEstablished_of_ignored env c haccepted hRA]
          exact .refl seg c
        · have hR : segCtrlR seg.toSegment = false := by simp_all
          have hA : segCtrlA seg.toSegment = true := by simp_all
          have hok := hok (hacc.1 haccepted)
          simp only [hR, hA, Bool.false_eq_true, Bool.true_eq_false, false_or] at hok
          rcases hok with ⟨hF, hnot⟩
          have hack : ackEstablished env c seg = c := by
            rcases ackEstablished_cases env c seg with ⟨h, _⟩ | ⟨s, hs, hsF, hcompletes, _⟩
            · exact h
            · simp [hnot s hs hsF] at hcompletes
          have htext : textEstablished env c seg = c := by
            rw [textEstablished, hack]
            rcases tcpHandleData_cases env c seg with ⟨h, _⟩ | ⟨h, _⟩
            · exact h
            · exact absurd h hseq
          rw [receivedWhenEstablished_of_ack env c haccepted hR hA, htext, hF]
          exact .refl seg c

/-! ## The handlers that do not -/

/-- FIN_WAIT_1 and LAST_ACK, which differ in the next state only. -/
theorem inert_ackWhenClosing {st next : State} (hst : c.tcp.state = st) (hne : next ≠ st) :
    (∀ env, InertAt seg c
      (let c' := ackWhenClosing env c seg next
       if c'.tcp.state = st then tcpContructFinAck env c' else c')) ↔ ClosingOk c.tcp seg := by
  constructor
  · intro h
    have h := h (.working 0)
    refine ⟨?_, ?_⟩
    · intro hs hd
      have htx := h.txSeg
      simp only [ackWhenClosing_of_none _ c hs, hst, if_true,
        tcpContructFinAck_of_empty _ c (Env.allocOk_working 0) hs hd, hs] at htx
      simp at htx
    · intro hA s hs
      cases hF : segCtrlF s.toSegment with
      | true =>
          simp only [if_true]
          intro hseq
          have hstate := h.state
          simp only [ackWhenClosing_of_fin _ c hs hF, hA, hseq, beq_self_eq_true, Bool.and_self,
            if_true, hne, if_false, hst] at hstate
      | false =>
          simp only [Bool.false_eq_true, if_false]
          rw [Bool.eq_false_iff]
          intro hcompletes
          have huna := congrArg Snd.una h.snd
          simp only [ackWhenClosing_of_data _ c hs hF, hA, hcompletes, Bool.and_self, if_true,
            tcpConstructData_state, ackedConn, hst, tcpContructFinAck_una,
            tcpConstructData_una] at huna
          exact una_ne_of_ackCompletes hcompletes huna
  · rintro ⟨hnone, hsome⟩ env
    have hack : ackWhenClosing env c seg next = c := by
      cases hs : c.tcp.txSeg with
      | none =>
          exact ackWhenClosing_of_none env c hs seg next
      | some s =>
          cases hA : segCtrlA seg.toSegment with
          | false =>
              simp [ackWhenClosing, hA]
          | true =>
              have hnot := hsome hA s hs
              cases hF : segCtrlF s.toSegment with
              | true =>
                  have hseq : s.seq + 1 ≠ seg.ack := by simpa [hF] using hnot
                  simp [ackWhenClosing_of_fin env c hs hF, hseq]
              | false =>
                  have hcompletes : ackCompletes c.tcp seg.ack = false := by simpa [hF] using hnot
                  simp [ackWhenClosing_of_data env c hs hF, hcompletes]
    have hfin : tcpContructFinAck env c = c := by
      cases hs : c.tcp.txSeg with
      | some s =>
          exact tcpContructFinAck_of_pending env c hs
      | none =>
          cases hd : c.tcp.txData with
          | nil =>
              exact absurd hd (hnone hs)
          | cons tx rest =>
              exact tcpContructFinAck_of_data env c hd
    simp only [hack, hfin, hst, if_true]
    exact .refl seg c

omit [TimerLib τ] in
/-- TIME_WAIT and CLOSE_WAIT: an acceptable FIN,ACK changes `snd.una`, or the acknowledgment it is
answered with is not the bare one. -/
theorem inert_tcpHandleFinAck :
    (∀ env, InertAt seg c (if segCtrlAF seg.toSegment then (tcpHandleFinAck env c seg).1 else c)) ↔
      (segCtrlAF seg.toSegment = true →
        sncmp c.tcp.snd.una .ls seg.ack .le c.tcp.snd.nxt = false) := by
  constructor
  · intro h hAF
    have h := h (.working 0)
    simp only [hAF, if_true] at h
    rw [Bool.eq_false_iff]
    intro hwin
    rcases tcpHandleFinAck_of (.working 0) c hwin with ⟨htcp, sent, hlog⟩
    have huna : seg.ack = c.tcp.snd.una := by
      have := congrArg Snd.una h.snd
      simpa [htcp, takeFin] using this
    have hseq : seg.ack = c.tcp.snd.nxt := by
      have := congrArg Segment.seq (h.output_eq hlog)
      simpa [connDatagram, bareAck] using this
    rw [← huna, ← hseq] at hwin
    simp at hwin
  · intro hok env
    cases hAF : segCtrlAF seg.toSegment with
    | false =>
        exact .refl seg c
    | true =>
        simp only [if_true, tcpHandleFinAck_of_not env c (hok hAF)]
        exact .refl seg c

end Checked

/-! ## All synchronized states -/

variable [TimerLib τ]

theorem inert_receivedWhenFinWait2 {c : Conn τ} {seg : Received} (hst : c.tcp.state = .finWait2) :
    (∀ env, InertAt seg c (receivedWhenFinWait2 env c seg)) ↔
      segCtrlAF seg.toSegment = false := by
  constructor
  · intro h
    have hstate := (h (.working 0)).state
    rw [Bool.eq_false_iff]
    intro hAF
    simp [receivedWhenFinWait2, hAF, hst] at hstate
  · intro hAF env
    simpa [receivedWhenFinWait2, hAF] using InertAt.refl seg c

/-- For every reachable connection in a synchronized state and every segment outside its window:
the segment is inert exactly if `WindowOk` holds. -/
theorem inert_iff_windowOk {c : Conn τ} (hc : Reachable c) (hst : Synchronized c.tcp.state)
    {seg : Received} (hout : OutOfWindow c.tcp seg.toSegment) :
    Inert c seg ↔ WindowOk c.tcp seg := by
  have hwnd := wnd_reachable hc
  have hacc := seqAccepted_of_outOfWindow hwnd hout
  rcases hst with hst | hst | hst | hst | hst | hst | hst
  · simpa only [Inert, tcpReceived, hst, receivedEventProcess] using
      inert_receivedWhenSynReceived hst hacc
  · simpa only [Inert, tcpReceived, hst, receivedEventProcess] using
      inert_receivedWhenEstablished hst hacc (hout.seq_ne hwnd)
  · have hne : State.finWait2 ≠ .finWait1 := by decide
    simpa only [Inert, WindowOk, tcpReceived, hst, receivedEventProcess, receivedWhenFinWait1] using
      inert_ackWhenClosing hst hne
  · simpa only [Inert, WindowOk, tcpReceived, hst, receivedEventProcess] using
      inert_receivedWhenFinWait2 hst
  · simpa only [Inert, WindowOk, tcpReceived, hst, receivedEventProcess, receivedWhenTimeWait] using
      inert_tcpHandleFinAck
  · simpa only [Inert, WindowOk, tcpReceived, hst, receivedEventProcess, receivedWhenCloseWait]
      using inert_tcpHandleFinAck
  · have hne : State.closed ≠ .lastAck := by decide
    simpa only [Inert, WindowOk, tcpReceived, hst, receivedEventProcess, receivedWhenLastAck] using
      inert_ackWhenClosing hst hne

/-- Text far behind the window of an established connection. -/
theorem inert_iff_windowOk_sample :
    Inert (runConn (sampleConn 100 (some samplePeer))
        [.received (.working 101) (peerSegment 700 101 (segFlagSyn ||| segFlagAck) [])])
      (peerSegment 9000 101 segFlagAck [1]) := by
  have hreach : Reachable (runConn (sampleConn 100 (some samplePeer))
      [.received (.working 101) (peerSegment 700 101 (segFlagSyn ||| segFlagAck) [])]) :=
    ⟨_, _, opened_sampleConn _ _, rfl⟩
  refine (inert_iff_windowOk hreach (Or.inr (Or.inl (by decide))) (by decide)).2 ?_
  intro hwrap
  exact absurd hwrap (by decide)

/-- In FIN_WAIT_2 a FIN,ACK from far outside the window ends the connection. -/
theorem not_inert_finWait2 :
    ∃ c : Conn Deadline, ∃ seg : Received, Reachable c ∧ Synchronized c.tcp.state ∧
      OutOfWindow c.tcp seg.toSegment ∧ ¬ Inert c seg := by
  refine ⟨runConn (sampleConn 100 (some samplePeer))
    [.received (.working 101) (peerSegment 700 101 (segFlagSyn ||| segFlagAck) []),
      .close (.working 102),
      .received (.working 103) (peerSegment 701 102 segFlagAck [])],
    peerSegment 9000 0 (segFlagFin ||| segFlagAck) [], ⟨_, _, opened_sampleConn _ _, rfl⟩, ?_,
    by decide, ?_⟩
  · exact Or.inr (Or.inr (Or.inr (Or.inl (by decide))))
  · intro h
    have hstate := (h (.working 104)).state
    revert hstate
    decide

end Tcp
end DtsNet
