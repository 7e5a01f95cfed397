import DtsNet.Tcp.Window

/-!
# Comparison — `sncmp` on a circle

`Between` is what the comparison of sequence numbers is for: counted forward from `min`, `x` comes
before `max`.  `sncmp` answers this as long as the way from `min` to `max` does not cross `2^32`.
Where it does, one of its four branches is right and three describe the complement; the sequence
check, which uses one of the three, then accepts other segments than elsewhere.
-/

namespace DtsNet
namespace Tcp

open Ip Dblk Circular

/-! ## The comparison -/

def SnOp.Holds : SnOp → ℕ → ℕ → Prop
  | .ls, a, b => a < b
  | .le, a, b => a ≤ b

instance SnOp.decidableHolds : ∀ (op : SnOp) (a b : ℕ), Decidable (op.Holds a b)
  | .ls, a, b => inferInstanceAs (Decidable (a < b))
  | .le, a, b => inferInstanceAs (Decidable (a ≤ b))

/-- `x` lies in the interval that starts at `min` and runs forward modulo `2^32` to `max`. -/
def Between (min : UInt32) (op1 : SnOp) (x : UInt32) (op2 : SnOp) (max : UInt32) : Prop :=
  op1.Holds 0 (x - min).toNat ∧ op2.Holds (x - min).toNat (max - min).toNat

instance (min : UInt32) (op1 : SnOp) (x : UInt32) (op2 : SnOp) (max : UInt32) :
    Decidable (Between min op1 x op2 max) :=
  inferInstanceAs (Decidable (_ ∧ _))

section Sncmp

variable {min max : UInt32} (op1 op2 : SnOp) (x : UInt32)

theorem sncmp_self_iff_between : sncmp min op1 x op2 min = true ↔ Between min op1 x op2 min := by
  have hx : x = min ↔ (x - min).toNat = 0 := by
    have := x.toNat_lt
    have := min.toNat_lt
    rw [← UInt32.toNat_inj, toNat_sub_eq]
    split <;> omega
  cases op1 with
  | ls =>
      have hempty : ¬ Between min .ls x op2 min := by
        cases op2 <;> simp [Between, SnOp.Holds]
        omega
      simpa using hempty
  | le =>
      cases op2 <;> simp [sncmp, Between, SnOp.Holds, hx]

theorem sncmp_iff_between_of_lt (h : min < max) :
    sncmp min op1 x op2 max = true ↔ Between min op1 x op2 max := by
  have hx := x.toNat_lt
  have hmax' := max.toNat_lt
  have hne : min ≠ max := UInt32.ne_of_lt h
  have hlt := UInt32.lt_iff_toNat_lt.1 h
  -- without a crossing the offsets from `min` are ordered as the numbers are
  have hmax : (max - min).toNat = max.toNat - min.toNat := by
    rw [toNat_sub_eq, if_pos (Nat.le_of_lt hlt)]
  cases op1 <;> cases op2 <;>
    simp only [sncmp, hne, h, if_false, if_true, Between, SnOp.Holds, hmax, toNat_sub_eq,
      Bool.and_eq_true, decide_eq_true_eq, UInt32.lt_iff_toNat_lt, UInt32.le_iff_toNat_le] <;>
    split <;> omega

theorem sncmp_iff_of_gt (h : max < min) :
    sncmp min op1 x op2 max = true ↔
      if op1 = .ls ∧ op2 = .ls then Between min op1 x op2 max else ¬ Between min op1 x op2 max := by
  have hx := x.toNat_lt
  have hne : min ≠ max := (UInt32.ne_of_lt h).symm
  have hlt := UInt32.lt_iff_toNat_lt.1 h
  have hnlt : ¬ min < max := by
    rw [UInt32.lt_iff_toNat_lt]
    omega
  have hmin := min.toNat_lt
  -- the offset of `max` counts the way over `2^32`
  have hmax : (max - min).toNat = 2 ^ 32 + max.toNat - min.toNat := by
    rw [toNat_sub_eq, if_neg (Nat.not_le_of_lt hlt)]
  cases op1 <;> cases op2 <;>
    simp only [sncmp, hne, hnlt, if_false, if_true, Between, SnOp.Holds, hmax, toNat_sub_eq,
      Bool.and_eq_true, Bool.not_eq_true', decide_eq_true_eq, Bool.and_eq_false_iff,
      decide_eq_false_iff_not, UInt32.lt_iff_toNat_lt, UInt32.le_iff_toNat_le, reduceCtorEq,
      and_true, and_false] <;>
    split <;> omega

/-- One branch of `sncmp` is right on both sides of `2^32`, the others before it only. -/
theorem sncmp_correct_iff :
    (sncmp min op1 x op2 max = true ↔ Between min op1 x op2 max) ↔
      min ≤ max ∨ op1 = .ls ∧ op2 = .ls := by
  by_cases heq : min = max
  · subst heq
    simp [sncmp_self_iff_between]
  by_cases hle : min ≤ max
  · simp [sncmp_iff_between_of_lt op1 op2 x (UInt32.lt_of_le_of_ne hle heq), hle]
  · rw [sncmp_iff_of_gt op1 op2 x (UInt32.not_le.1 hle)]
    by_cases hop : op1 = .ls ∧ op2 = .ls
    · simp [hop]
    · simp [hop, hle]

end Sncmp

/-! ## The sequence check -/

/-- A segment of `len` numbers, the first of them `offset` ahead of `RCV.NXT`, has its first or its
last number in a window of `wnd` numbers.  Where the window lies does not matter. -/
def WindowAccepts (wnd len : ℕ) (offset : UInt32) : Prop :=
  offset.toNat < wnd ∨ len ≠ 0 ∧ (offset + UInt32.ofNat len - 1).toNat < wnd

/-- One end of the segment is in the window and the other is not. -/
def OneEndInWindow (wnd len : ℕ) (offset : UInt32) : Prop :=
  len ≠ 0 ∧ ¬ (offset.toNat < wnd ↔ (offset + UInt32.ofNat len - 1).toNat < wnd)

instance (wnd len : ℕ) (offset : UInt32) : Decidable (WindowAccepts wnd len offset) :=
  inferInstanceAs (Decidable (_ ∨ _))

instance (wnd len : ℕ) (offset : UInt32) : Decidable (OneEndInWindow wnd len offset) :=
  inferInstanceAs (Decidable (_ ∧ _))

section Check

variable {τ : Type} (t : Tcb τ)

/-- How `sncmp` compares with the two ends of a window that is not closed. -/
theorem sncmp_window {t : Tcb τ} (hwnd : t.rcv.wnd ≠ 0) (x : UInt32) :
    sncmp t.rcv.nxt .le x .ls (t.rcv.nxt + t.rcv.wnd.toUInt32) = true ↔
      (¬ WindowWraps t ↔ InRun t.rcv.nxt t.rcv.wnd.toNat x) := by
  have hpos : 0 < t.rcv.wnd.toNat := by
    refine Nat.pos_of_ne_zero fun h => hwnd ?_
    exact UInt16.toNat_inj.1 h
  have hlt := t.rcv.wnd.toNat_lt
  have hend : t.rcv.wnd.toUInt32 = UInt32.ofNat t.rcv.wnd.toNat := by
    simp
  rw [hend]
  by_cases hwrap : WindowWraps t
  · rw [sncmp_window_of_le hpos (by omega) hwrap]
    simp [hwrap]
  · rw [sncmp_window_of_lt hpos (Nat.not_le.1 hwrap)]
    simp [hwrap]

theorem seqAccepted_relative_iff (seg : Segment) :
    (seqAccepted t seg = true ↔
        WindowAccepts t.rcv.wnd.toNat (tcpSegmentLength seg) (seg.seq - t.rcv.nxt)) ↔
      ¬ WindowWraps t ∨
        OneEndInWindow t.rcv.wnd.toNat (tcpSegmentLength seg) (seg.seq - t.rcv.nxt) := by
  have hlast : seg.seq - t.rcv.nxt + UInt32.ofNat (tcpSegmentLength seg) - 1 =
      seg.seq + UInt32.ofNat (tcpSegmentLength seg) - 1 - t.rcv.nxt := by
    grind
  by_cases hwnd : t.rcv.wnd = 0
  · -- a closed window takes nothing and does not wrap around
    have hwrap : ¬ WindowWraps t := by
      have := t.rcv.nxt.toNat_lt
      simp [WindowWraps, hwnd]
      omega
    simp [seqAccepted, WindowAccepts, hwnd, hwrap]
  · have hacc : seqAccepted t seg = true ↔
        (¬ WindowWraps t ↔ InRun t.rcv.nxt t.rcv.wnd.toNat seg.seq) ∨
          tcpSegmentLength seg ≠ 0 ∧ (¬ WindowWraps t ↔ InRun t.rcv.nxt t.rcv.wnd.toNat
            (seg.seq + UInt32.ofNat (tcpSegmentLength seg) - 1)) := by
      simp only [← sncmp_window hwnd]
      simp [seqAccepted, hwnd]
    rw [hacc, WindowAccepts, OneEndInWindow, hlast]
    simp only [InRun]
    by_cases hwrap : WindowWraps t
    · -- both tests are turned around, which goes unnoticed where one of them holds
      by_cases hlen : tcpSegmentLength seg = 0
      · simp only [hwrap, hlen, not_true_eq_false, false_iff, ne_eq, false_and, or_false]
        exact iff_false_intro not_iff_self
      · simp only [hwrap, hlen, not_true_eq_false, false_iff, ne_eq, not_false_eq_true, true_and,
          false_or]
        omega
    · simp [hwrap]

/-- The comparison on a circle, and the sequence check that is independent of where the window
lies: for every input, when the code makes them. -/
theorem circular_comparison_iff :
    (∀ (min : UInt32) (op1 : SnOp) (x : UInt32) (op2 : SnOp) (max : UInt32),
      (sncmp min op1 x op2 max = true ↔ Between min op1 x op2 max) ↔
        min ≤ max ∨ op1 = .ls ∧ op2 = .ls) ∧
    ∀ (env : Env) (c : Conn τ) (seg : Received),
      ((processReceivedSeq env c seg).2 = true ↔ WindowAccepts c.tcp.rcv.wnd.toNat
          (tcpSegmentLength seg.toSegment) (seg.seq - c.tcp.rcv.nxt)) ↔
        ¬ WindowWraps c.tcp ∨ OneEndInWindow c.tcp.rcv.wnd.toNat
          (tcpSegmentLength seg.toSegment) (seg.seq - c.tcp.rcv.nxt) := by
  refine ⟨fun min op1 x op2 max => sncmp_correct_iff op1 op2 x, ?_⟩
  intro env c seg
  rw [processReceivedSeq_ok]
  exact seqAccepted_relative_iff c.tcp seg.toSegment

/-- The first number of a window of five that starts at the last number of all, and the same
segment at the same place of two windows. -/
theorem circular_comparison_fails_sample :
    Between 4294967295 .le 4294967295 .ls 4 ∧
    sncmp 4294967295 .le 4294967295 .ls 4 = false ∧
    (let seg : ℕ → Received := fun nxt => peerSegment (UInt32.ofNat nxt) 0 segFlagAck []
     let c : ℕ → Conn Deadline := fun nxt =>
       { sampleConn 0 none with tcp.rcv.nxt := UInt32.ofNat nxt }
     (processReceivedSeq (.working 0) (c 1000) (seg 1000)).2 = true ∧
       (processReceivedSeq (.working 0) (c 4294967000) (seg 4294967000)).2 = false) := by
  decide

end Check

end Tcp
end DtsNet
