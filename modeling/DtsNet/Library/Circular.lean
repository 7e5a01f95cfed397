import Mathlib.Data.UInt

/-!
# Circular — 32-bit numbers that wrap around

`InRun lo n x` says that `x` is one of the `n` numbers that start at `lo` and run forward modulo
`2^32`.  As long as the run does not cross `2^32` it is an interval of plain comparisons; where
it does, the plain comparisons with its two ends describe the complement.
-/

namespace Circular

/-- `x` is one of `lo, lo + 1, ..., lo + n - 1` modulo `2^32`. -/
def InRun (lo : UInt32) (n : ℕ) (x : UInt32) : Prop :=
  (x - lo).toNat < n

instance (lo : UInt32) (n : ℕ) (x : UInt32) : Decidable (InRun lo n x) :=
  inferInstanceAs (Decidable ((x - lo).toNat < n))

theorem inRun_self {lo : UInt32} {n : ℕ} (hn : 0 < n) : InRun lo n lo := by
  simpa [InRun] using hn

theorem toNat_add_ofNat (a : UInt32) (n : ℕ) :
    (a + UInt32.ofNat n).toNat = (a.toNat + n) % 2 ^ 32 := by
  simp [UInt32.toNat_add]

theorem toNat_sub_eq (a b : UInt32) :
    (a - b).toNat = if b.toNat ≤ a.toNat then a.toNat - b.toNat
      else 2 ^ 32 + a.toNat - b.toNat := by
  have ha := a.toNat_lt
  have hb := b.toNat_lt
  rw [UInt32.toNat_sub]
  split <;> omega

theorem inRun_iff_of_lt {lo : UInt32} {n : ℕ} (h : lo.toNat + n < 2 ^ 32) (x : UInt32) :
    InRun lo n x ↔ lo ≤ x ∧ x < lo + UInt32.ofNat n := by
  have hx := x.toNat_lt
  rw [InRun, toNat_sub_eq, UInt32.le_iff_toNat_le, UInt32.lt_iff_toNat_lt, toNat_add_ofNat,
    Nat.mod_eq_of_lt h]
  split <;> omega

theorem not_inRun_iff_of_le {lo : UInt32} {n : ℕ} (h : 2 ^ 32 ≤ lo.toNat + n) (hn : n < 2 ^ 32)
    (x : UInt32) : ¬ InRun lo n x ↔ lo + UInt32.ofNat n ≤ x ∧ x < lo := by
  have hx := x.toNat_lt
  have hlo := lo.toNat_lt
  have hmod : (lo.toNat + n) % 2 ^ 32 = lo.toNat + n - 2 ^ 32 := by omega
  rw [InRun, toNat_sub_eq, UInt32.le_iff_toNat_le, UInt32.lt_iff_toNat_lt, toNat_add_ofNat, hmod]
  split <;> omega

/-- Offsets below `2^32` from a common base are told apart by the numbers they give. -/
theorem ofNat_add_inj {a : UInt32} {m n : ℕ} (hm : m < 2 ^ 32) (hn : n < 2 ^ 32)
    (h : a + UInt32.ofNat m = a + UInt32.ofNat n) : m = n := by
  have h' := congrArg UInt32.toNat (add_left_cancel h)
  simp at h'
  omega

theorem add_ofNat_add (a : UInt32) (m n : ℕ) :
    a + UInt32.ofNat m + UInt32.ofNat n = a + UInt32.ofNat (m + n) := by
  rw [UInt32.ofNat_add, add_assoc]

theorem toNat_succ_of_lt {a : UInt32} (h : a < a + 1) : (a + 1).toNat = a.toNat + 1 := by
  have ha := a.toNat_lt
  rw [UInt32.lt_iff_toNat_lt] at h
  rw [UInt32.toNat_add] at h ⊢
  simp at h ⊢
  omega

theorem lt_succ_of_toNat_lt {a : UInt32} (h : a.toNat + 1 < 2 ^ 32) : a < a + 1 := by
  rw [UInt32.lt_iff_toNat_lt, UInt32.toNat_add]
  simp
  omega

/-- Only the last number is not below its successor. -/
theorem lt_succ_iff {a : UInt32} : a < a + 1 ↔ a ≠ 4294967295 := by
  constructor
  · rintro h rfl
    exact absurd h (by decide)
  · intro h
    have ha := a.toNat_lt
    have hne : a.toNat ≠ 4294967295 := fun heq => h (UInt32.toNat_inj.1 heq)
    exact lt_succ_of_toNat_lt (by omega)

end Circular
