import Mathlib.Data.Nat.ModEq
import Mathlib.Tactic.Ring

/-!
# OnesComplement — sums with end-around carry

In one's complement arithmetic on words of `k` bits, with `m = 2 ^ k - 1`, a sum is reduced by
adding its carries to its low word until none are left.  Whatever the order of the carries, the
result is the representative of the sum modulo `m` that lies in `1..m`, or zero if the sum is.
-/

namespace OnesComplement

/-- The reduced sum. -/
def norm (m n : ℕ) : ℕ :=
  if n = 0 then 0 else (n - 1) % m + 1

variable {m : ℕ}

@[simp] theorem norm_zero : norm m 0 = 0 := rfl

theorem norm_of_pos {n : ℕ} (hn : 0 < n) : norm m n = (n - 1) % m + 1 := by
  simp [norm, Nat.ne_of_gt hn]

theorem norm_le (hm : 0 < m) (n : ℕ) : norm m n ≤ m := by
  by_cases hn : n = 0
  · simp [hn]
  · rw [norm_of_pos (Nat.pos_of_ne_zero hn)]
    exact Nat.mod_lt _ hm

theorem norm_of_le {n : ℕ} (h : n ≤ m) : norm m n = n := by
  by_cases hn : n = 0
  · simp [hn]
  · rw [norm_of_pos (Nat.pos_of_ne_zero hn), Nat.mod_eq_of_lt (by omega)]
    omega

theorem norm_modEq (n : ℕ) : norm m n ≡ n [MOD m] := by
  by_cases hn : n = 0
  · simp [hn, Nat.ModEq.refl]
  · rw [norm_of_pos (Nat.pos_of_ne_zero hn)]
    have h : (n - 1) % m + 1 ≡ n - 1 + 1 [MOD m] := (Nat.mod_modEq (n - 1) m).add_right 1
    rwa [Nat.sub_add_cancel (Nat.pos_of_ne_zero hn)] at h

/-- Sums that are congruent, and zero together, have the same reduced sum. -/
theorem norm_congr {a b : ℕ} (h : a ≡ b [MOD m]) (h0 : a = 0 ↔ b = 0) : norm m a = norm m b := by
  by_cases ha : a = 0
  · rw [ha, h0.1 ha]
  · have hb : b ≠ 0 := fun hb => ha (h0.2 hb)
    rw [norm_of_pos (Nat.pos_of_ne_zero ha), norm_of_pos (Nat.pos_of_ne_zero hb)]
    have h1 : a - 1 ≡ b - 1 [MOD m] := by
      refine Nat.ModEq.add_right_cancel' 1 ?_
      rwa [Nat.sub_add_cancel (Nat.pos_of_ne_zero ha), Nat.sub_add_cancel (Nat.pos_of_ne_zero hb)]
    rw [h1]

/-- Of sums that are not zero, the reduced sums are equal exactly if the sums are congruent. -/
theorem norm_eq_norm_iff {a b : ℕ} (ha : 0 < a) (hb : 0 < b) :
    norm m a = norm m b ↔ a ≡ b [MOD m] := by
  constructor
  · intro h
    have hmod : norm m a ≡ b [MOD m] := by
      rw [h]
      exact norm_modEq b
    exact (norm_modEq a).symm.trans hmod
  · intro h
    exact norm_congr h (by omega)

/-- All ones stand for the sums that are congruent to zero, but are not zero. -/
theorem norm_eq_top_iff (hm : 0 < m) {n : ℕ} (hn : 0 < n) : norm m n = m ↔ m ∣ n := by
  have htop : norm m m = m := norm_of_le (Nat.le_refl m)
  calc
    norm m n = m ↔ norm m n = norm m m := by rw [htop]
    _ ↔ n ≡ m [MOD m] := norm_eq_norm_iff hn hm
    _ ↔ m ∣ n := by simp [Nat.ModEq, Nat.dvd_iff_mod_eq_zero]

/-- Adding the carries to the low word does not change the reduced sum. -/
theorem norm_carry (n : ℕ) : norm m (n % (m + 1) + n / (m + 1)) = norm m n := by
  have hsplit : (m + 1) * (n / (m + 1)) + n % (m + 1) = n := Nat.div_add_mod n (m + 1)
  refine norm_congr ?_ ?_
  · have h : n % (m + 1) + n / (m + 1) + m * (n / (m + 1)) = n := by
      calc
        n % (m + 1) + n / (m + 1) + m * (n / (m + 1))
            = (m + 1) * (n / (m + 1)) + n % (m + 1) := by ring
        _ = n := hsplit
    have hmul : n % (m + 1) + n / (m + 1) ≡
        n % (m + 1) + n / (m + 1) + m * (n / (m + 1)) [MOD m] := by
      simp [Nat.ModEq]
    rwa [h] at hmul
  · constructor
    · intro h
      obtain ⟨hmod, hdiv⟩ := Nat.add_eq_zero_iff.1 h
      rw [hmod, hdiv] at hsplit
      simpa using hsplit.symm
    · rintro rfl
      simp

/-- A sum to which the complement of its reduced sum is added is reduced to all ones. -/
theorem norm_add_complement (hm : 0 < m) (n : ℕ) : norm m (n + (m - norm m n)) = m := by
  have hle := norm_le hm n
  have hmod : n + (m - norm m n) ≡ m [MOD m] := by
    have h : norm m n + (m - norm m n) ≡ n + (m - norm m n) [MOD m] :=
      (norm_modEq n).add_right _
    rw [Nat.add_sub_cancel' hle] at h
    exact h.symm
  have hpos : n + (m - norm m n) ≠ 0 := by
    intro h
    have hn : n = 0 := by omega
    rw [hn, norm_zero] at h
    omega
  calc
    norm m (n + (m - norm m n)) = norm m m := norm_congr hmod (by omega)
    _ = m := norm_of_le (Nat.le_refl m)

/-! ## Words added one by one -/

/-- A word is added, and a carry is put back at the low end. -/
def addWord (m a b : ℕ) : ℕ :=
  if m < a + b then a + b - m else a + b

theorem addWord_eq_norm {a b : ℕ} (ha : a ≤ m) (hb : b ≤ m) : addWord m a b = norm m (a + b) := by
  unfold addWord
  split
  · next hcarry =>
      -- there is one carry at most, which makes up for leaving out `m + 1`
      have hsub : a + b - 1 = a + b - m - 1 + m := by omega
      rw [norm_of_pos (by omega), hsub, Nat.add_mod_right, Nat.mod_eq_of_lt (by omega)]
      omega
  · next hle =>
      exact (norm_of_le (not_lt.1 hle)).symm

theorem norm_norm_add (a b : ℕ) : norm m (norm m a + b) = norm m (a + b) := by
  refine norm_congr ((norm_modEq a).add_right b) ?_
  have hzero : norm m a = 0 ↔ a = 0 := by
    constructor
    · intro h
      by_contra ha
      rw [norm_of_pos (Nat.pos_of_ne_zero ha)] at h
      cases h
    · rintro rfl
      rfl
  rw [Nat.add_eq_zero_iff, Nat.add_eq_zero_iff, hzero]

/-- However often a carry is put back on the way, the result is the reduced sum. -/
theorem foldl_addWord (hm : 0 < m) {words : List ℕ} (hwords : ∀ w ∈ words, w ≤ m) (start : ℕ) :
    words.foldl (addWord m) (norm m start) = norm m (start + words.sum) := by
  induction words generalizing start with
  | nil =>
      rfl
  | cons w words ih =>
      have hw : w ≤ m := hwords w (by simp)
      rw [List.foldl_cons, addWord_eq_norm (norm_le hm start) hw, norm_norm_add,
        ih fun v hv => hwords v (by simp [hv])]
      rw [List.sum_cons, Nat.add_assoc]

/-- Adding less than all ones to a sum shows in the reduced sum. -/
theorem norm_add_eq_iff {b : ℕ} (hb : b < m) (n : ℕ) : norm m (n + b) = norm m n ↔ b = 0 := by
  constructor
  · intro h
    rcases Nat.eq_zero_or_pos n with rfl | hn
    · rwa [Nat.zero_add, norm_zero, norm_of_le (Nat.le_of_lt hb)] at h
    · -- both sums are not zero, so that only the residue counts
      have hmod : n + b ≡ n + 0 [MOD m] := (norm_eq_norm_iff (Nat.add_pos_left hn b) hn).1 h
      have hzero : b ≡ 0 [MOD m] := Nat.ModEq.add_left_cancel' n hmod
      simpa [Nat.ModEq, Nat.mod_eq_of_lt hb] using hzero
  · rintro rfl
    rfl

end OnesComplement
