import DtsNet.Library.Machine
import Mathlib.Algebra.BigOperators.Group.List.Basic
import Mathlib.Algebra.Order.BigOperators.Group.List
import Mathlib.Data.List.Perm.Basic
import Mathlib.Tactic.GCongr
import Mathlib.Tactic.Ring

/-!
# Decay — reactions that set off smaller ones only

Items wait in a list, each with a rank.  A reaction takes one item out and puts at most `b` items of
smaller rank behind the others.  An item of rank `r` weighs `(b + 1) ^ r`, which is more than all the
items together that it can leave behind, so that the weight of the list is a potential that pays for
the reactions.

No order of the reactions is assumed.
-/

namespace Decay

variable {α : Type*} (b : ℕ) (rank : α → ℕ)

/-! ## Weights -/

def weight (l : List α) : ℕ :=
  (l.map fun a => (b + 1) ^ rank a).sum

@[simp] theorem weight_nil : weight b rank [] = 0 := rfl

@[simp] theorem weight_cons (a : α) (l : List α) :
    weight b rank (a :: l) = (b + 1) ^ rank a + weight b rank l := rfl

@[simp] theorem weight_append (l m : List α) :
    weight b rank (l ++ m) = weight b rank l + weight b rank m := by
  simp [weight]

/-- Items of smaller rank, `b` of them at most, weigh less than one item. -/
theorem weight_lt {l : List α} {r : ℕ} (hlen : l.length ≤ b) (hrank : ∀ a ∈ l, rank a < r) :
    weight b rank l < (b + 1) ^ r := by
  cases r with
  | zero =>
      -- nothing has a rank below zero
      have hnil : l = [] := List.eq_nil_iff_forall_not_mem.2 fun a ha => Nat.not_lt_zero _ (hrank a ha)
      simp [hnil]
  | succ r =>
      have hle : ∀ x ∈ l.map (fun a => (b + 1) ^ rank a), x ≤ (b + 1) ^ r := by
        intro x hx
        rcases List.mem_map.1 hx with ⟨a, ha, rfl⟩
        exact Nat.pow_le_pow_right (Nat.succ_pos b) (Nat.le_of_lt_succ (hrank a ha))
      calc
        weight b rank l ≤ (l.map fun a => (b + 1) ^ rank a).length • (b + 1) ^ r :=
          List.sum_le_card_nsmul _ _ hle
        _ = l.length * (b + 1) ^ r := by rw [List.length_map, Nat.nsmul_eq_mul]
        _ ≤ b * (b + 1) ^ r := by gcongr
        _ < (b + 1) * (b + 1) ^ r := by
          apply Nat.mul_lt_mul_of_pos_right (Nat.lt_succ_self b)
          exact Nat.pow_pos (Nat.succ_pos b)
        _ = (b + 1) ^ (r + 1) := by ring

/-- One item less. -/
theorem weight_eraseIdx {l : List α} {k : ℕ} (h : k < l.length) :
    (b + 1) ^ rank l[k] + weight b rank (l.eraseIdx k) = weight b rank l := by
  have hperm := (List.getElem_cons_eraseIdx_perm h).map fun a => (b + 1) ^ rank a
  exact hperm.sum_eq

theorem weight_eraseIdx_lt {l : List α} {k : ℕ} (h : k < l.length) :
    weight b rank (l.eraseIdx k) < weight b rank l := by
  rw [← weight_eraseIdx b rank h]
  exact Nat.lt_add_of_pos_left (Nat.pow_pos (Nat.succ_pos b))

/-- A reaction makes the list lighter. -/
theorem weight_react {l new : List α} {k : ℕ} (h : k < l.length) (hlen : new.length ≤ b)
    (hrank : ∀ a ∈ new, rank a < rank l[k]) :
    weight b rank (l.eraseIdx k ++ new) < weight b rank l := by
  rw [← weight_eraseIdx b rank h, weight_append, Nat.add_comm]
  exact Nat.add_lt_add_right (weight_lt b rank hlen hrank) _

end Decay

namespace Machine

variable {σ ε : Type*} (step : σ → ε → σ)

/-- What the events of a run spend is paid for by the potential of the first state and by what the
events bring in, if that holds of each allowed event. -/
theorem spent_le_of_potential {C : σ → ε → Prop} {I : σ → Prop} {potential : σ → ℕ}
    {spent gained : ε → ℕ}
    (hstep : ∀ s e, I s → C s e →
      I (step s e) ∧ potential (step s e) + spent e ≤ potential s + gained e)
    {s : σ} {es : List ε} (hs : I s) (h : Along step C s es) :
    (es.map spent).sum + potential (run step s es) ≤ potential s + (es.map gained).sum := by
  induction es generalizing s with
  | nil =>
      exact Nat.le_of_eq (Nat.zero_add _)
  | cons e es ih =>
      rcases hstep s e hs h.1 with ⟨hI, hle⟩
      have hrest := ih hI h.2
      rw [List.map_cons, List.sum_cons, List.map_cons, List.sum_cons, run_cons]
      omega

end Machine
