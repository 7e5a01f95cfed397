import Mathlib.Data.List.Basic
import Mathlib.Data.List.Nodup

/-!
# Keyed — lists of entries with distinct keys

`List.lookup` on a list of pairs whose keys are all different, and the change of one entry.
-/

namespace Keyed

variable {κ α : Type*} [DecidableEq κ]

theorem lookup_cons_of_ne {k k' : κ} (hk : k' ≠ k) (a : α) (l : List (κ × α)) :
    ((k, a) :: l).lookup k' = l.lookup k' := by
  simp [List.lookup_cons, beq_false_of_ne hk]

/-- Distinct keys make an entry the one that is looked up. -/
theorem lookup_eq_some_iff_mem {l : List (κ × α)} (hl : (l.map Prod.fst).Nodup) {k : κ} {a : α} :
    l.lookup k = some a ↔ (k, a) ∈ l := by
  induction l with
  | nil =>
      simp
  | cons e l ih =>
      rcases e with ⟨k', a'⟩
      rw [List.map_cons, List.nodup_cons] at hl
      by_cases hk : k = k'
      · subst hk
        have hnot : (k, a) ∉ l := fun hmem => hl.1 (List.mem_map.2 ⟨(k, a), hmem, rfl⟩)
        simp [hnot, eq_comm]
      · simp [lookup_cons_of_ne hk, hk, ih hl.2]

theorem lookup_append_of_ne (l : List (κ × α)) {k k' : κ} (hk : k' ≠ k) (a : α) :
    (l ++ [(k, a)]).lookup k' = l.lookup k' := by
  rw [List.lookup_append, lookup_cons_of_ne hk, List.lookup_nil, Option.or_none]

theorem lookup_eq_none_of_not_mem {l : List (κ × α)} {k : κ} (h : k ∉ l.map Prod.fst) :
    l.lookup k = none := by
  rw [List.lookup_eq_none_iff]
  intro e he
  have hne : k ≠ e.1 := fun heq => h (heq ▸ List.mem_map_of_mem he)
  simpa using hne

/-- With distinct keys the place of a key is where its entry stands. -/
theorem findIdx?_eq_some {l : List (κ × α)} (hl : (l.map Prod.fst).Nodup) {i : ℕ} {e : κ × α}
    (hi : l[i]? = some e) : l.findIdx? (fun d => d.1 == e.1) = some i := by
  induction l generalizing i with
  | nil =>
      simp at hi
  | cons d l ih =>
      rw [List.map_cons, List.nodup_cons] at hl
      cases i with
      | zero =>
          have hd : d = e := by simpa using hi
          simp [List.findIdx?_cons, hd]
      | succ i =>
          have hmem : e ∈ l := List.mem_of_getElem? (by simpa using hi)
          have hne : d.1 ≠ e.1 := fun heq => hl.1 (heq ▸ List.mem_map_of_mem hmem)
          rw [List.findIdx?_cons, beq_false_of_ne hne, ih hl.2 (by simpa using hi)]
          rfl

/-! ## Changing an entry -/

/-- Changes what is stored under a key. -/
def adjust (l : List (κ × α)) (k : κ) (f : α → α) : List (κ × α) :=
  l.map fun e => if e.1 = k then (e.1, f e.2) else e

theorem adjust_cons_self (k : κ) (a : α) (l : List (κ × α)) (f : α → α) :
    adjust ((k, a) :: l) k f = (k, f a) :: adjust l k f := by
  simp [adjust]

theorem adjust_cons_of_ne {k k' : κ} (hk : k' ≠ k) (a : α) (l : List (κ × α)) (f : α → α) :
    adjust ((k', a) :: l) k f = (k', a) :: adjust l k f := by
  simp [adjust, hk]

theorem adjust_of_not_mem {l : List (κ × α)} {k : κ} (h : k ∉ l.map Prod.fst) (f : α → α) :
    adjust l k f = l := by
  induction l with
  | nil =>
      rfl
  | cons e l ih =>
      rcases e with ⟨k', a⟩
      simp only [List.map_cons, List.mem_cons, not_or] at h
      rw [adjust_cons_of_ne (Ne.symm h.1), ih h.2]

@[simp] theorem map_fst_adjust (l : List (κ × α)) (k : κ) (f : α → α) :
    (adjust l k f).map Prod.fst = l.map Prod.fst := by
  induction l with
  | nil =>
      rfl
  | cons e l ih =>
      rcases e with ⟨k', a⟩
      by_cases hk : k' = k
      · subst hk
        simp [adjust_cons_self, ih]
      · simp [adjust_cons_of_ne hk, ih]

theorem lookup_adjust_self (l : List (κ × α)) (k : κ) (f : α → α) :
    (adjust l k f).lookup k = (l.lookup k).map f := by
  induction l with
  | nil =>
      rfl
  | cons e l ih =>
      rcases e with ⟨k', a⟩
      by_cases hk : k' = k
      · subst hk
        simp [adjust_cons_self]
      · rw [adjust_cons_of_ne hk, lookup_cons_of_ne (Ne.symm hk), lookup_cons_of_ne (Ne.symm hk), ih]

theorem lookup_adjust_of_ne (l : List (κ × α)) {k k' : κ} (hk : k' ≠ k) (f : α → α) :
    (adjust l k f).lookup k' = l.lookup k' := by
  induction l with
  | nil =>
      rfl
  | cons e l ih =>
      rcases e with ⟨k₀, a⟩
      by_cases h₀ : k₀ = k
      · subst h₀
        rw [adjust_cons_self, lookup_cons_of_ne hk, lookup_cons_of_ne hk, ih]
      · rw [adjust_cons_of_ne h₀, List.lookup_cons, List.lookup_cons, ih]

theorem mem_adjust {l : List (κ × α)} {k : κ} {f : α → α} {e : κ × α} (h : e ∈ adjust l k f) :
    e ∈ l ∨ ∃ a, (k, a) ∈ l ∧ e = (k, f a) := by
  rcases List.mem_map.1 h with ⟨⟨k', a⟩, hd, rfl⟩
  by_cases hk : k' = k
  · right
    subst hk
    exact ⟨a, hd, by simp⟩
  · left
    simpa [hk] using hd

/-- A change at a place is a change at the key that stands there. -/
theorem modify_eq_adjust {l : List (κ × α)} (hl : (l.map Prod.fst).Nodup) {i : ℕ} {e : κ × α}
    (hi : l[i]? = some e) (f : α → α) :
    l.modify i (fun e => (e.1, f e.2)) = adjust l e.1 f := by
  induction l generalizing i with
  | nil =>
      simp at hi
  | cons d l ih =>
      rw [List.map_cons, List.nodup_cons] at hl
      cases i with
      | zero =>
          have hd : d = e := by simpa using hi
          subst hd
          rw [List.modify_zero_cons, adjust_cons_self, adjust_of_not_mem hl.1]
      | succ i =>
          have hmem : e ∈ l := List.mem_of_getElem? (by simpa using hi)
          have hne : d.1 ≠ e.1 := fun heq => hl.1 (heq ▸ List.mem_map_of_mem hmem)
          rw [List.modify_succ_cons, ih hl.2 (by simpa using hi), adjust_cons_of_ne hne]

end Keyed
