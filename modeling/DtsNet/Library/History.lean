import Mathlib.Data.List.Induction

/-!
# History — properties of a record that grows at its end

`Each P log` says that every entry of `log` stands in the relation `P` to the entries before it.
It is the form of "whenever this was recorded, that had been recorded before".
-/

namespace History

variable {α : Type*} {P Q : List α → α → Prop}

def Each (P : List α → α → Prop) (log : List α) : Prop :=
  ∀ pre a post, log = pre ++ a :: post → P pre a

theorem each_nil : Each P [] := by
  intro pre a post h
  simp at h

theorem each_concat {log : List α} {a : α} :
    Each P (log ++ [a]) ↔ Each P log ∧ P log a := by
  constructor
  · intro h
    constructor
    · intro pre b post hlog
      exact h pre b (post ++ [a]) (by simp [hlog])
    · exact h log a [] rfl
  · rintro ⟨hlog, ha⟩ pre b post h
    rcases List.eq_nil_or_concat post with rfl | ⟨post', b', rfl⟩
    · have heq := List.append_inj' h (by simp)
      have hb : a = b := by simpa using heq.2
      rw [← heq.1, ← hb]
      exact ha
    · have h' : log ++ [a] = (pre ++ b :: post') ++ [b'] := by simpa using h
      have heq := List.append_inj' h' (by simp)
      exact hlog pre b post' heq.1

/-- Entries that `P` allows behind `log` may be added. -/
theorem Each.append {log l : List α} (h : Each P log)
    (hl : ∀ a ∈ l, ∀ pre, log <+: pre → P pre a) : Each P (log ++ l) := by
  induction l using List.reverseRecOn with
  | nil =>
      simpa using h
  | append_singleton l a ih =>
      rw [← List.append_assoc, each_concat]
      exact ⟨ih fun b hb => hl b (by simp [hb]), hl a (by simp) _ (List.prefix_append _ _)⟩

theorem Each.mono {log : List α} (h : Each P log) (hPQ : ∀ pre a, P pre a → Q pre a) :
    Each Q log := by
  intro pre a post hlog
  exact hPQ pre a (h pre a post hlog)

end History
