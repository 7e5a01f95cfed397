import Mathlib.Data.List.Count
import Mathlib.Data.List.TakeDrop

/-!
# Tiling — pieces of a list at their positions

A receiver that places pieces at the positions they name gets a list back when the pieces tile
it: each piece is the part of the list at its position, and every position lies in exactly one
piece.
-/

namespace Tiling

variable {α : Type} [DecidableEq α]

/-- A piece, with the position of its first element. -/
abbrev Piece (α : Type) := ℕ × List α

def Covers (i : ℕ) (p : Piece α) : Prop :=
  p.1 ≤ i ∧ i < p.1 + p.2.length

instance (i : ℕ) (p : Piece α) : Decidable (Covers i p) :=
  inferInstanceAs (Decidable (_ ∧ _))

/-- The piece is the part of the list at its position. -/
def PartOf (l : List α) (p : Piece α) : Prop :=
  p.1 + p.2.length ≤ l.length ∧ (l.drop p.1).take p.2.length = p.2

instance (l : List α) (p : Piece α) : Decidable (PartOf l p) :=
  inferInstanceAs (Decidable (_ ∧ _))

/-- Without a gap and without an overlap. -/
structure Tiles (ps : List (Piece α)) (l : List α) : Prop where
  part : ∀ p ∈ ps, PartOf l p
  once : ∀ i < l.length, ps.countP (fun p => decide (Covers i p)) = 1

omit [DecidableEq α] in
theorem tiles_single (l : List α) : Tiles [(0, l)] l where
  part := by
    intro p hp
    obtain rfl := List.mem_singleton.1 hp
    simp [PartOf]
  once := by
    intro i hi
    simp [Covers, hi]

omit [DecidableEq α] in
/-- Where no piece reaches, there is a gap. -/
theorem not_tiles_of_gap {ps : List (Piece α)} {l : List α} {i : ℕ} (hi : i < l.length)
    (hgap : ∀ p ∈ ps, ¬ Covers i p) : ¬ Tiles ps l := by
  intro h
  have hone := h.once i hi
  have hzero : ps.countP (fun p => decide (Covers i p)) = 0 := by
    rw [List.countP_eq_zero]
    intro p hp
    simpa using hgap p hp
  omega

end Tiling
