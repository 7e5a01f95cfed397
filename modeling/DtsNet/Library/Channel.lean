import Mathlib.Data.List.Basic
import Mathlib.Data.List.Infix
import Mathlib.Logic.Relation

/-!
# Channel — slices of a growing list, and the channel that delivers them in order

`SliceAt s o b` says that `b` stands in `s` from position `o` on.  A `Channel` is a pair of
lists, what was sent and what was received; it may be given more to send, and may receive a
slice that starts exactly where the received part ends.  What it received is then always a
prefix of what was sent.
-/

namespace Slices

variable {α : Type*}

/-! ## Slices -/

def SliceAt (s : List α) (o : ℕ) (b : List α) : Prop :=
  o ≤ s.length ∧ b <+: s.drop o

instance [DecidableEq α] (s : List α) (o : ℕ) (b : List α) : Decidable (SliceAt s o b) :=
  inferInstanceAs (Decidable (_ ∧ _))

theorem sliceAt_nil {s : List α} {o : ℕ} (h : o ≤ s.length) : SliceAt s o [] :=
  ⟨h, List.nil_prefix⟩

theorem sliceAt_mid (p b q : List α) : SliceAt (p ++ b ++ q) p.length b := by
  constructor
  · simp
  · simp [List.append_assoc]

theorem SliceAt.append {s b : List α} {o : ℕ} (h : SliceAt s o b) (t : List α) :
    SliceAt (s ++ t) o b := by
  constructor
  · have := h.1
    simp
    omega
  · rw [List.drop_append_of_le_length h.1]
    exact h.2.trans (List.prefix_append _ _)

theorem SliceAt.mono {s t b : List α} {o : ℕ} (h : SliceAt s o b) (hst : s <+: t) :
    SliceAt t o b := by
  rcases hst with ⟨u, rfl⟩
  exact h.append u

theorem SliceAt.take {s b : List α} {o : ℕ} (h : SliceAt s o b) (n : ℕ) :
    SliceAt s o (b.take n) :=
  ⟨h.1, (List.take_prefix n b).trans h.2⟩

/-- A slice that starts where a prefix ends extends the prefix. -/
theorem SliceAt.prefix_append {s r b : List α} (hr : r <+: s) (h : SliceAt s r.length b) :
    r ++ b <+: s := by
  rcases hr with ⟨t, rfl⟩
  have hb : b <+: t := by
    simpa [List.drop_append_of_le_length le_rfl] using h.2
  rcases hb with ⟨u, rfl⟩
  exact ⟨u, by simp⟩

/-- A list that agrees with `s` as far as `s` goes contains the start of `s` up to its own
length. -/
theorem take_prefix_of_agree {s q : List α} (h : q.take s.length <+: s) {k : ℕ}
    (hk : k ≤ q.length) : s.take k <+: q := by
  have hlen : (s.take k).length ≤ s.length := (List.take_prefix k s).length_le
  have hlen' : (s.take k).length ≤ q.length := by
    have := List.length_take_le k s
    omega
  have htake : q.take (s.take k).length <+: s := by
    have hsub : (q.take s.length).take (s.take k).length <+: s :=
      (List.take_prefix _ _).trans h
    rwa [List.take_take, Nat.min_eq_left hlen] at hsub
  have heq : q.take (s.take k).length = s.take k := by
    refine List.IsPrefix.eq_of_length ?_ (List.length_take_of_le hlen')
    refine List.prefix_of_prefix_length_le htake (List.take_prefix _ _) ?_
    exact Nat.le_of_eq (List.length_take_of_le hlen')
  rw [← heq]
  exact List.take_prefix _ _

/-! ## The channel -/

structure Channel (α : Type*) where
  sent : List α
  rcvd : List α

namespace Channel

inductive Step : Channel α → Channel α → Prop where
  | accept (c : Channel α) (b : List α) : Step c { c with sent := c.sent ++ b }
  | deliver (c : Channel α) (b : List α) :
      SliceAt c.sent c.rcvd.length b → Step c { c with rcvd := c.rcvd ++ b }

abbrev Steps : Channel α → Channel α → Prop :=
  Relation.ReflTransGen Step

def Safe (c : Channel α) : Prop :=
  c.rcvd <+: c.sent

theorem Step.safe {c d : Channel α} (h : Step c d) (hc : Safe c) : Safe d := by
  cases h with
  | accept b =>
      exact hc.trans (List.prefix_append _ _)
  | deliver b hb =>
      exact hb.prefix_append hc

/-- What a channel has received is always a prefix of what it was given to send. -/
theorem Steps.safe {c d : Channel α} (h : Steps c d) (hc : Safe c) : Safe d := by
  induction h with
  | refl =>
      exact hc
  | tail _ hstep ih =>
      exact hstep.safe ih

end Channel

end Slices
