import Mathlib.Data.List.Nodup
import Mathlib.Logic.Function.Basic

/-!
# Chain — singly linked lists in a heap

A heap of nodes with one link each is a function `next : ι → Option ι`.  `Leads next q ps` says that
from `q` the links lead over the nodes `ps`, in this order, to the end.  There is one such list at
most, no node is in it twice, and links of other nodes do not matter for it.
-/

namespace Chain

variable {ι : Type*} {next next' : ι → Option ι} {q : Option ι} {ps : List ι}

def Leads (next : ι → Option ι) : Option ι → List ι → Prop
  | q, [] => q = none
  | q, p :: ps => q = some p ∧ Leads next (next p) ps

theorem Leads.head (h : Leads next q ps) : q = ps.head? := by
  cases ps with
  | nil =>
      exact h
  | cons p ps =>
      exact h.1

theorem Leads.unique {ps' : List ι} (h : Leads next q ps) (h' : Leads next q ps') : ps = ps' := by
  induction ps generalizing q ps' with
  | nil =>
      cases ps' with
      | nil =>
          rfl
      | cons p' ps' =>
          cases h.symm.trans h'.1
  | cons p ps ih =>
      cases ps' with
      | nil =>
          cases h.1.symm.trans h'
      | cons p' ps' =>
          cases h.1.symm.trans h'.1
          rw [ih h.2 h'.2]

/-- Behind its front, the list is the list of what comes next. -/
theorem Leads.of_append {front back : List ι} (h : Leads next q (front ++ back)) :
    Leads next back.head? back := by
  induction front generalizing q with
  | nil =>
      have hhead : q = back.head? := h.head
      rwa [← hhead]
  | cons p front ih =>
      exact ih h.2

theorem Leads.nodup (h : Leads next q ps) : ps.Nodup := by
  induction ps generalizing q with
  | nil =>
      exact List.nodup_nil
  | cons p ps ih =>
      refine List.nodup_cons.2 ⟨fun hmem => ?_, ih h.2⟩
      obtain ⟨front, back, rfl⟩ := List.append_of_mem hmem
      -- from the second place on, the links would lead over the same nodes as from the first
      have hagain : Leads next (some p) (p :: back) := h.2.of_append
      have hfirst : Leads next (some p) (p :: (front ++ p :: back)) := ⟨rfl, h.2⟩
      have hlen := congrArg List.length (hfirst.unique hagain)
      simp only [List.length_cons, List.length_append] at hlen
      omega

theorem Leads.congr (h : Leads next q ps) (hnext : ∀ p ∈ ps, next' p = next p) :
    Leads next' q ps := by
  induction ps generalizing q with
  | nil =>
      exact h
  | cons p ps ih =>
      refine ⟨h.1, ?_⟩
      rw [hnext p List.mem_cons_self]
      exact ih h.2 fun p' hp' => hnext p' (List.mem_cons_of_mem p hp')

/-- A node that is linked in behind another one. -/
theorem Leads.splice [DecidableEq ι] {front back : List ι} {b n : ι}
    (h : Leads next q (front ++ b :: back)) (hn : n ∉ front ++ b :: back) :
    Leads (Function.update (Function.update next n (next b)) b (some n)) q
      (front ++ b :: n :: back) := by
  have hnodup := h.nodup
  induction front generalizing q with
  | nil =>
      simp only [List.nil_append, List.mem_cons, not_or] at hn
      have hb : b ∉ back := (List.nodup_cons.1 hnodup).1
      have hback : Leads (Function.update (Function.update next n (next b)) b (some n)) (next b)
          back := by
        refine h.2.congr fun p hp => ?_
        have hpb : p ≠ b := fun heq => hb (heq ▸ hp)
        have hpn : p ≠ n := fun heq => hn.2 (heq ▸ hp)
        rw [Function.update_of_ne hpb, Function.update_of_ne hpn]
      refine ⟨h.1, ?_⟩
      rw [Function.update_self]
      refine ⟨rfl, ?_⟩
      rwa [Function.update_of_ne hn.1, Function.update_self]
  | cons p front ih =>
      simp only [List.cons_append, List.mem_cons, not_or] at hn
      have hpb : p ≠ b := by
        rintro rfl
        exact (List.nodup_cons.1 hnodup).1 (by simp)
      refine ⟨h.1, ?_⟩
      rw [Function.update_of_ne hpb, Function.update_of_ne (Ne.symm hn.1)]
      exact ih h.2 hn.2 (List.nodup_cons.1 hnodup).2

end Chain
