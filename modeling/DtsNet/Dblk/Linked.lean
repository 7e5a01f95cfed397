import DtsNet.Dblk.Copy

/-!
# Linked — the blocks of a list

A `dblk_t` points to the next node of its list, whichever block that one belongs to; its `more`
flag says whether the block goes on.  Here the nodes stand in a list with all their fields, and
the functions that walk over one block are the loops of the source, which stop at the flag.  Each
of them is then reduced to what it does on the nodes of the first block.
-/

namespace DtsNet
namespace Dblk

/-- A `dblk_t`; `next` is the rest of the list that it stands in. -/
structure DblkT extends VNode where
  dataMalloc : Bool
  nodeMalloc : Bool
  more : Bool
  offset : ℕ
  deriving DecidableEq, Repr

namespace Linked

/-! ## Blocks -/

/-- The nodes of the first block. -/
def firstBlock : List DblkT → List DblkT
  | [] => []
  | dblk :: list => dblk :: if dblk.more then firstBlock list else []

/-- `dblk_next`. -/
def dblkNext : List DblkT → List DblkT
  | [] => []
  | dblk :: list => if dblk.more then dblkNext list else list

/-- The first block, the blocks behind it. -/
def blocksOf : List DblkT → List (List DblkT)
  | [] => []
  | dblk :: list =>
      if dblk.more then
        match blocksOf list with
        | [] => [[dblk]]
        | block :: blocks => (dblk :: block) :: blocks
      else
        [dblk] :: blocksOf list

theorem firstBlock_append_dblkNext (list : List DblkT) :
    firstBlock list ++ dblkNext list = list := by
  induction list with
  | nil =>
      rfl
  | cons dblk list ih =>
      by_cases hmore : dblk.more
      · simp [firstBlock, dblkNext, hmore, ih]
      · simp [firstBlock, dblkNext, hmore]

/-- The blocks are those that `dblk_next` leads to. -/
theorem blocksOf_cons (dblk : DblkT) (list : List DblkT) :
    blocksOf (dblk :: list) = firstBlock (dblk :: list) :: blocksOf (dblkNext (dblk :: list)) := by
  induction list generalizing dblk with
  | nil =>
      cases hmore : dblk.more <;> simp [blocksOf, firstBlock, dblkNext, hmore]
  | cons next list ih =>
      by_cases hmore : dblk.more
      · rw [blocksOf, if_pos hmore, ih next]
        simp [firstBlock, dblkNext, hmore]
      · simp [blocksOf, firstBlock, dblkNext, hmore]

/-- Two lists with the same flags and, node by node, the same `f`. -/
theorem map_blocksOf {γ : Type} {f : DblkT → γ} {list list' : List DblkT}
    (h : list'.map (fun dblk => (f dblk, dblk.more)) = list.map fun dblk => (f dblk, dblk.more)) :
    (blocksOf list').map (List.map f) = (blocksOf list).map (List.map f) := by
  induction list generalizing list' with
  | nil =>
      rw [List.map_nil, List.map_eq_nil_iff] at h
      rw [h]
  | cons dblk list ih =>
      cases list' with
      | nil =>
          cases h
      | cons dblk' list' =>
          obtain ⟨hhead, hlist⟩ := List.cons.inj h
          obtain ⟨hf, hmore⟩ := Prod.mk.inj hhead
          have hblocks := ih hlist
          by_cases hm : dblk.more
          · rw [blocksOf, blocksOf, if_pos hm, if_pos (hmore.trans hm)]
            cases hb : blocksOf list with
            | nil =>
                rw [hb, List.map_nil, List.map_eq_nil_iff] at hblocks
                simp [hblocks, hf]
            | cons block blocks =>
                rw [hb] at hblocks
                obtain ⟨block', blocks', hb', hblock, hrest⟩ := List.map_eq_cons_iff.1 hblocks
                simp [hb', hf, hblock, hrest]
          · rw [blocksOf, blocksOf, if_neg hm, if_neg (hmore.trans_ne hm)]
            simp [hf, hblocks]

/-! ## `dblk_size`, `dblk_copy_to` -/

def nodes (list : List DblkT) : List VNode :=
  (firstBlock list).map DblkT.toVNode

def dblkSize : List DblkT → ℕ
  | [] => 0
  | dblk :: list =>
      dblkNodeSize dblk.toVNode + if dblk.more then dblkSize list else 0

/-- The memory, and the size that was copied. -/
def dblkCopyTo : List DblkT → List Byte → ℕ → List Byte × ℕ
  | [], mem, _ => (mem, 0)
  | dblk :: list, mem, size =>
      let r := dblkNodeCopyTo dblk.toVNode mem size
      if size - r.2 = 0 ∨ dblk.more = false then
        r
      else
        let rest := dblkCopyTo list (r.1.drop r.2) (size - r.2)
        (r.1.take r.2 ++ rest.1, r.2 + rest.2)

theorem nodes_cons (dblk : DblkT) (list : List DblkT) :
    nodes (dblk :: list) = dblk.toVNode :: if dblk.more then nodes list else [] := by
  cases hmore : dblk.more <;> simp [nodes, firstBlock, hmore]

theorem dblkSize_eq (list : List DblkT) : dblkSize list = dblkVSize (nodes list) := by
  induction list with
  | nil =>
      rfl
  | cons dblk list ih =>
      rw [dblkSize, nodes_cons, dblkVSize, List.map_cons, List.sum_cons]
      cases dblk.more with
      | false =>
          rfl
      | true =>
          rw [if_pos rfl, if_pos rfl, ih, dblkVSize]

theorem dblkCopyTo_eq (list : List DblkT) (mem : List Byte) (size : ℕ) :
    dblkCopyTo list mem size = Dblk.dblkCopyTo (nodes list) mem size := by
  induction list generalizing mem size with
  | nil =>
      rfl
  | cons dblk list ih =>
      rw [dblkCopyTo, nodes_cons, Dblk.dblkCopyTo]
      cases hmore : dblk.more with
      | true =>
          simp [ih]
      | false =>
          -- behind the last node there is nothing to copy
          have hlast : ∀ mem size, Dblk.dblkCopyTo [] mem size = (mem, 0) := fun _ _ => rfl
          simp [hlast]

end Linked
end Dblk
end DtsNet
