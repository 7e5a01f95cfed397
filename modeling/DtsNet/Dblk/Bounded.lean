import DtsNet.Dblk.Flatten

/-!
# Bounded — how far `dblk_copy_to` writes

A copy into a buffer of `size` bytes is cut off where the buffer ends, provided that it ends in a
real node or between two nodes: a virtual node that has been reached is always copied whole.
-/

namespace DtsNet
namespace Dblk

/-- The copy of a block into a buffer of `size` bytes at `mem`. -/
structure CopiedOut (b : List VNode) (mem : List Byte) (size : ℕ) : Prop where
  count : (dblkCopyTo b mem size).2 = min (dblkVSize b) size
  copied : (dblkCopyTo b mem size).1.take (min (dblkVSize b) size) =
    (vbytes b).take (min (dblkVSize b) size)
  beyond : (dblkCopyTo b mem size).1.drop (min (dblkVSize b) size) =
    mem.drop (min (dblkVSize b) size)

/-- `size` ends inside a virtual node that the copy comes to; the first node it always comes to. -/
def CutsVirtual (b : List VNode) (size : ℕ) : Prop :=
  ∃ front v back, b = front ++ v :: back ∧ v.vsize ≠ 0 ∧
    (front = [] ∨ dblkVSize front < size) ∧ size < dblkVSize front + v.vsize

theorem not_cutsVirtual_nil (size : ℕ) : ¬ CutsVirtual [] size := by
  rintro ⟨front, v, back, hb, -⟩
  exact List.append_ne_nil_of_right_ne_nil front (List.cons_ne_nil v back) hb.symm

theorem dblkVSize_cons (n : VNode) (b : List VNode) :
    dblkVSize (n :: b) = dblkNodeSize n + dblkVSize b :=
  List.sum_cons

theorem cutsVirtual_cons (n : VNode) (b : List VNode) (size : ℕ) :
    CutsVirtual (n :: b) size ↔
      n.vsize ≠ 0 ∧ size < n.vsize ∨
        dblkNodeSize n < size ∧ CutsVirtual b (size - dblkNodeSize n) := by
  constructor
  · rintro ⟨front, v, back, hb, hv, hfront, hsize⟩
    cases front with
    | nil =>
        obtain ⟨rfl, -⟩ := List.cons.inj hb
        exact Or.inl ⟨hv, lt_of_lt_of_eq hsize (Nat.zero_add _)⟩
    | cons m front =>
        obtain ⟨rfl, rfl⟩ := List.cons.inj hb
        have hlt : dblkVSize (n :: front) < size :=
          hfront.resolve_left (List.cons_ne_nil n front)
        rw [dblkVSize_cons] at hlt hsize
        refine Or.inr ⟨by omega, front, v, back, rfl, hv, Or.inr (by omega), by omega⟩
  · rintro (⟨hv, hsize⟩ | ⟨hlt, front, v, back, rfl, hv, hfront, hsize⟩)
    · exact ⟨[], n, b, rfl, hv, Or.inl rfl, lt_of_lt_of_eq hsize (Nat.zero_add _).symm⟩
    · have hfront' : dblkVSize front < size - dblkNodeSize n := by
        rcases hfront with rfl | hfront
        · exact Nat.sub_pos_of_lt hlt
        · exact hfront
      refine ⟨n :: front, v, back, rfl, hv, Or.inr ?_, ?_⟩
      · rw [dblkVSize_cons]
        omega
      · rw [dblkVSize_cons]
        omega

/-! ## One node -/

theorem length_memWrite (mem bs : List Byte) :
    (memWrite mem bs).length = max mem.length bs.length := by
  rw [memWrite, List.length_append, List.length_drop]
  omega

/-- A real node is cut off at `size`. -/
theorem dblkNodeCopyTo_real {n : VNode} (h0 : n.vsize = 0) (mem : List Byte) (size : ℕ) :
    dblkNodeCopyTo n mem size = (memWrite mem (n.bytes.take size), min (dblkNodeSize n) size) := by
  refine Prod.ext ?_ (dblkNodeCopyTo_snd n mem size)
  have hbytes : n.bytes = n.data := if_neg (not_not.2 h0)
  rw [dblkNodeCopyTo, if_pos h0, hbytes]
  dsimp only
  split
  · rename_i hlt
    have hall : n.data.take size = n.data := List.take_of_length_le (Nat.le_of_lt hlt)
    have hnode : n.data.take n.size = n.data := List.take_length
    rw [hall, hnode]
  · rfl

/-- A virtual node is not. -/
theorem dblkNodeCopyTo_virtual {n : VNode} (h0 : n.vsize ≠ 0) (hn : n.WellFormed)
    (mem : List Byte) (size : ℕ) :
    dblkNodeCopyTo n mem size = (memWrite mem n.bytes, min (dblkNodeSize n) size) := by
  refine Prod.ext ?_ (dblkNodeCopyTo_snd n mem size)
  have hwhole : (dblkNodeCopyTo n mem n.bytes.length).1 = memWrite mem n.bytes :=
    congrArg Prod.fst (dblkNodeCopyTo_whole hn (Nat.le_refl _))
  -- what is written does not depend on `size`
  have hsame : ∀ size', (dblkNodeCopyTo n mem size).1 = (dblkNodeCopyTo n mem size').1 := by
    intro size'
    by_cases hlt : n.size < n.vsize
    · simp only [dblkNodeCopyTo, h0, hlt, if_true, if_false]
    · simp only [dblkNodeCopyTo, h0, hlt, if_false]
  exact (hsame _).trans hwhole

/-! ## The block -/

theorem dblkCopyTo_of_not_cutsVirtual {b : List VNode} (hb : ∀ n ∈ b, n.WellFormed)
    (mem : List Byte) {size : ℕ} (hcuts : ¬ CutsVirtual b size) :
    dblkCopyTo b mem size = (memWrite mem ((vbytes b).take size), min (dblkVSize b) size) := by
  refine Prod.ext ?_ (dblkCopyTo_snd b mem size)
  induction b generalizing mem size with
  | nil =>
      simp [dblkCopyTo, vbytes, memWrite]
  | cons n b ih =>
      obtain ⟨hn, hrest⟩ := List.forall_mem_cons.1 hb
      rw [cutsVirtual_cons, not_or, not_and, not_and] at hcuts
      obtain ⟨hnode, hcuts⟩ := hcuts
      have hlen : n.bytes.length = dblkNodeSize n := hn
      rw [dblkCopyTo, vbytes_cons, List.take_append, hlen]
      by_cases hlt : dblkNodeSize n < size
      · -- the node is copied whole, and the loop goes on behind it
        have hwhole : dblkNodeCopyTo n mem size = (memWrite mem n.bytes, n.bytes.length) :=
          dblkNodeCopyTo_whole hn (by omega)
        have hgo : size - n.bytes.length ≠ 0 := by omega
        have hall : n.bytes.take size = n.bytes := List.take_of_length_le (by omega)
        rw [hwhole]
        dsimp only
        rw [if_neg hgo, take_memWrite, drop_memWrite, hall, hlen, ih hrest _ (hcuts hlt)]
        simp only [memWrite, List.append_assoc, List.length_append, hlen, List.drop_drop]
      · have hfst : (dblkNodeCopyTo n mem size).1 = memWrite mem (n.bytes.take size) := by
          by_cases h0 : n.vsize = 0
          · rw [dblkNodeCopyTo_real h0]
          · -- the buffer ends where the node does
            have hsize : dblkNodeSize n = n.vsize := if_pos h0
            have hall : n.bytes.take size = n.bytes :=
              List.take_of_length_le (by have := hnode h0; omega)
            rw [dblkNodeCopyTo_virtual h0 hn, hall]
        have hstop : size - (dblkNodeCopyTo n mem size).2 = 0 := by
          rw [dblkNodeCopyTo_snd]
          omega
        have hnil : size - dblkNodeSize n = 0 := by omega
        dsimp only
        rw [if_pos hstop, hfst, hnil, List.take_zero, List.append_nil]

/-- A buffer of `size` bytes is then too short for what is written. -/
theorem length_dblkCopyTo_of_cutsVirtual {b : List VNode} (hb : ∀ n ∈ b, n.WellFormed)
    (mem : List Byte) {size : ℕ} (hcuts : CutsVirtual b size) :
    size < (dblkCopyTo b mem size).1.length := by
  induction b generalizing mem size with
  | nil =>
      exact absurd hcuts (not_cutsVirtual_nil size)
  | cons n b ih =>
      obtain ⟨hn, hrest⟩ := List.forall_mem_cons.1 hb
      have hlen : n.bytes.length = dblkNodeSize n := hn
      rw [dblkCopyTo]
      rcases (cutsVirtual_cons n b size).1 hcuts with ⟨h0, hlt⟩ | ⟨hlt, hcuts⟩
      · -- this node is the one that is cut, and the copy ends with it
        have hsize : dblkNodeSize n = n.vsize := if_pos h0
        have hstop : size - (dblkNodeCopyTo n mem size).2 = 0 := by
          rw [dblkNodeCopyTo_snd]
          omega
        dsimp only
        rw [if_pos hstop, dblkNodeCopyTo_virtual h0 hn, length_memWrite]
        omega
      · have hgo : size - n.bytes.length ≠ 0 := by omega
        have hih := ih hrest (mem.drop n.bytes.length) hcuts
        rw [dblkNodeCopyTo_whole hn (by omega)]
        dsimp only
        rw [if_neg hgo, take_memWrite, drop_memWrite, List.length_append, hlen]
        rw [hlen] at hih
        omega

theorem le_dblkVSize_of_cutsVirtual {b : List VNode} {size : ℕ} (hcuts : CutsVirtual b size) :
    size < dblkVSize b := by
  obtain ⟨front, v, back, rfl, hv, -, hsize⟩ := hcuts
  have hnode : dblkNodeSize v = v.vsize := if_pos hv
  have hsum : dblkVSize (front ++ v :: back) =
      dblkVSize front + (dblkNodeSize v + dblkVSize back) := by
    rw [← dblkVSize_cons, dblkVSize, List.map_append, List.sum_append]
    rfl
  omega

/-- The copy stays inside every buffer just when `size` does not end inside a virtual node. -/
theorem dblkCopyTo_copiedOut_iff {b : List VNode} (hb : ∀ n ∈ b, n.Covered) (size : ℕ) :
    (∀ mem, CopiedOut b mem size) ↔ ¬ CutsVirtual b size := by
  have hwell : ∀ n ∈ b, n.WellFormed := fun n hn => (hb n hn).wellFormed
  constructor
  · intro h hcuts
    have hmin : min (dblkVSize b) size = size :=
      Nat.min_eq_right (Nat.le_of_lt (le_dblkVSize_of_cutsVirtual hcuts))
    -- a buffer of exactly `size` bytes has nothing behind it
    have hbeyond := (h (List.replicate size 0)).beyond
    have hlen := length_dblkCopyTo_of_cutsVirtual hwell (List.replicate size 0) hcuts
    have hnone : (List.replicate size (0 : Byte)).drop size = [] :=
      List.drop_of_length_le (Nat.le_of_eq List.length_replicate)
    rw [hmin, hnone, List.drop_eq_nil_iff] at hbeyond
    omega
  · intro hcuts mem
    have hcopy := dblkCopyTo_of_not_cutsVirtual hwell mem hcuts
    have hlen : ((vbytes b).take size).length = min (dblkVSize b) size := by
      rw [List.length_take, (length_vbytes_eq_iff b).2 hwell, Nat.min_comm]
    have htake : (vbytes b).take size = (vbytes b).take (min (dblkVSize b) size) := by
      rw [← (length_vbytes_eq_iff b).2 hwell, Nat.min_comm]
      exact List.take_eq_take_min
    refine { count := dblkCopyTo_snd b mem size, copied := ?_, beyond := ?_ }
    · rw [hcopy, ← hlen, take_memWrite, hlen, htake]
    · rw [hcopy, ← hlen, drop_memWrite]

/-- A virtual node of one byte of its own and two of the next node, and a real node. -/
theorem dblkCopyTo_copiedOut_sample :
    CopiedOut [⟨[1], 3, [⟨[2, 3, 4], 0⟩]⟩, ⟨[9, 8], 0, []⟩] [0, 0, 0, 0, 7] 4 := by
  refine (dblkCopyTo_copiedOut_iff (by decide) 4).2 ?_ _
  simp [cutsVirtual_cons, not_cutsVirtual_nil, dblkNodeSize]

/-- Two bytes are asked for, and the third one of the virtual node is written behind them. -/
theorem dblkCopyTo_overruns_sample :
    (∀ n ∈ [(⟨[1], 3, [⟨[2, 3, 4], 0⟩]⟩ : VNode)], n.Covered) ∧
      dblkCopyTo [⟨[1], 3, [⟨[2, 3, 4], 0⟩]⟩] [0, 0, 0, 0] 2 = ([1, 2, 3, 0], 2) ∧
      ¬ CopiedOut [⟨[1], 3, [⟨[2, 3, 4], 0⟩]⟩] [0, 0, 0, 0] 2 :=
  ⟨by decide, by decide, fun h => absurd h.beyond (by decide)⟩

end Dblk
end DtsNet
