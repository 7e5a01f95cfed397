import DtsNet.Dblk.Fragment

/-!
# Copy — `dblk_copy_to`

A block, with its virtual nodes, is copied to memory.  The memory is the list of bytes behind the
pointer; a copy of a virtual node pays no attention to `size`, only the pointer moves on by the
smaller of the two.
-/

namespace DtsNet
namespace Dblk

/-! ## The loops -/

/-- The bytes that the loop over `vmem` copies. -/
def vmemCopy : List Node → ℕ → List Byte
  | [], _ => []
  | vmem :: rest, remainSize =>
      if remainSize = 0 then
        []
      else if vmem.size < remainSize then
        vmem.data ++ vmemCopy rest (remainSize - vmem.size)
      else
        vmem.data.take remainSize

/-- The memory after the copy, and the size that is returned. -/
def dblkNodeCopyTo (dblk : VNode) (mem : List Byte) (size : ℕ) : List Byte × ℕ :=
  if dblk.vsize = 0 then
    let doSize := if dblk.size < size then dblk.size else size
    (memWrite mem (dblk.data.take doSize), doSize)
  else
    let doSize := if dblk.vsize < size then dblk.vsize else size
    if dblk.size < dblk.vsize then
      (memWrite mem (dblk.data ++ vmemCopy dblk.vmem (dblk.vsize - dblk.size)), doSize)
    else
      (memWrite mem (dblk.data.take dblk.vsize), doSize)

/-- The loop over the nodes of the block: the memory, and the size that was copied. -/
def dblkCopyTo : List VNode → List Byte → ℕ → List Byte × ℕ
  | [], mem, _ => (mem, 0)
  | dblk :: b, mem, size =>
      let r := dblkNodeCopyTo dblk mem size
      if size - r.2 = 0 then
        r
      else
        let rest := dblkCopyTo b (r.1.drop r.2) (size - r.2)
        (r.1.take r.2 ++ rest.1, r.2 + rest.2)

/-! ## A copy of the whole block -/

theorem take_memWrite (mem bs : List Byte) : (memWrite mem bs).take bs.length = bs :=
  List.take_left

theorem drop_memWrite (mem bs : List Byte) :
    (memWrite mem bs).drop bs.length = mem.drop bs.length :=
  List.drop_left

/-- The virtual memory is as large as the node says. -/
def VNode.WellFormed (n : VNode) : Prop :=
  n.bytes.length = dblkNodeSize n

instance (n : VNode) : Decidable n.WellFormed :=
  inferInstanceAs (Decidable (n.bytes.length = dblkNodeSize n))

theorem wellFormed_init (data : List Byte) : (dblkNodeInit data).WellFormed := rfl

theorem vmemCopy_eq (vmem : List Node) (remainSize : ℕ) :
    vmemCopy vmem remainSize = (vmem.flatMap Node.data).take remainSize := by
  induction vmem generalizing remainSize with
  | nil =>
      simp [vmemCopy]
  | cons n rest ih =>
      rw [vmemCopy, List.flatMap_cons, List.take_append]
      by_cases h0 : remainSize = 0
      · simp [h0]
      · by_cases hlt : n.size < remainSize
        · have htake : n.data.take remainSize = n.data := List.take_of_length_le (Nat.le_of_lt hlt)
          rw [if_neg h0, if_pos hlt, ih, htake]
          rfl
        · have hrest : remainSize - n.data.length = 0 := Nat.sub_eq_zero_of_le (Nat.not_lt.1 hlt)
          simp [h0, hlt, hrest]

theorem dblkNodeCopyTo_whole {n : VNode} (hn : n.WellFormed) {mem : List Byte} {size : ℕ}
    (hsize : n.bytes.length ≤ size) :
    dblkNodeCopyTo n mem size = (memWrite mem n.bytes, n.bytes.length) := by
  rw [hn] at hsize ⊢
  by_cases h0 : n.vsize = 0
  · have hdo : (if n.size < size then n.size else size) = n.size := by
      simp only [dblkNodeSize, h0, ne_eq, not_true_eq_false, if_false] at hsize
      split <;> omega
    have htake : n.data.take n.size = n.data := List.take_length
    simp [dblkNodeCopyTo, h0, hdo, htake, VNode.bytes, dblkNodeSize]
  · have hdo : (if n.vsize < size then n.vsize else size) = n.vsize := by
      simp only [dblkNodeSize, h0, ne_eq, not_false_eq_true, if_true] at hsize
      split <;> omega
    have hbytes : n.bytes = (n.data ++ n.vmem.flatMap Node.data).take n.vsize := by
      simp [VNode.bytes, h0]
    rw [dblkNodeCopyTo, if_neg h0, hdo, hbytes, List.take_append]
    by_cases hlt : n.size < n.vsize
    · have htake : n.data.take n.vsize = n.data := List.take_of_length_le (Nat.le_of_lt hlt)
      have hsize' : dblkNodeSize n = n.vsize := if_pos h0
      rw [if_pos hlt, vmemCopy_eq, htake, hsize']
      rfl
    · have hrest : n.vsize - n.data.length = 0 := Nat.sub_eq_zero_of_le (Nat.not_lt.1 hlt)
      simp [hlt, hrest, dblkNodeSize, h0]

/-- With room for the whole block, its bytes are copied, and nothing else. -/
theorem dblkCopyTo_whole {b : List VNode} (hb : ∀ n ∈ b, n.WellFormed) {mem : List Byte}
    {size : ℕ} (hsize : (vbytes b).length ≤ size) :
    dblkCopyTo b mem size = (memWrite mem (vbytes b), (vbytes b).length) := by
  induction b generalizing mem size with
  | nil =>
      simp [dblkCopyTo, vbytes, memWrite]
  | cons n b ih =>
      rw [vbytes_cons, List.length_append] at hsize
      have hnode : dblkNodeCopyTo n mem size = (memWrite mem n.bytes, n.bytes.length) :=
        dblkNodeCopyTo_whole (hb n List.mem_cons_self) (by omega)
      have hrest : dblkCopyTo b (mem.drop n.bytes.length) (size - n.bytes.length) = _ :=
        ih (fun m hm => hb m (List.mem_cons_of_mem n hm)) (by omega)
      rw [dblkCopyTo, hnode, vbytes_cons]
      dsimp only
      by_cases h0 : size - n.bytes.length = 0
      · have hnil : vbytes b = [] := List.eq_nil_of_length_eq_zero (by omega)
        simp [h0, hnil]
      · rw [if_neg h0, drop_memWrite, take_memWrite, hrest, List.length_append]
        simp [memWrite]

theorem dblkNodeCopyTo_snd (n : VNode) (mem : List Byte) (size : ℕ) :
    (dblkNodeCopyTo n mem size).2 = min (dblkNodeSize n) size := by
  have hmin : ∀ k : ℕ, (if k < size then k else size) = min k size := by
    intro k
    split <;> omega
  by_cases h0 : n.vsize = 0
  · rw [dblkNodeCopyTo, if_pos h0, dblkNodeSize, if_neg (not_not.2 h0)]
    exact hmin n.size
  · rw [dblkNodeCopyTo, if_neg h0, dblkNodeSize, if_pos h0, ← hmin n.vsize]
    dsimp only
    split <;> rfl

/-- The size of the block is copied, or as much of it as there is room for. -/
theorem dblkCopyTo_snd (b : List VNode) (mem : List Byte) (size : ℕ) :
    (dblkCopyTo b mem size).2 = min (dblkVSize b) size := by
  induction b generalizing mem size with
  | nil =>
      exact (Nat.zero_min size).symm
  | cons n b ih =>
      have hsize : dblkVSize (n :: b) = dblkNodeSize n + dblkVSize b := List.sum_cons
      have hnode := dblkNodeCopyTo_snd n mem size
      have hrest := ih ((dblkNodeCopyTo n mem size).1.drop (dblkNodeCopyTo n mem size).2)
        (size - (dblkNodeCopyTo n mem size).2)
      rw [dblkCopyTo]
      dsimp only
      split
      · omega
      · dsimp only
        omega

/-- A block has as many bytes as its size says just when all its nodes have. -/
theorem length_vbytes_eq_iff (b : List VNode) :
    (vbytes b).length = dblkVSize b ↔ ∀ n ∈ b, n.WellFormed := by
  have hle : ∀ b, (vbytes b).length ≤ dblkVSize b := by
    intro b
    induction b with
    | nil =>
        exact Nat.le_refl 0
    | cons n b ih =>
        rw [vbytes_cons, List.length_append]
        exact Nat.add_le_add (length_bytes_le n) ih
  induction b with
  | nil =>
      exact iff_of_true rfl fun n hn => absurd hn List.not_mem_nil
  | cons n b ih =>
      have hn := length_bytes_le n
      have hb := hle b
      have hsize : dblkVSize (n :: b) = dblkNodeSize n + dblkVSize b := List.sum_cons
      rw [List.forall_mem_cons, vbytes_cons, List.length_append, hsize]
      constructor
      · intro h
        exact ⟨show n.bytes.length = dblkNodeSize n by omega, ih.1 (by omega)⟩
      · rintro ⟨hnode, hrest⟩
        exact congrArg₂ (· + ·) hnode (ih.2 hrest)

/-- The pointer does not leave the memory, whatever does not fit is left out. -/
theorem length_dblkCopyTo {b : Block} {mem : List Byte} {size : ℕ} (hsize : size ≤ mem.length) :
    (dblkCopyTo (b.map Node.toVNode) mem size).1.length = mem.length := by
  induction b generalizing mem size with
  | nil =>
      rfl
  | cons n b ih =>
      let doSize := if n.data.length < size then n.data.length else size
      have hdo : doSize ≤ n.data.length ∧ doSize ≤ size := by
        simp only [doSize]
        split <;> omega
      have hnode : dblkNodeCopyTo n.toVNode mem size =
          (memWrite mem (n.data.take doSize), doSize) := rfl
      have hlen : (memWrite mem (n.data.take doSize)).length = mem.length := by
        simp only [memWrite, List.length_append, List.length_drop, List.length_take]
        omega
      rw [List.map_cons, dblkCopyTo, hnode]
      dsimp only
      split
      · exact hlen
      · rw [List.length_append, ih (by rw [List.length_drop]; omega), List.length_take,
          List.length_drop]
        omega

end Dblk
end DtsNet
