import DtsNet.Dblk.Linked

/-!
# Flatten — from virtual nodes to real ones

`dblk_list_to_rmem_list` gives every virtual node of a list a buffer of its own, `dblk_copy` puts a
whole block into one.  Neither changes a byte of what the nodes stand for.
-/

namespace DtsNet
namespace Dblk

/-- What the two size fields, of 16 bits, hold. -/
structure VNode.Sized (n : VNode) : Prop where
  size : n.size < 65536
  vsize : n.vsize < 65536

/-- `vsize` is at most the size of the node and of its `vmem`. -/
def VNode.Covered (n : VNode) : Prop :=
  n.vsize ≤ n.size + (n.vmem.map Node.size).sum

instance (n : VNode) : Decidable n.Covered :=
  inferInstanceAs (Decidable (_ ≤ _))

theorem VNode.Covered.wellFormed {n : VNode} (h : n.Covered) : n.WellFormed := by
  have hlen : (n.data ++ n.vmem.flatMap Node.data).length =
      n.size + (n.vmem.map Node.size).sum := by
    rw [List.length_append, List.length_flatMap]
    rfl
  -- the bytes of a virtual node are cut off at `vsize`, up to which there is memory
  by_cases h0 : n.vsize ≠ 0
  · rw [VNode.WellFormed, VNode.bytes, if_pos h0, dblkNodeSize, if_pos h0, List.length_take, hlen]
    exact Nat.min_eq_left h
  · rw [VNode.WellFormed, VNode.bytes, if_neg h0, dblkNodeSize, if_neg h0]
    rfl

/-! ## `dblk_node_to_rmem_node`, `dblk_copy` -/

/-- `data` is what the buffer holds before. -/
def dblkNodeToRmemNode (dblk : VNode) (data : List Byte) (size : ℕ) : VNode :=
  if 0 < dblk.vsize then
    let r := dblkNodeCopyTo dblk data size
    dblkNodeInit (r.1.take (r.2 % 65536))
  else
    dblk

theorem bytes_dblkNodeToRmemNode {n : VNode} (hsized : n.Sized) (hn : n.WellFormed)
    (data : List Byte) :
    (dblkNodeToRmemNode n data (dblkNodeSize n)).bytes = n.bytes := by
  by_cases h0 : 0 < n.vsize
  · have hvsize : dblkNodeSize n = n.vsize := if_pos (Nat.ne_of_gt h0)
    have hlen : n.bytes.length = n.vsize := Eq.trans hn hvsize
    have hmod : n.bytes.length % 65536 = n.bytes.length := Nat.mod_eq_of_lt (hlen ▸ hsized.vsize)
    rw [dblkNodeToRmemNode, if_pos h0, dblkNodeCopyTo_whole hn (Nat.le_of_eq hn)]
    dsimp only
    rw [hmod, take_memWrite, bytes_init]
  · rw [dblkNodeToRmemNode, if_neg h0]

theorem vsize_dblkNodeToRmemNode (n : VNode) (data : List Byte) (size : ℕ) :
    (dblkNodeToRmemNode n data size).vsize = 0 := by
  by_cases h0 : 0 < n.vsize
  · rw [dblkNodeToRmemNode, if_pos h0]
    rfl
  · rw [dblkNodeToRmemNode, if_neg h0]
    exact Nat.eq_zero_of_not_pos h0

namespace Linked

/-- `dblk_node_new_with_buff`; `data` is the new buffer, or `none`, and `nodeMalloc` says whether
there is room for the node. -/
def dblkNodeNewWithBuff (data : Option (List Byte)) (nodeMalloc : Bool) (size : ℕ) :
    Option DblkT :=
  match data with
  | none => none
  | some data =>
      if nodeMalloc then
        some
          { toVNode := dblkNodeInit (memRead data (size % 65536))
            dataMalloc := true
            nodeMalloc := true
            more := false
            offset := 0 }
      else
        none

/-- `dblk_copy` of the first block. -/
def dblkCopy (data : Option (List Byte)) (nodeMalloc : Bool) (list : List DblkT) : Option DblkT :=
  match dblkNodeNewWithBuff data nodeMalloc (dblkSize list) with
  | none => none
  | some cpy => some { cpy with data := (dblkCopyTo list cpy.data cpy.size).1 }

/-- One real node with the bytes of the block. -/
theorem dblkCopy_eq {list : List DblkT} (hlist : ∀ n ∈ nodes list, n.WellFormed)
    (hsize : (vbytes (nodes list)).length < 65536) (data : List Byte) :
    dblkCopy (some data) true list = some
      { toVNode := dblkNodeInit (vbytes (nodes list))
        dataMalloc := true
        nodeMalloc := true
        more := false
        offset := 0 } := by
  have hlen : dblkSize list = (vbytes (nodes list)).length := by
    rw [dblkSize_eq, (length_vbytes_eq_iff (nodes list)).2 hlist]
  have hmod : dblkSize list % 65536 = (vbytes (nodes list)).length := by
    rw [hlen, Nat.mod_eq_of_lt hsize]
  have hbuff : (memRead data (vbytes (nodes list)).length).length = (vbytes (nodes list)).length :=
    length_memRead data _
  -- the buffer has exactly the size of the block, so nothing of what it held is left
  have hcopy : (dblkCopyTo list (memRead data (vbytes (nodes list)).length)
      (vbytes (nodes list)).length).1 = vbytes (nodes list) := by
    rw [dblkCopyTo_eq, dblkCopyTo_whole hlist (Nat.le_refl _)]
    dsimp only
    rw [memWrite, List.drop_of_length_le (Nat.le_of_eq hbuff), List.append_nil]
  simp only [dblkCopy, dblkNodeNewWithBuff, hmod, if_true, dblkNodeInit, VNode.size, hbuff, hcopy]

/-! ## `dblk_list_to_rmem_list` -/

/-- `malloc k size` is the answer of the `k`-th call of `malloc`, with what the buffer holds. -/
def dblkListToRmemList (malloc : ℕ → ℕ → Option (List Byte)) :
    List DblkT → ℕ → List DblkT × Bool
  | [], _ => ([], true)
  | dblk :: list, calls =>
      if 0 < dblk.vsize then
        let blksz := dblkNodeSize dblk.toVNode
        match malloc calls blksz with
        | none => (dblk :: list, false)
        | some data =>
            let dblk :=
              { dblk with
                toVNode := dblkNodeToRmemNode dblk.toVNode data blksz
                dataMalloc := true }
            let r := dblkListToRmemList malloc list (calls + 1)
            (dblk :: r.1, r.2)
      else
        let r := dblkListToRmemList malloc list calls
        (dblk :: r.1, r.2)

variable (malloc : ℕ → ℕ → Option (List Byte))

/-- Whatever `malloc` answers, every node keeps its bytes and its `more` flag. -/
theorem dblkListToRmemList_bytes {list : List DblkT}
    (hlist : ∀ dblk ∈ list, dblk.Sized ∧ dblk.WellFormed) (calls : ℕ) :
    (dblkListToRmemList malloc list calls).1.map (fun dblk => (dblk.bytes, dblk.more)) =
      list.map fun dblk => (dblk.bytes, dblk.more) := by
  induction list generalizing calls with
  | nil =>
      rfl
  | cons dblk list ih =>
      obtain ⟨⟨hsized, hwell⟩, hrest⟩ := List.forall_mem_cons.1 hlist
      rw [dblkListToRmemList]
      by_cases hv : 0 < dblk.vsize
      · rw [if_pos hv]
        cases hmalloc : malloc calls (dblkNodeSize dblk.toVNode) with
        | none =>
            -- the function returns, with this node and those behind it untouched
            simp only [hmalloc]
        | some data =>
            simp only [hmalloc, List.map_cons, ih hrest, bytes_dblkNodeToRmemNode hsized hwell]
      · rw [if_neg hv]
        simp only [List.map_cons, ih hrest]

/-- The list is left as it was from the first node on for which there is no memory. -/
theorem dblkListToRmemList_real {list : List DblkT} {calls : ℕ}
    (h : (dblkListToRmemList malloc list calls).2 = true) :
    ∀ dblk ∈ (dblkListToRmemList malloc list calls).1, dblk.vsize = 0 := by
  induction list generalizing calls with
  | nil =>
      intro dblk hdblk
      cases hdblk
  | cons dblk list ih =>
      rw [dblkListToRmemList] at h ⊢
      by_cases hv : 0 < dblk.vsize
      · rw [if_pos hv] at h ⊢
        cases hmalloc : malloc calls (dblkNodeSize dblk.toVNode) with
        | none =>
            simp [hmalloc] at h
        | some data =>
            simp only [hmalloc] at h ⊢
            exact List.forall_mem_cons.2 ⟨vsize_dblkNodeToRmemNode _ _ _, ih h⟩
      · rw [if_neg hv] at h ⊢
        exact List.forall_mem_cons.2 ⟨Nat.eq_zero_of_not_pos hv, ih h⟩

/-- The list keeps its contents, block by block and node by node, when it is made real and when
its first block is copied. -/
theorem dblkListToRmemList_keeps (list : List DblkT)
    (hlist : ∀ dblk ∈ list, dblk.Sized ∧ dblk.Covered) :
    (blocksOf (dblkListToRmemList malloc list 0).1).map (List.map fun dblk => dblk.bytes) =
        (blocksOf list).map (List.map fun dblk => dblk.bytes) ∧
      (dblkListToRmemList malloc list 0).1.map DblkT.more = list.map DblkT.more ∧
      ((dblkListToRmemList malloc list 0).2 = true →
        ∀ dblk ∈ (dblkListToRmemList malloc list 0).1, dblk.vsize = 0) ∧
      ((vbytes (nodes list)).length ≤ 65535 → ∀ data, dblkCopy (some data) true list = some
        { toVNode := dblkNodeInit (vbytes (nodes list))
          dataMalloc := true
          nodeMalloc := true
          more := false
          offset := 0 }) := by
  have hwell : ∀ dblk ∈ list, dblk.Sized ∧ dblk.WellFormed :=
    fun dblk hdblk => ⟨(hlist dblk hdblk).1, (hlist dblk hdblk).2.wellFormed⟩
  have hbytes := dblkListToRmemList_bytes malloc hwell 0
  refine ⟨map_blocksOf hbytes, ?_, dblkListToRmemList_real malloc, ?_⟩
  · have hmore := congrArg (List.map Prod.snd) hbytes
    rwa [List.map_map, List.map_map] at hmore
  · intro hsize data
    -- the nodes of the first block are nodes of the list
    refine dblkCopy_eq (fun n hn => ?_) (Nat.lt_succ_of_le hsize) data
    obtain ⟨dblk, hdblk, rfl⟩ := List.mem_map.1 hn
    have hmem : dblk ∈ list := by
      rw [← firstBlock_append_dblkNext list]
      exact List.mem_append_left _ hdblk
    exact (hwell dblk hmem).2

/-- A virtual node of three bytes over two nodes, then a block of one real node. -/
theorem dblkListToRmemList_keeps_sample :
    (blocksOf (dblkListToRmemList (fun _ _ => some [])
        [⟨⟨[1], 3, [⟨[2, 3, 4], 0⟩]⟩, false, true, false, 0⟩,
          ⟨⟨[9], 0, []⟩, false, true, false, 0⟩] 0).1).map (List.map fun dblk => dblk.bytes) =
        [[[1, 2, 3]], [[9]]] ∧
      (dblkCopy (some [5, 6, 7, 8]) true
        [⟨⟨[1], 3, [⟨[2, 3, 4], 0⟩]⟩, false, true, false, 0⟩,
          ⟨⟨[9], 0, []⟩, false, true, false, 0⟩]).map (fun dblk => (dblk.data, dblk.vsize)) =
        some ([1, 2, 3], 0) := by
  obtain ⟨hlist, -, -, hcopy⟩ := dblkListToRmemList_keeps (fun _ _ => some [])
    [⟨⟨[1], 3, [⟨[2, 3, 4], 0⟩]⟩, false, true, false, 0⟩,
      ⟨⟨[9], 0, []⟩, false, true, false, 0⟩] (by
    simp only [List.forall_mem_cons, List.not_mem_nil, false_imp_iff, implies_true, and_true]
    exact ⟨⟨⟨by decide, by decide⟩, by decide⟩, ⟨by decide, by decide⟩, by decide⟩)
  exact ⟨hlist.trans (by decide), congrArg _ (hcopy (by decide) [5, 6, 7, 8])⟩

end Linked
end Dblk
end DtsNet
