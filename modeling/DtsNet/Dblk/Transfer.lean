import DtsNet.Dblk.Bounded

/-!
# Transfer — bytes into a block, and out again

`dblk_copy_from` and `dblk_copy_to` walk over the nodes of the first block in the same way: a byte
that goes in at some place of the block comes out at the same place.
-/

namespace DtsNet
namespace Dblk

namespace DblkT

/-- What the functions on a block of real nodes see of a node. -/
def toNode (dblk : DblkT) : Node :=
  { data := dblk.data, offset := dblk.offset }

def setData (dblk : DblkT) (data : List Byte) : DblkT :=
  { dblk with data := data }

/-- A node apart from the bytes in it: its sizes, flags and virtual memory. -/
def frame (dblk : DblkT) : DblkT :=
  dblk.setData (List.replicate dblk.size 0)

@[simp] theorem data_setData (dblk : DblkT) (data : List Byte) :
    (dblk.setData data).data = data := rfl

@[simp] theorem vsize_setData (dblk : DblkT) (data : List Byte) :
    (dblk.setData data).vsize = dblk.vsize := rfl

@[simp] theorem more_setData (dblk : DblkT) (data : List Byte) :
    (dblk.setData data).more = dblk.more := rfl

theorem frame_setData (dblk : DblkT) {data : List Byte} (hdata : data.length = dblk.size) :
    (dblk.setData data).frame = dblk.frame := by
  rw [frame, VNode.size, data_setData, hdata]
  rfl

end DblkT

namespace Linked

/-! ## `dblk_copy_from` -/

/-- The list with `mem[0..size)` in its first block, and the size that was copied. -/
def dblkCopyFrom : List DblkT → List Byte → ℕ → List DblkT × ℕ
  | [], _, _ => ([], 0)
  | dblk :: list, mem, size =>
      let doSize := if dblk.size < size then dblk.size else size
      let dblk := { dblk with data := memWrite dblk.data (memRead mem doSize) }
      if size - doSize = 0 ∨ dblk.more = false then
        (dblk :: list, doSize)
      else
        let r := dblkCopyFrom list (mem.drop doSize) (size - doSize)
        (dblk :: r.1, doSize + r.2)

/-- On the nodes of the first block, this is the copy into a block. -/
theorem map_toNode_dblkCopyFrom (list : List DblkT) (mem : List Byte) (size : ℕ) :
    (firstBlock (dblkCopyFrom list mem size).1).map DblkT.toNode =
      Dblk.dblkCopyFrom ((firstBlock list).map DblkT.toNode) mem size := by
  induction list generalizing mem size with
  | nil =>
      rfl
  | cons dblk list ih =>
      have hsize : dblk.toNode.size = dblk.size := rfl
      rw [dblkCopyFrom, firstBlock, List.map_cons, Dblk.dblkCopyFrom, hsize]
      by_cases hstop : size - (if dblk.size < size then dblk.size else size) = 0
      · simp [hstop, firstBlock, DblkT.toNode]
      · -- something is left, which is lost when this was the last node
        cases dblk.more with
        | false =>
            simp [hstop, firstBlock, DblkT.toNode, Dblk.dblkCopyFrom]
        | true =>
            simp [hstop, firstBlock, DblkT.toNode, ← ih]

/-- The bytes of the first block. -/
def bytes (list : List DblkT) : List Byte :=
  vbytes (nodes list)

/-- The first block has no virtual node. -/
def Real (list : List DblkT) : Prop :=
  ∀ n ∈ nodes list, n.vsize = 0

instance (list : List DblkT) : Decidable (Real list) :=
  inferInstanceAs (Decidable (∀ n ∈ nodes list, n.vsize = 0))

theorem real_cons {dblk : DblkT} {list : List DblkT} :
    Real (dblk :: list) ↔ dblk.vsize = 0 ∧ (dblk.more = true → Real list) := by
  cases hmore : dblk.more <;> simp [Real, nodes_cons, hmore]

theorem dblkSize_cons {dblk : DblkT} (h0 : dblk.vsize = 0) (list : List DblkT) :
    dblkSize (dblk :: list) = dblk.size + if dblk.more then dblkSize list else 0 := by
  rw [dblkSize, dblkNodeSize, if_neg (not_not.2 h0)]

theorem bytes_cons {dblk : DblkT} (h0 : dblk.vsize = 0) (list : List DblkT) :
    bytes (dblk :: list) = dblk.data ++ if dblk.more then bytes list else [] := by
  have hdata : dblk.bytes = dblk.data := if_neg (not_not.2 h0)
  rw [bytes, nodes_cons, vbytes_cons, hdata]
  cases dblk.more <;> rfl

theorem bytes_setData_cons {dblk : DblkT} (h0 : dblk.vsize = 0) (data : List Byte)
    (list : List DblkT) :
    bytes (dblk.setData data :: list) = data ++ if dblk.more then bytes list else [] := by
  have h0' : (dblk.setData data).vsize = 0 := h0
  exact bytes_cons h0' list

theorem Real.wellFormed {list : List DblkT} (h : Real list) : ∀ n ∈ nodes list, n.WellFormed := by
  intro n hn
  rw [VNode.WellFormed, VNode.bytes, dblkNodeSize, h n hn]
  rfl

theorem Real.length_bytes {list : List DblkT} (h : Real list) :
    (bytes list).length = dblkSize list := by
  rw [bytes, (length_vbytes_eq_iff (nodes list)).2 h.wellFormed, dblkSize_eq]

theorem Real.not_cutsVirtual {list : List DblkT} (h : Real list) (size : ℕ) :
    ¬ CutsVirtual (nodes list) size := by
  rintro ⟨front, v, back, hb, hv, -⟩
  exact hv (h v (hb ▸ List.mem_append_right front List.mem_cons_self))

/-- `frame` keeps the flags, so it keeps the blocks and which nodes are virtual. -/
theorem real_of_frame {list list' : List DblkT}
    (h : list'.map DblkT.frame = list.map DblkT.frame) (hreal : Real list) : Real list' := by
  induction list generalizing list' with
  | nil =>
      rw [List.map_nil, List.map_eq_nil_iff] at h
      rwa [h]
  | cons dblk list ih =>
      cases list' with
      | nil =>
          cases h
      | cons dblk' list' =>
          obtain ⟨hhead, hlist⟩ := List.cons.inj h
          have hvsize : dblk'.frame.vsize = dblk.frame.vsize := by rw [hhead]
          have hmore : dblk'.frame.more = dblk.frame.more := by rw [hhead]
          obtain ⟨h0, hrest⟩ := real_cons.1 hreal
          exact real_cons.2 ⟨hvsize.trans h0, fun hm => ih hlist (hrest (hmore.symm.trans hm))⟩

/-- What a copy into the block leaves as it was. -/
structure KeepsFrame (list list' : List DblkT) : Prop where
  frame : list'.map DblkT.frame = list.map DblkT.frame
  next : dblkNext list' = dblkNext list

/-- One node takes what fits in of `mem`, and the loop goes on when something is left and more nodes
follow. -/
theorem dblkCopyFrom_cons (dblk : DblkT) (list : List DblkT) {mem : List Byte} {size d : ℕ}
    (hsize : size ≤ mem.length) (hd : d = min dblk.size size) :
    dblkCopyFrom (dblk :: list) mem size =
      if size ≤ dblk.size ∨ dblk.more = false then
        (dblk.setData (mem.take d ++ dblk.data.drop d) :: list, d)
      else
        (dblk.setData (mem.take d ++ dblk.data.drop d) ::
            (dblkCopyFrom list (mem.drop d) (size - d)).1,
          d + (dblkCopyFrom list (mem.drop d) (size - d)).2) := by
  have hmin : (if dblk.size < size then dblk.size else size) = d := by
    split <;> omega
  have hlen : (mem.take d).length = d := List.length_take_of_le (by omega)
  have hdata : memWrite dblk.data (memRead mem d) = mem.take d ++ dblk.data.drop d := by
    rw [memRead_eq_take (by omega), memWrite, hlen]
  have hstop : size - d = 0 ↔ size ≤ dblk.size := by omega
  simp only [dblkCopyFrom, hmin, hdata, hstop]
  rfl

/-- The first bytes of the block are replaced by those of `mem`, the others stay. -/
theorem dblkCopyFrom_spec {list : List DblkT} (hreal : Real list) {mem : List Byte} {size : ℕ}
    (hsize : size ≤ mem.length) :
    (dblkCopyFrom list mem size).2 = min size (dblkSize list) ∧
      bytes (dblkCopyFrom list mem size).1 =
        mem.take (min size (dblkSize list)) ++ (bytes list).drop (min size (dblkSize list)) ∧
      KeepsFrame list (dblkCopyFrom list mem size).1 := by
  induction list generalizing mem size with
  | nil =>
      refine ⟨(Nat.min_zero size).symm, ?_, rfl, rfl⟩
      simp [dblkCopyFrom, dblkSize, bytes, nodes, firstBlock, vbytes]
  | cons dblk list ih =>
      obtain ⟨h0, hrest⟩ := real_cons.1 hreal
      obtain ⟨d, hd⟩ : ∃ d, d = min dblk.size size := ⟨_, rfl⟩
      have hle : d ≤ dblk.data.length := hd.trans_le (Nat.min_le_left _ _)
      have hframe : (dblk.setData (mem.take d ++ dblk.data.drop d)).frame = dblk.frame := by
        refine DblkT.frame_setData dblk ?_
        rw [List.length_append, List.length_take_of_le (by omega), List.length_drop, VNode.size]
        omega
      rw [dblkCopyFrom_cons dblk list hsize hd, dblkSize_cons h0, bytes_cons h0]
      by_cases hstop : size ≤ dblk.size ∨ dblk.more = false
      · -- nothing is left, or this was the last node
        have hcount : min size (dblk.size + if dblk.more then dblkSize list else 0) = d := by
          rcases hstop with hstop | hstop
          · omega
          · simp only [hstop, Bool.false_eq_true, if_false]
            omega
        rw [if_pos hstop, hcount]
        refine ⟨rfl, ?_, ?_, ?_⟩
        · dsimp only
          rw [bytes_setData_cons h0, List.append_assoc, List.drop_append_of_le_length hle]
        · rw [List.map_cons, hframe, List.map_cons]
        · rw [dblkNext, DblkT.more_setData, dblkNext]
      · -- the node is filled, and the rest goes to the nodes behind it
        rw [not_or, Bool.not_eq_false, Nat.not_le] at hstop
        obtain ⟨hlt, hmore⟩ := hstop
        have hfull : d = dblk.data.length := hd.trans (Nat.min_eq_left (Nat.le_of_lt hlt))
        have hrestSize : size - d ≤ (mem.drop d).length := by
          rw [List.length_drop]
          omega
        obtain ⟨hcount, hbytes, hkeeps⟩ := ih (hrest hmore) hrestSize
        have hmin : min size (dblk.size + dblkSize list) = d + min (size - d) (dblkSize list) := by
          omega
        rw [if_neg (by simp [hmore, hlt]), if_pos hmore, if_pos hmore, hmin, hcount]
        refine ⟨rfl, ?_, ?_, ?_⟩
        · dsimp only
          rw [bytes_setData_cons h0, if_pos hmore, hbytes, List.take_add, List.drop_append, hfull]
          simp
        · rw [List.map_cons, hframe, hkeeps.frame, List.map_cons]
        · rw [dblkNext, DblkT.more_setData, if_pos hmore, hkeeps.next, dblkNext, if_pos hmore]

/-! ## Copy in, then copy out -/

theorem dblkCopyTo_of_real {list : List DblkT} (hreal : Real list) (mem : List Byte) (t : ℕ) :
    dblkCopyTo list mem t = (memWrite mem ((bytes list).take t), min t (dblkSize list)) := by
  rw [dblkCopyTo_eq, dblkCopyTo_of_not_cutsVirtual hreal.wellFormed mem (hreal.not_cutsVirtual t),
    Nat.min_comm, dblkSize_eq]
  rfl

/-- What is copied out is what was copied in, then what the block held behind it. -/
theorem dblkCopyFrom_dblkCopyTo {list : List DblkT} (hreal : Real list) {m : List Byte} {s k : ℕ}
    (hs : s ≤ m.length) (hk : k = min s (dblkSize list)) :
    (dblkCopyFrom list m s).2 = k ∧
      (∀ mem t, dblkCopyTo (dblkCopyFrom list m s).1 mem t =
        (memWrite mem ((m.take k ++ (bytes list).drop k).take t), min t (dblkSize list))) ∧
      KeepsFrame list (dblkCopyFrom list m s).1 := by
  obtain ⟨hcount, hbytes, hkeeps⟩ := dblkCopyFrom_spec hreal hs
  rw [← hk] at hcount hbytes
  -- the block is as long as before, and still has no virtual node
  have hreal' : Real (dblkCopyFrom list m s).1 := real_of_frame hkeeps.frame hreal
  have hsize : dblkSize (dblkCopyFrom list m s).1 = dblkSize list := by
    rw [← hreal'.length_bytes, hbytes, List.length_append, List.length_take, List.length_drop,
      hreal.length_bytes]
    omega
  refine ⟨hcount, fun mem t => ?_, hkeeps⟩
  rw [dblkCopyTo_of_real hreal', hbytes, hsize]

/-- Three nodes, the second one empty; then a block of its own. -/
theorem dblkCopyFrom_dblkCopyTo_sample :
    dblkCopyTo (dblkCopyFrom
      [⟨⟨[1, 2], 0, []⟩, false, true, true, 0⟩, ⟨⟨[], 0, []⟩, false, true, true, 0⟩,
        ⟨⟨[3, 4], 0, []⟩, false, true, false, 0⟩, ⟨⟨[5], 0, []⟩, false, true, false, 0⟩]
      [7, 8, 9] 3).1 [0, 0, 0, 0, 0] 5 = ([7, 8, 9, 4, 0], 4) :=
  ((dblkCopyFrom_dblkCopyTo (by decide) (by decide) rfl).2.1 [0, 0, 0, 0, 0] 5).trans (by decide)

end Linked
end Dblk
end DtsNet
