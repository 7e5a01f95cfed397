import DtsNet.Dblk.Transfer
import DtsNet.Library.Answering
import DtsNet.Library.Positioned

/-!
# Cursor — `dblk_seek`, `dblk_write` and `dblk_read`

A block is meant to be used like a file.  Its position is spread over the nodes: those in front of
it are at their ends, those behind it at their starts.  A transfer works as on a file as long as
it takes place in one node.  A transfer that goes on in the next node starts there with the first
byte of the memory again, and with the whole `size` instead of what is left of it.
-/

namespace DtsNet
namespace Dblk

open Machine Positioned

namespace DblkT

def setOffset (dblk : DblkT) (offset : ℕ) : DblkT :=
  { dblk with offset := offset }

@[simp] theorem data_setOffset (dblk : DblkT) (offset : ℕ) :
    (dblk.setOffset offset).data = dblk.data := rfl

@[simp] theorem size_setOffset (dblk : DblkT) (offset : ℕ) :
    (dblk.setOffset offset).size = dblk.size := rfl

@[simp] theorem vsize_setOffset (dblk : DblkT) (offset : ℕ) :
    (dblk.setOffset offset).vsize = dblk.vsize := rfl

@[simp] theorem more_setOffset (dblk : DblkT) (offset : ℕ) :
    (dblk.setOffset offset).more = dblk.more := rfl

@[simp] theorem offset_setOffset (dblk : DblkT) (offset : ℕ) :
    (dblk.setOffset offset).offset = offset := rfl

end DblkT

namespace Linked

/-! ## `dblk_seek` -/

/-- The loop of `dblk_seek`. -/
def dblkSeekLoop : List DblkT → ℕ → List DblkT
  | [], _ => []
  | dblk :: list, offset =>
      let r :=
        if offset < dblk.size then ({ dblk with offset := offset }, offset - offset)
        else ({ dblk with offset := dblk.size }, offset - dblk.size)
      r.1 :: if dblk.more then dblkSeekLoop list r.2 else list

def dblkSeek (list : List DblkT) (offset : ℕ) : List DblkT × ℕ :=
  (dblkSeekLoop list offset, 1)

/-! ## `dblk_write`, `dblk_read` -/

/-- The loop that the two share; `copy` is their `memcpy`.  The offset of a node is at most its
size. -/
def transferLoop (copy : DblkT → List Byte → ℕ → DblkT × List Byte) :
    List DblkT → List Byte → ℕ → ℕ → List DblkT × List Byte × ℕ
  | [], mem, _, doneSize => ([], mem, doneSize)
  | dblk :: list, mem, size, doneSize =>
      if doneSize < size then
        let doSize := dblk.size - dblk.offset
        let r :=
          if 0 < doSize then
            let doSize := if size < doSize then size else doSize
            let c := copy dblk mem doSize
            ({ c.1 with offset := dblk.offset + doSize }, c.2, doneSize + doSize)
          else
            (dblk, mem, doneSize)
        if dblk.more then
          -- `mem` still points to its first byte, and `size` is still the whole size
          let rest := transferLoop copy list r.2.1 size r.2.2
          (r.1 :: rest.1, rest.2)
        else
          (r.1 :: list, r.2)
      else
        (dblk :: list, mem, doneSize)

/-- `memcpy(dblk->data+dblk->offset, mem, do_size)`. -/
def copyIn (dblk : DblkT) (mem : List Byte) (doSize : ℕ) : DblkT × List Byte :=
  (dblk.setData (dblk.data.take dblk.offset ++ memRead mem doSize ++
    dblk.data.drop (dblk.offset + doSize)), mem)

/-- `memcpy(mem, dblk->data+dblk->offset, do_size)`. -/
def copyOut (dblk : DblkT) (mem : List Byte) (doSize : ℕ) : DblkT × List Byte :=
  (dblk, memWrite mem ((dblk.data.drop dblk.offset).take doSize))

/-- The list, the memory and the size that is returned. -/
def dblkWrite (list : List DblkT) (mem : List Byte) (size : ℕ) : List DblkT × List Byte × ℕ :=
  transferLoop copyIn list mem size 0

def dblkRead (list : List DblkT) (mem : List Byte) (size : ℕ) : List DblkT × List Byte × ℕ :=
  transferLoop copyOut list mem size 0

/-- On the nodes of the first block, the loop of the list is the loop of the block. -/
theorem map_toNode_transferLoop (list : List DblkT) (mem : List Byte) (size doneSize : ℕ) :
    ((firstBlock (transferLoop copyOut list mem size doneSize).1).map DblkT.toNode,
        (transferLoop copyOut list mem size doneSize).2) =
      dblkReadLoop ((firstBlock list).map DblkT.toNode) mem size doneSize := by
  induction list generalizing mem doneSize with
  | nil =>
      rfl
  | cons dblk list ih =>
      have hsize : dblk.toNode.size - dblk.toNode.offset = dblk.size - dblk.offset := rfl
      rw [transferLoop, firstBlock, List.map_cons, dblkReadLoop, hsize]
      by_cases hlt : doneSize < size
      · by_cases hnode : 0 < dblk.size - dblk.offset
        · cases hmore : dblk.more with
          | false =>
              simp [hlt, hnode, hmore, firstBlock, copyOut, dblkReadLoop, DblkT.toNode, Node.unread]
          | true =>
              simp [hlt, hnode, hmore, firstBlock, copyOut, ← ih, DblkT.toNode, Node.unread]
        · cases hmore : dblk.more with
          | false =>
              simp [hlt, hnode, hmore, firstBlock, dblkReadLoop]
          | true =>
              simp [hlt, hnode, hmore, firstBlock, ← ih]
      · simp [hlt, firstBlock]

/-! ## Calls, on a block and on a file -/

inductive Call
  | seek (offset : ℕ)
  | write (mem : List Byte) (size : ℕ)
  | read (mem : List Byte) (size : ℕ)
  deriving DecidableEq, Repr

/-- The answer of a call is the memory behind it and what it returns. -/
def call (list : List DblkT) : Call → List DblkT × (List Byte × ℕ)
  | .seek offset => ((dblkSeek list offset).1, [], (dblkSeek list offset).2)
  | .write mem size => dblkWrite list mem size
  | .read mem size => dblkRead list mem size

/-- The same call on a file. -/
def fileCall (f : File Byte) : Call → File Byte × (List Byte × ℕ)
  | .seek offset => (f.seek offset, [], 1)
  | .write mem size =>
      let r := f.write (memRead mem size)
      (r.1, mem, r.2)
  | .read mem size =>
      let r := f.read size
      (r.1, memWrite mem r.2, r.2.length)

/-! ## The position -/

/-- The first block is at position `pos`. -/
def Placed : List DblkT → ℕ → Prop
  | [], _ => True
  | dblk :: list, pos =>
      dblk.offset = min pos dblk.size ∧ (dblk.more = true → Placed list (pos - dblk.size))

instance : ∀ (list : List DblkT) (pos : ℕ), Decidable (Placed list pos)
  | [], _ => inferInstanceAs (Decidable True)
  | dblk :: list, pos =>
      haveI : Decidable (Placed list (pos - dblk.size)) := instDecidablePlaced list _
      inferInstanceAs (Decidable (_ ∧ (dblk.more = true → _)))

/-- A block of real nodes that stands for a file. -/
structure Represents (list : List DblkT) (f : File Byte) : Prop where
  real : Real list
  contents : bytes list = f.contents
  placed : Placed list f.pos

/-- The bytes of the first block that have not been passed yet. -/
def unreadSize : List DblkT → ℕ
  | [] => 0
  | dblk :: list => (dblk.size - dblk.offset) + if dblk.more then unreadSize list else 0

/-- Those of them in the node where the next transfer starts. -/
def firstUnread : List DblkT → ℕ
  | [] => 0
  | dblk :: list =>
      if dblk.offset < dblk.size then dblk.size - dblk.offset
      else if dblk.more then firstUnread list else 0

/-- The transfer ends in the node that it starts in, or there is nothing behind that node. -/
def Within (list : List DblkT) (size : ℕ) : Prop :=
  size ≤ firstUnread list ∨ unreadSize list = firstUnread list

instance (list : List DblkT) (size : ℕ) : Decidable (Within list size) :=
  inferInstanceAs (Decidable (_ ∨ _))

def CallWithin (list : List DblkT) : Call → Prop
  | .seek _ => True
  | .write _ size => Within list size
  | .read _ size => Within list size

instance (list : List DblkT) : ∀ c : Call, Decidable (CallWithin list c)
  | .seek _ => inferInstanceAs (Decidable True)
  | .write _ size => inferInstanceAs (Decidable (Within list size))
  | .read _ size => inferInstanceAs (Decidable (Within list size))

/-! ## Nodes in front of the position, and behind it -/

theorem placed_zero_iff (list : List DblkT) :
    Placed list 0 ↔ ∀ dblk ∈ firstBlock list, dblk.offset = 0 := by
  induction list with
  | nil =>
      simp [Placed, firstBlock]
  | cons dblk list ih =>
      rw [Placed, firstBlock, List.forall_mem_cons, Nat.zero_min, Nat.zero_sub, ih]
      cases dblk.more <;> simp

theorem unreadSize_eq {list : List DblkT} (hreal : Real list) {pos : ℕ} (h : Placed list pos) :
    unreadSize list = dblkSize list - pos := by
  induction list generalizing pos with
  | nil =>
      exact (Nat.zero_sub pos).symm
  | cons dblk list ih =>
      obtain ⟨h0, hrest⟩ := real_cons.1 hreal
      obtain ⟨hoffset, hplaced⟩ := h
      rw [unreadSize, dblkSize_cons h0]
      cases hmore : dblk.more with
      | false =>
          simp only [Bool.false_eq_true, if_false]
          omega
      | true =>
          rw [if_pos rfl, if_pos rfl, ih (hrest hmore) (hplaced hmore)]
          omega

/-- Behind the end of the block, all positions are alike. -/
theorem placed_min {list : List DblkT} (hreal : Real list) (pos : ℕ) :
    Placed list (min pos (dblkSize list)) ↔ Placed list pos := by
  induction list generalizing pos with
  | nil =>
      exact Iff.rfl
  | cons dblk list ih =>
      obtain ⟨h0, hrest⟩ := real_cons.1 hreal
      rw [Placed, Placed, dblkSize_cons h0]
      cases hmore : dblk.more with
      | false =>
          simp only [Bool.false_eq_true, if_false, Nat.add_zero, false_imp_iff, and_true]
          rw [Nat.min_assoc, Nat.min_self]
      | true =>
          have hoffset :
              min (min pos (dblk.size + dblkSize list)) dblk.size = min pos dblk.size := by
            omega
          have hsub : min pos (dblk.size + dblkSize list) - dblk.size =
              min (pos - dblk.size) (dblkSize list) := by omega
          rw [if_pos rfl, hoffset, hsub, forall_prop_of_true rfl, forall_prop_of_true rfl,
            ih (hrest hmore)]

/-! ### `dblk_seek` -/

theorem dblkSeekLoop_cons (dblk : DblkT) (list : List DblkT) (k : ℕ) :
    dblkSeekLoop (dblk :: list) k =
      dblk.setOffset (min k dblk.size) ::
        if dblk.more then dblkSeekLoop list (k - dblk.size) else list := by
  rw [dblkSeekLoop]
  by_cases hlt : k < dblk.size
  · have hmin : min k dblk.size = k := by omega
    have hsub : k - k = k - dblk.size := by omega
    rw [if_pos hlt, hmin]
    dsimp only
    rw [hsub]
    rfl
  · -- the node is passed, and what is left of the offset counts from the next one
    have hmin : min k dblk.size = dblk.size := by omega
    rw [if_neg hlt, hmin]
    rfl

/-- Whatever the offsets are before. -/
theorem dblkSeekLoop_spec {list : List DblkT} (hreal : Real list) (k : ℕ) :
    Real (dblkSeekLoop list k) ∧ bytes (dblkSeekLoop list k) = bytes list ∧
      Placed (dblkSeekLoop list k) k ∧ dblkNext (dblkSeekLoop list k) = dblkNext list := by
  induction list generalizing k with
  | nil =>
      exact ⟨hreal, rfl, trivial, rfl⟩
  | cons dblk list ih =>
      obtain ⟨h0, hrest⟩ := real_cons.1 hreal
      have h0' : (dblk.setOffset (min k dblk.size)).vsize = 0 := h0
      rw [dblkSeekLoop_cons, real_cons, bytes_cons h0', bytes_cons h0, Placed, dblkNext, dblkNext]
      cases hmore : dblk.more with
      | false =>
          simp [hmore, h0]
      | true =>
          simpa [hmore, h0] using ih (hrest hmore) (k - dblk.size)

/-! ### One node between others -/

/-- The bytes in front of a node, when the block goes on up to it. -/
def frontBytes (front : List DblkT) : List Byte :=
  front.flatMap fun dblk => dblk.data

theorem length_frontBytes_cons (dblk : DblkT) (front : List DblkT) :
    (frontBytes (dblk :: front)).length = dblk.size + (frontBytes front).length := by
  rw [frontBytes, List.flatMap_cons, List.length_append]
  rfl

theorem bytes_split {front : List DblkT} (hfront : ∀ x ∈ front, x.more = true)
    {dblk : DblkT} {back : List DblkT} (hreal : Real (front ++ dblk :: back)) :
    dblk.vsize = 0 ∧ (dblk.more = true → Real back) ∧
      bytes (front ++ dblk :: back) =
        frontBytes front ++ (dblk.data ++ if dblk.more then bytes back else []) := by
  induction front with
  | nil =>
      obtain ⟨h0, hrest⟩ := real_cons.1 hreal
      exact ⟨h0, hrest, bytes_cons h0 back⟩
  | cons x front ih =>
      obtain ⟨hx, hfront⟩ := List.forall_mem_cons.1 hfront
      obtain ⟨hx0, hrest⟩ := real_cons.1 hreal
      obtain ⟨h0, hback, hbytes⟩ := ih hfront (hrest hx)
      refine ⟨h0, hback, ?_⟩
      rw [List.cons_append, bytes_cons hx0, if_pos hx, hbytes]
      simp [frontBytes]

theorem dblkNext_split {front : List DblkT} (hfront : ∀ x ∈ front, x.more = true)
    (dblk : DblkT) (back : List DblkT) :
    dblkNext (front ++ dblk :: back) = if dblk.more then dblkNext back else back := by
  induction front with
  | nil =>
      rfl
  | cons x front ih =>
      obtain ⟨hx, hfront⟩ := List.forall_mem_cons.1 hfront
      rw [List.cons_append, dblkNext, if_pos hx, ih hfront]

theorem real_split {front : List DblkT} (hfront : ∀ x ∈ front, x.more = true)
    {dblk dblk' : DblkT} {back : List DblkT} (hvsize : dblk'.vsize = dblk.vsize)
    (hmore : dblk'.more = dblk.more) (hreal : Real (front ++ dblk :: back)) :
    Real (front ++ dblk' :: back) := by
  induction front with
  | nil =>
      obtain ⟨h0, hrest⟩ := real_cons.1 hreal
      exact real_cons.2 ⟨hvsize.trans h0, fun hm => hrest (hmore.symm.trans hm)⟩
  | cons x front ih =>
      obtain ⟨hx, hfront⟩ := List.forall_mem_cons.1 hfront
      obtain ⟨hx0, hrest⟩ := real_cons.1 hreal
      exact real_cons.2 ⟨hx0, fun _ => ih hfront (hrest hx)⟩

/-- The position moves on within the node that it is in. -/
theorem placed_split {front : List DblkT} (hfront : ∀ x ∈ front, x.more = true)
    {dblk dblk' : DblkT} {back : List DblkT} {n : ℕ} (hmore : dblk'.more = dblk.more)
    (hsize : dblk'.size = dblk.size) (hoffset : dblk'.offset = dblk.offset + n)
    (hle : dblk.offset + n ≤ dblk.size)
    (hplaced : Placed (front ++ dblk :: back) ((frontBytes front).length + dblk.offset)) :
    Placed (front ++ dblk' :: back) ((frontBytes front).length + dblk.offset + n) := by
  induction front with
  | nil =>
      obtain ⟨-, hback⟩ := hplaced
      have hzero : (frontBytes []).length = 0 := rfl
      refine ⟨?_, fun hm => ?_⟩
      · omega
      · have hsub : (frontBytes []).length + dblk.offset + n - dblk'.size =
            (frontBytes []).length + dblk.offset - dblk.size := by omega
        rw [hsub]
        exact hback (hmore.symm.trans hm)
  | cons x front ih =>
      obtain ⟨hx, hfront⟩ := List.forall_mem_cons.1 hfront
      obtain ⟨hxoffset, hrest⟩ := hplaced
      have hlen := length_frontBytes_cons x front
      have hsub : (frontBytes (x :: front)).length + dblk.offset - x.size =
          (frontBytes front).length + dblk.offset := by omega
      have hsub' : (frontBytes (x :: front)).length + dblk.offset + n - x.size =
          (frontBytes front).length + dblk.offset + n := by omega
      refine ⟨by omega, fun _ => ?_⟩
      rw [hsub']
      exact ih hfront (hsub ▸ hrest hx)

/-! ### `dblk_write`, `dblk_read` -/

section Transfer

variable (copy : DblkT → List Byte → ℕ → DblkT × List Byte)

/-- With nothing left to do or nowhere to do it, the loop does nothing. -/
theorem transferLoop_idle {list : List DblkT} {size doneSize : ℕ} (mem : List Byte)
    (h : size ≤ doneSize ∨ unreadSize list = 0) :
    transferLoop copy list mem size doneSize = (list, mem, doneSize) := by
  induction list with
  | nil =>
      rfl
  | cons dblk list ih =>
      rw [transferLoop]
      by_cases hlt : doneSize < size
      · -- every node of the block is at its end
        have hzero := h.resolve_left (Nat.not_le.2 hlt)
        rw [unreadSize] at hzero
        have hnode : ¬ 0 < dblk.size - dblk.offset := by omega
        rw [if_pos hlt]
        dsimp only
        rw [if_neg hnode]
        cases hmore : dblk.more with
        | false =>
            rfl
        | true =>
            rw [if_pos hmore] at hzero
            simp [ih (Or.inr (by omega))]
      · rw [if_neg hlt]

/-- A node that has been passed is left as it is. -/
theorem transferLoop_passed {dblk : DblkT} (hmore : dblk.more = true)
    (hpassed : dblk.size ≤ dblk.offset) (list : List DblkT) (mem : List Byte) {size : ℕ}
    (hsize : 0 < size) :
    transferLoop copy (dblk :: list) mem size 0 =
      (dblk :: (transferLoop copy list mem size 0).1, (transferLoop copy list mem size 0).2) := by
  have hnode : ¬ 0 < dblk.size - dblk.offset := by omega
  rw [transferLoop, if_pos hsize]
  dsimp only
  rw [if_neg hnode, if_pos hmore]

/-- The whole transfer takes place in the first node. -/
theorem transferLoop_here {dblk : DblkT} (hnode : dblk.offset < dblk.size) (list : List DblkT)
    (mem : List Byte) {size n : ℕ} (hsize : 0 < size) (hn : n = min size (dblk.size - dblk.offset))
    (hend : dblk.more = true → size ≤ n ∨ unreadSize list = 0) :
    transferLoop copy (dblk :: list) mem size 0 =
      ((copy dblk mem n).1.setOffset (dblk.offset + n) :: list, (copy dblk mem n).2, n) := by
  have hmin : (if size < dblk.size - dblk.offset then size else dblk.size - dblk.offset) = n := by
    split <;> omega
  have hpos : 0 < dblk.size - dblk.offset := Nat.sub_pos_of_lt hnode
  rw [transferLoop, if_pos hsize]
  dsimp only
  rw [if_pos hpos, hmin, Nat.zero_add]
  cases hmore : dblk.more with
  | false =>
      rfl
  | true =>
      rw [if_pos rfl, transferLoop_idle copy _ (hend hmore)]
      rfl

/-- A transfer that stays within one node: which node it is, and what becomes of it. -/
theorem transferLoop_within {list : List DblkT} (hreal : Real list) {pos size n : ℕ}
    (hplaced : Placed list pos) (hsize : 0 < size) (hroom : pos < dblkSize list)
    (hn : n = min size (dblkSize list - pos)) (hwithin : Within list size) (mem : List Byte) :
    ∃ front dblk back, list = front ++ dblk :: back ∧ (∀ x ∈ front, x.more = true) ∧
      (frontBytes front).length + dblk.offset = pos ∧ dblk.offset + n ≤ dblk.size ∧
      transferLoop copy list mem size 0 =
        (front ++ (copy dblk mem n).1.setOffset (dblk.offset + n) :: back,
          (copy dblk mem n).2, n) := by
  induction list generalizing pos with
  | nil =>
      exact absurd hroom (Nat.not_lt_zero pos)
  | cons dblk list ih =>
      obtain ⟨h0, hrest⟩ := real_cons.1 hreal
      obtain ⟨hoffset, hlist⟩ := hplaced
      rw [dblkSize_cons h0] at hroom hn
      rw [Within, firstUnread, unreadSize] at hwithin
      by_cases hhere : dblk.offset < dblk.size
      · -- the transfer starts in this node
        have hoffset' : dblk.offset = pos := by omega
        rw [if_pos hhere] at hwithin
        -- what follows has nothing to offer, or the transfer does not need it
        have hend : dblk.more = true →
            size ≤ dblk.size - dblk.offset ∨ unreadSize list = 0 ∧ dblkSize list = 0 := by
          intro hmore
          have hunread := unreadSize_eq (hrest hmore) (hlist hmore)
          rw [if_pos hmore] at hwithin
          omega
        have hn' : n = min size (dblk.size - dblk.offset) := by
          cases hmore : dblk.more with
          | false =>
              simp only [hmore, Bool.false_eq_true, if_false] at hn
              omega
          | true =>
              rw [if_pos hmore] at hn
              rcases hend hmore with hle | ⟨-, hzero⟩ <;> omega
        refine ⟨[], dblk, list, rfl, by simp, ?_, by omega, ?_⟩
        · exact (Nat.zero_add _).trans hoffset'
        · refine transferLoop_here copy hhere list mem hsize hn' fun hmore => ?_
          rcases hend hmore with hle | ⟨hzero, -⟩
          · exact Or.inl (by omega)
          · exact Or.inr hzero
      · -- the position lies behind this node, so the block goes on
        have hpassed : dblk.size ≤ dblk.offset := Nat.not_lt.1 hhere
        have hmore : dblk.more = true := by
          by_contra hmore
          rw [if_neg hmore] at hroom
          omega
        rw [if_pos hmore] at hroom hn
        rw [if_neg hhere, if_pos hmore, if_pos hmore] at hwithin
        obtain ⟨front, d, back, rfl, hfront, hpos, hle, hloop⟩ :=
          ih (hrest hmore) (hlist hmore) (by omega) (by omega)
            (hwithin.imp_right fun heq => by omega)
        refine ⟨dblk :: front, d, back, rfl, List.forall_mem_cons.2 ⟨hmore, hfront⟩, ?_, hle, ?_⟩
        · have hlen := length_frontBytes_cons dblk front
          omega
        · rw [transferLoop_passed copy hmore hpassed _ mem hsize, hloop]
          rfl

end Transfer

/-! ## The block and the file -/

/-- A block none of whose bytes has been passed is a file at its start. -/
theorem represents_ofList {list : List DblkT} (hreal : Real list)
    (hoffset : ∀ dblk ∈ firstBlock list, dblk.offset = 0) :
    Represents list (File.ofList (bytes list)) :=
  { real := hreal
    contents := rfl
    placed := (placed_zero_iff list).2 hoffset }

theorem Represents.room {list : List DblkT} {f : File Byte} (h : Represents list f) :
    f.room = dblkSize list - f.pos := by
  rw [File.room, ← h.contents, h.real.length_bytes]

theorem represents_dblkSeek {list : List DblkT} {f : File Byte} (h : Represents list f) (k : ℕ) :
    Represents (dblkSeek list k).1 (f.seek k) ∧ dblkNext (dblkSeek list k).1 = dblkNext list := by
  obtain ⟨hreal, hbytes, hplaced, hnext⟩ := dblkSeekLoop_spec h.real k
  refine ⟨{ real := hreal, contents := hbytes.trans h.contents, placed := ?_ }, hnext⟩
  have hsize : dblkSize (dblkSeekLoop list k) = f.contents.length := by
    rw [← hreal.length_bytes, hbytes, h.contents]
  rw [File.pos_seek, ← hsize]
  exact (placed_min hreal k).2 hplaced

/-- A transfer that moves nothing. -/
theorem transferLoop_nothing (copy : DblkT → List Byte → ℕ → DblkT × List Byte)
    {list : List DblkT} {f : File Byte} (h : Represents list f) (mem : List Byte) {size : ℕ}
    (hn : min size f.room = 0) : transferLoop copy list mem size 0 = (list, mem, 0) := by
  refine transferLoop_idle copy mem ?_
  rw [unreadSize_eq h.real h.placed, ← h.room]
  exact (Nat.min_eq_zero_iff.1 hn).imp_left Nat.le_of_eq

/-- The block after a transfer in one of its nodes, whose bytes are `data` then. -/
theorem moved_spec {front : List DblkT} {dblk : DblkT} {back : List DblkT} {f : File Byte}
    (h : Represents (front ++ dblk :: back) f) (hfront : ∀ x ∈ front, x.more = true)
    (hpos : (frontBytes front).length + dblk.offset = f.pos) {n : ℕ}
    (hle : dblk.offset + n ≤ dblk.size) {data : List Byte} (hdata : data.length = dblk.size) :
    let list := front ++ (dblk.setData data).setOffset (dblk.offset + n) :: back
    let rest := if dblk.more then bytes back else []
    Real list ∧ f.contents = frontBytes front ++ (dblk.data ++ rest) ∧
      bytes list = frontBytes front ++ (data ++ rest) ∧ Placed list (f.pos + n) ∧
      dblkNext list = dblkNext (front ++ dblk :: back) := by
  obtain ⟨dblk', hdblk'⟩ : ∃ d, d = (dblk.setData data).setOffset (dblk.offset + n) := ⟨_, rfl⟩
  have hmore : dblk'.more = dblk.more := by rw [hdblk']; rfl
  have hvsize : dblk'.vsize = dblk.vsize := by rw [hdblk']; rfl
  have hsize : dblk'.size = dblk.size := by rw [hdblk']; exact hdata
  have hoffset : dblk'.offset = dblk.offset + n := by rw [hdblk']; rfl
  have hbytes : dblk'.data = data := by rw [hdblk']; rfl
  have hreal : Real (front ++ dblk' :: back) := real_split hfront hvsize hmore h.real
  obtain ⟨-, -, hold⟩ := bytes_split hfront h.real
  obtain ⟨-, -, hnew⟩ := bytes_split hfront hreal
  rw [hbytes, hmore] at hnew
  dsimp only
  rw [← hdblk']
  refine ⟨hreal, h.contents.symm.trans hold, hnew, ?_, ?_⟩
  · rw [← hpos]
    exact placed_split hfront hmore hsize hoffset hle (hpos ▸ h.placed)
  · rw [dblkNext_split hfront, dblkNext_split hfront, hmore]

theorem represents_dblkWrite {list : List DblkT} {f : File Byte} (h : Represents list f)
    (mem : List Byte) {size : ℕ} (hwithin : Within list size) :
    Represents (dblkWrite list mem size).1 (f.write (memRead mem size)).1 ∧
      (dblkWrite list mem size).2 = (mem, (f.write (memRead mem size)).2) ∧
      dblkNext (dblkWrite list mem size).1 = dblkNext list := by
  obtain ⟨n, hn⟩ : ∃ n, n = min size f.room := ⟨_, rfl⟩
  have hsnd : (f.write (memRead mem size)).2 = n := by
    rw [File.snd_write, length_memRead, hn]
  have hcontents : (f.write (memRead mem size)).1.contents =
      File.splice f.contents f.pos (memRead mem n) := by
    rw [File.contents_write, length_memRead, ← hn, take_memRead mem (hn ▸ Nat.min_le_left _ _)]
  have hposition : (f.write (memRead mem size)).1.pos = f.pos + n := by
    rw [File.pos_write, length_memRead, hn]
  rw [hsnd]
  by_cases h0 : n = 0
  · rw [dblkWrite, transferLoop_nothing copyIn h mem (hn ▸ h0)]
    refine ⟨{ real := h.real, contents := ?_, placed := ?_ }, by rw [h0], rfl⟩
    · rw [hcontents, h0, h.contents]
      exact (File.splice_nil f.contents f.pos).symm
    · rw [hposition, h0]
      exact h.placed
  · -- on the file, the bytes go to the place where the node with the position has them
    have hroom := h.room
    obtain ⟨front, dblk, back, rfl, hfront, hpos, hle, hloop⟩ :=
      transferLoop_within copyIn h.real h.placed (by omega) (by omega) (hroom ▸ hn) hwithin mem
    have hlen : dblk.offset + (memRead mem n).length ≤ dblk.data.length := by
      rw [length_memRead]
      exact hle
    have hcopy : copyIn dblk mem n =
        (dblk.setData (File.splice dblk.data dblk.offset (memRead mem n)), mem) := by
      rw [File.splice, length_memRead]
      rfl
    obtain ⟨hreal, hold, hnew, hplaced, hnext⟩ :=
      moved_spec h hfront hpos hle (File.length_splice hlen)
    rw [dblkWrite, hloop, hcopy]
    refine ⟨{ real := hreal, contents := ?_, placed := ?_ }, rfl, hnext⟩
    · rw [hcontents, hold, ← hpos, File.splice_append _ _ _ _ hlen]
      exact hnew
    · rw [hposition]
      exact hplaced

theorem represents_dblkRead {list : List DblkT} {f : File Byte} (h : Represents list f)
    (mem : List Byte) {size : ℕ} (hwithin : Within list size) :
    Represents (dblkRead list mem size).1 (f.read size).1 ∧
      (dblkRead list mem size).2 = (memWrite mem (f.read size).2, (f.read size).2.length) ∧
      dblkNext (dblkRead list mem size).1 = dblkNext list := by
  obtain ⟨n, hn⟩ : ∃ n, n = min size f.room := ⟨_, rfl⟩
  rw [File.length_snd_read, File.snd_read, ← hn]
  by_cases h0 : n = 0
  · rw [dblkRead, transferLoop_nothing copyOut h mem (hn ▸ h0), h0]
    refine ⟨{ real := h.real, contents := h.contents, placed := ?_ }, rfl, rfl⟩
    rw [File.pos_read, ← hn, h0]
    exact h.placed
  · have hroom := h.room
    obtain ⟨front, dblk, back, rfl, hfront, hpos, hle, hloop⟩ :=
      transferLoop_within copyOut h.real h.placed (by omega) (by omega) (hroom ▸ hn) hwithin mem
    obtain ⟨hreal, hold, hnew, hplaced, hnext⟩ :=
      moved_spec h hfront hpos hle (show dblk.data.length = dblk.size from rfl)
    -- what stands at the position is in the node
    have hread : (f.contents.drop f.pos).take n = (dblk.data.drop dblk.offset).take n := by
      have hlen : n ≤ (dblk.data.drop dblk.offset).length := by
        rw [List.length_drop]
        exact Nat.le_sub_of_add_le' hle
      have hoffset : dblk.offset ≤ dblk.data.length := Nat.le_trans (Nat.le_add_right _ n) hle
      rw [hold, ← hpos, List.drop_length_add_append, List.drop_append_of_le_length hoffset,
        List.take_append_of_le_length hlen]
    rw [dblkRead, hloop, hread]
    refine ⟨{ real := hreal, contents := ?_, placed := ?_ }, rfl, hnext⟩
    · exact hnew.trans hold.symm
    · rw [File.pos_read, ← hn]
      exact hplaced

/-- One call. -/
theorem represents_call {list : List DblkT} {f : File Byte} (h : Represents list f) (c : Call)
    (hc : CallWithin list c) :
    Represents (call list c).1 (fileCall f c).1 ∧ (call list c).2 = (fileCall f c).2 ∧
      dblkNext (call list c).1 = dblkNext list := by
  cases c with
  | seek offset =>
      obtain ⟨hrep, hnext⟩ := represents_dblkSeek h offset
      exact ⟨hrep, rfl, hnext⟩
  | write mem size =>
      exact represents_dblkWrite h mem hc
  | read mem size =>
      exact represents_dblkRead h mem hc

/-- Calls whose transfers stay within a node each: the block gives the answers of the file, stands
for what becomes of the file, and what follows the block stays as it was. -/
theorem answers_call_eq_fileCall {list : List DblkT} {f : File Byte} (h : Represents list f)
    {calls : List Call} (hcalls : Along (stateOf call) CallWithin list calls) :
    answers call list calls = answers fileCall f calls ∧
      Represents (run (stateOf call) list calls) (run (stateOf fileCall) f calls) ∧
      dblkNext (run (stateOf call) list calls) = dblkNext list := by
  have hstep : ∀ l g c, (Represents l g ∧ dblkNext l = dblkNext list) → CallWithin l c →
      (Represents (call l c).1 (fileCall g c).1 ∧ dblkNext (call l c).1 = dblkNext list) ∧
        (call l c).2 = (fileCall g c).2 := by
    rintro l g c ⟨hrep, hnext⟩ hc
    obtain ⟨hrep', hanswer, hnext'⟩ := represents_call hrep c hc
    exact ⟨⟨hrep', hnext'.trans hnext⟩, hanswer⟩
  obtain ⟨hanswers, hrep, hnext⟩ := answers_eq_of_simulation hstep ⟨h, rfl⟩ hcalls
  exact ⟨hanswers, hrep, hnext⟩

/-- Two nodes: three bytes are written into the second one, and one is read from the first. -/
theorem answers_call_sample :
    answers call
        [⟨⟨[1, 2], 0, []⟩, false, true, true, 0⟩, ⟨⟨[3, 4, 5], 0, []⟩, false, true, false, 0⟩]
        [.seek 2, .write [7, 8, 9] 3, .seek 1, .read [0] 1] =
      [([], 1), ([7, 8, 9], 3), ([], 1), ([2], 1)] := by
  have hrep : Represents
      [⟨⟨[1, 2], 0, []⟩, false, true, true, 0⟩, ⟨⟨[3, 4, 5], 0, []⟩, false, true, false, 0⟩]
      (File.ofList [1, 2, 3, 4, 5]) :=
    represents_ofList (by decide) (by decide)
  refine (answers_call_eq_fileCall hrep ?_).1.trans (by decide)
  exact ⟨trivial, by decide, trivial, by decide, trivial⟩

/-- Three bytes are written over two nodes of two bytes each: four are, and the first two of them
twice. -/
theorem dblkWrite_restarts_sample :
    Represents [⟨⟨[0, 0], 0, []⟩, false, true, true, 0⟩, ⟨⟨[0, 0], 0, []⟩, false, true, false, 0⟩]
        (File.ofList [0, 0, 0, 0]) ∧
      (fileCall (File.ofList [0, 0, 0, 0]) (.write [1, 2, 3] 3)).2 = ([1, 2, 3], 3) ∧
      (call [⟨⟨[0, 0], 0, []⟩, false, true, true, 0⟩, ⟨⟨[0, 0], 0, []⟩, false, true, false, 0⟩]
        (.write [1, 2, 3] 3)).2 = ([1, 2, 3], 4) ∧
      bytes (call
        [⟨⟨[0, 0], 0, []⟩, false, true, true, 0⟩, ⟨⟨[0, 0], 0, []⟩, false, true, false, 0⟩]
        (.write [1, 2, 3] 3)).1 = [1, 2, 1, 2] :=
  ⟨represents_ofList (by decide) (by decide), by decide, by decide, by decide⟩

end Linked
end Dblk
end DtsNet
