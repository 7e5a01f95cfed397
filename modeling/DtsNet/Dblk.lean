import Mathlib.Data.List.Basic
import Mathlib.Data.List.TakeDrop
import Mathlib.Data.UInt

/-!
# Dblk — data blocks

A `dblk_t` list is a chain of nodes in which the `more` flag joins neighbouring nodes into one
logical block.  Here a `Node` is one real-memory node and a `Block` is the list of the nodes of
one block, so `more` is set on every node of a `Block` but its last.  A queue of blocks is a list
of `Block`s.

C memory is a list of bytes that starts where the pointer points.
-/

namespace DtsNet

abbrev Byte := UInt8

namespace Dblk

/-! ## Nodes and blocks -/

/-- A node that owns `data.length` bytes; `offset` is the position of `dblk_seek`, `dblk_read` and
`dblk_write`. -/
structure Node where
  data : List Byte
  offset : ℕ
  deriving DecidableEq, Repr

abbrev Block := List Node

def Node.size (n : Node) : ℕ :=
  n.data.length

/-- The bytes behind the read position. -/
def Node.unread (n : Node) : List Byte :=
  n.data.drop n.offset

def Block.bytes (b : Block) : List Byte :=
  b.flatMap Node.data

def Block.unread (b : Block) : List Byte :=
  b.flatMap Node.unread

def dblkSize (b : Block) : ℕ :=
  (b.map Node.size).sum

theorem dblkSize_eq_length_bytes (b : Block) : dblkSize b = b.bytes.length := by
  simp only [dblkSize, Block.bytes, List.length_flatMap]
  rfl

/-! ## Memory -/

/-- The `n` bytes at a pointer; what lies behind the modelled memory reads as zero. -/
def memRead (mem : List Byte) (n : ℕ) : List Byte :=
  mem.takeD n 0

/-- `memcpy(mem, bs, |bs|)`. -/
def memWrite (mem bs : List Byte) : List Byte :=
  bs ++ mem.drop bs.length

@[simp] theorem length_memRead (mem : List Byte) (n : ℕ) : (memRead mem n).length = n := by
  simp [memRead]

theorem memRead_eq_take {mem : List Byte} {n : ℕ} (h : n ≤ mem.length) :
    memRead mem n = mem.take n := by
  exact List.takeD_eq_take _ h

theorem memRead_append_left {mem : List Byte} {n : ℕ} (h : n ≤ mem.length) (rest : List Byte) :
    memRead (mem ++ rest) n = mem.take n := by
  rw [memRead_eq_take (by simp; omega), List.take_append_of_le_length h]

/-- Reading so much memory as there is. -/
theorem memRead_append_of_length {mem : List Byte} {n : ℕ} (h : mem.length = n)
    (rest : List Byte) : memRead (mem ++ rest) n = mem := by
  rw [memRead_append_left (Nat.le_of_eq h.symm), List.take_of_length_le (Nat.le_of_eq h)]

theorem memRead_of_length {mem : List Byte} {n : ℕ} (h : mem.length = n) : memRead mem n = mem := by
  rw [memRead_eq_take (Nat.le_of_eq h.symm), List.take_of_length_le (Nat.le_of_eq h)]

theorem memRead_memWrite (mem bs : List Byte) : memRead (memWrite mem bs) bs.length = bs :=
  memRead_append_of_length rfl _

theorem memRead_append_right {bs : List Byte} {n : ℕ} (h : bs.length ≤ n) (rest : List Byte) :
    memRead (bs ++ rest) n = bs ++ memRead rest (n - bs.length) := by
  induction bs generalizing n with
  | nil =>
      simp
  | cons b bs ih =>
      cases n with
      | zero =>
          simp at h
      | succ n =>
          have hle : bs.length ≤ n := by simpa using h
          simpa [memRead] using ih hle

theorem take_memRead (mem : List Byte) {n size : ℕ} (h : n ≤ size) :
    (memRead mem size).take n = memRead mem n := by
  induction n generalizing mem size with
  | zero =>
      simp [memRead]
  | succ n ih =>
      obtain ⟨size, rfl⟩ := Nat.exists_eq_add_of_le' (Nat.lt_of_lt_of_le (Nat.succ_pos n) h)
      have hle : n ≤ size := Nat.le_of_succ_le_succ h
      cases mem with
      | nil =>
          simpa [memRead, List.takeD] using hle
      | cons b mem =>
          simpa [memRead, List.takeD] using ih mem hle

theorem getD_drop (mem : List Byte) (i k : ℕ) : (mem.drop i).getD k 0 = mem.getD (i + k) 0 := by
  rw [List.getD_eq_getElem?_getD, List.getElem?_drop, ← List.getD_eq_getElem?_getD]

/-- Reading from a place on is reading from the start and leaving out what lies before it. -/
theorem drop_memRead (mem : List Byte) (i n : ℕ) :
    (memRead mem (i + n)).drop i = memRead (mem.drop i) n := by
  induction i generalizing mem with
  | zero =>
      simp
  | succ i ih =>
      rw [Nat.succ_add]
      cases mem with
      | nil =>
          simp [memRead, List.takeD]
      | cons b mem =>
          simpa [memRead, List.takeD] using ih mem

/-! ## `dblk_node_new_with_buff`, `dblk_copy_from`, `dblk_read` -/

/-- The fresh buffer's bytes are overwritten before they are read, so they are taken to be zero.
The node's `size` field is a `uint16_t`. -/
def dblkNodeNewWithBuff (size : ℕ) : Node :=
  { data := List.replicate (size % 65536) 0
    offset := 0 }

/-- Copies `mem[0..size)` into the nodes of the block, as far as they hold it. -/
def dblkCopyFrom : Block → List Byte → ℕ → Block
  | [], _, _ => []
  | n :: b, mem, size =>
      let doSize := if n.size < size then n.size else size
      let n' := { n with data := memWrite n.data (memRead mem doSize) }
      if size - doSize = 0 then
        n' :: b
      else
        n' :: dblkCopyFrom b (mem.drop doSize) (size - doSize)

/-- The loop of `dblk_read`: `mem` is written from its start by every node. -/
def dblkReadLoop : Block → List Byte → ℕ → ℕ → Block × List Byte × ℕ
  | [], mem, _, doneSize => ([], mem, doneSize)
  | n :: b, mem, size, doneSize =>
      if doneSize < size then
        let doSize := n.size - n.offset
        if 0 < doSize then
          let doSize := if size < doSize then size else doSize
          let mem := memWrite mem (n.unread.take doSize)
          let n := { n with offset := n.offset + doSize }
          let r := dblkReadLoop b mem size (doneSize + doSize)
          (n :: r.1, r.2)
        else
          let r := dblkReadLoop b mem size doneSize
          (n :: r.1, r.2)
      else
        (n :: b, mem, doneSize)

/-- The block after the read, the memory read into, and the number of bytes read. -/
def dblkRead (b : Block) (mem : List Byte) (size : ℕ) : Block × List Byte × ℕ :=
  dblkReadLoop b mem size 0

/-! ## What they do on one node -/

theorem dblkCopyFrom_new (mem : List Byte) (size : ℕ) :
    dblkCopyFrom [dblkNodeNewWithBuff size] mem size =
      [{ data := memRead mem (size % 65536), offset := 0 }] := by
  have hle : size % 65536 ≤ size := Nat.mod_le _ _
  by_cases h : size % 65536 < size
  · have h0 : size - size % 65536 ≠ 0 := by omega
    simp [dblkCopyFrom, dblkNodeNewWithBuff, Node.size, memWrite, h, h0]
  · have heq : size % 65536 = size := by omega
    simp [dblkCopyFrom, dblkNodeNewWithBuff, Node.size, memWrite, heq]

theorem dblkRead_single (n : Node) (mem : List Byte) {size : ℕ} (hsize : 0 < size) :
    dblkRead [n] mem size =
      ([{ n with offset := n.offset + min size n.unread.length }],
        memWrite mem (n.unread.take size), min size n.unread.length) := by
  have hlen : n.size - n.offset = n.unread.length := by
    simp [Node.size, Node.unread]
  by_cases h0 : 0 < n.unread.length
  · by_cases h : size < n.unread.length
    · simp [dblkRead, dblkReadLoop, hsize, hlen, h0, h, Nat.le_of_lt h]
    · have hmin : min size n.unread.length = n.unread.length := by omega
      have htake : n.unread.take size = n.unread := List.take_of_length_le (by omega)
      simp [dblkRead, dblkReadLoop, hsize, hlen, h0, h, hmin, htake]
  · have hnil : n.unread = [] := List.eq_nil_of_length_eq_zero (by omega)
    simp [dblkRead, dblkReadLoop, hsize, hlen, hnil, memWrite]

end Dblk

end DtsNet
