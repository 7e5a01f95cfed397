import DtsNet.Dblk
import Mathlib.Algebra.Order.Floor.Div

/-!
# Fragment — virtual nodes and `dblk_fragment`

`dblk_fragment` cuts the first block of a list into fragments without copying a byte.  A fragment
is one virtual node: it starts inside a node of the block and goes on, through `vmem`, in the
nodes behind it, for `vsize` bytes in total.
-/

namespace DtsNet
namespace Dblk

/-! ## Virtual nodes -/

/-- A node with its virtual memory: `vsize` is zero for a real-memory node, and `vmem` is the list
of nodes from the node it points to on. -/
structure VNode where
  data : List Byte
  vsize : ℕ
  vmem : List Node
  deriving DecidableEq, Repr

def VNode.size (n : VNode) : ℕ :=
  n.data.length

/-- `dblk_node_init` for `size` bytes at `data`. -/
def dblkNodeInit (data : List Byte) : VNode :=
  { data := data, vsize := 0, vmem := [] }

/-- A real-memory node of a block. -/
def Node.toVNode (n : Node) : VNode :=
  dblkNodeInit n.data

def dblkNodeSize (n : VNode) : ℕ :=
  if n.vsize ≠ 0 then n.vsize else n.size

/-- `dblk_size` of a block that may hold virtual nodes. -/
def dblkVSize (b : List VNode) : ℕ :=
  (b.map dblkNodeSize).sum

/-- The bytes that a node stands for. -/
def VNode.bytes (n : VNode) : List Byte :=
  if n.vsize ≠ 0 then (n.data ++ n.vmem.flatMap Node.data).take n.vsize else n.data

def vbytes (b : List VNode) : List Byte :=
  b.flatMap VNode.bytes

@[simp] theorem bytes_init (data : List Byte) : (dblkNodeInit data).bytes = data := rfl

@[simp] theorem vbytes_cons (n : VNode) (b : List VNode) :
    vbytes (n :: b) = n.bytes ++ vbytes b := rfl

theorem vbytes_toVNode (b : Block) : vbytes (b.map Node.toVNode) = b.bytes := by
  induction b with
  | nil =>
      rfl
  | cons n b ih =>
      simp [Node.toVNode, ih, Block.bytes]

theorem length_bytes_le (n : VNode) : n.bytes.length ≤ dblkNodeSize n := by
  by_cases h : n.vsize ≠ 0
  · simp only [VNode.bytes, dblkNodeSize, if_pos h, List.length_take]
    exact Nat.min_le_left _ _
  · simp [VNode.bytes, dblkNodeSize, h, VNode.size]

/-! ## The list of a block -/

/-- The nodes of a list, each with its `more` flag. -/
abbrev Chain := List (Node × Bool)

/-- The nodes of one block: `more` is set on all but the last. -/
def blockChain : Block → Chain
  | [] => []
  | [n] => [(n, false)]
  | n :: m :: b => (n, true) :: blockChain (m :: b)

def listChain (blocks : List Block) : Chain :=
  blocks.flatMap blockChain

theorem blockChain_map_fst (b : Block) : (blockChain b).map Prod.fst = b := by
  induction b using blockChain.induct with
  | case1 =>
      rfl
  | case2 n =>
      rfl
  | case3 n m b ih =>
      simp [blockChain, ih]

/-- `dblk_size` of the first block of the list. -/
def dblkChainSize : Chain → ℕ
  | [] => 0
  | (n, more) :: c => n.size + if more then dblkChainSize c else 0

theorem dblkChainSize_blockChain (b : Block) : dblkChainSize (blockChain b) = b.bytes.length := by
  rw [← dblkSize_eq_length_bytes]
  induction b using blockChain.induct with
  | case1 =>
      rfl
  | case2 n =>
      simp [blockChain, dblkChainSize, dblkSize]
  | case3 n m b ih =>
      simp [blockChain, dblkChainSize, dblkSize, ih]

/-! ## `dblk_fragment` -/

/-- The inner loop: from the node behind the fragment's first one, over the nodes that the fragment
takes in whole.  The loop also ends on the last node of the block, where it has already taken the
node's size off. -/
def skipNodes : Chain → ℕ → Chain × ℕ
  | [], remainSize => ([], remainSize)
  | (f, more) :: c, remainSize =>
      -- `remain_size -= f->size` comes before the test for the end of the block
      if f.size < remainSize then
        if more then skipNodes c (remainSize - f.size)
        else ((f, more) :: c, remainSize - f.size)
      else
        ((f, more) :: c, remainSize)

/-- `dblk_node_new(NULL, 0)`. -/
def emptyNode : VNode :=
  dblkNodeInit []

/-- The outer loop, over the `n` fragments that are left; `offset` is the position in the first
node of the chain.  The fields of a node are 16 bits wide. -/
def fragmentLoop (fsize : ℕ) : ℕ → Chain → ℕ → List VNode
  | 0, _, _ => []
  | n + 1, [], _ => List.replicate (n + 1) emptyNode
  | n + 1, (dblk, more) :: c, offset =>
      let size := (UInt16.ofNat dblk.size - UInt16.ofNat offset).toNat
      let data := memRead (dblk.data.drop offset) size
      let vsize := UInt16.ofNat fsize
      -- the node goes on behind this fragment, ends inside it, or ends with it
      if offset + fsize < dblk.size then
        { data := data, vsize := vsize.toNat, vmem := [] } ::
          fragmentLoop fsize n ((dblk, more) :: c) (offset + fsize)
      else if dblk.size < offset + fsize then
        let remainSize := offset + fsize - dblk.size
        let f := skipNodes c remainSize
        let vsize := if f.1 = [] then vsize - UInt16.ofNat f.2 else vsize
        { data := data, vsize := vsize.toNat, vmem := c.map Prod.fst } ::
          fragmentLoop fsize n f.1 f.2
      else
        { data := data, vsize := vsize.toNat, vmem := [] } :: fragmentLoop fsize n c 0

/-- The fragments, each a block of its own; every `dblk_node_new` succeeds. -/
def dblkFragment (list : Chain) (fsize : ℕ) : List VNode :=
  match list with
  | [] => []
  | (dblk, _) :: _ =>
      if dblk.size = 0 then
        []
      else
        let lgbSize := dblkChainSize list
        let fgCnt := lgbSize / fsize + if 0 < lgbSize % fsize then 1 else 0
        fragmentLoop fsize fgCnt list 0

theorem dblkFragment_cons {n : Node} (hn : n.size ≠ 0) (more : Bool) (c : Chain) (fsize : ℕ) :
    dblkFragment ((n, more) :: c) fsize =
      fragmentLoop fsize (dblkChainSize ((n, more) :: c) / fsize +
        if 0 < dblkChainSize ((n, more) :: c) % fsize then 1 else 0) ((n, more) :: c) 0 := by
  simp [dblkFragment, hn]

/-- The size of the node a block begins with. -/
def headSize : Block → ℕ
  | [] => 0
  | n :: _ => n.size

theorem dblkFragment_of_headSize_eq_zero {b : Block} (h : headSize b = 0) (fsize : ℕ) :
    dblkFragment (blockChain b) fsize = [] := by
  cases b with
  | nil =>
      rfl
  | cons n b =>
      have hn : n.size = 0 := h
      cases b <;> simp [blockChain, dblkFragment, hn]

/-! ## The sizes of the fragments -/

/-- The position where the next fragment starts, when the block goes on that far. -/
theorem skipNodes_spec {c : Chain} {remainSize : ℕ} (hpos : 0 < remainSize)
    (hle : remainSize ≤ dblkChainSize c) :
    ∃ f more c', (skipNodes c remainSize).1 = (f, more) :: c' ∧
      (skipNodes c remainSize).2 ≤ f.size ∧
      dblkChainSize ((f, more) :: c') - (skipNodes c remainSize).2 =
        dblkChainSize c - remainSize := by
  -- a node that is taken in whole shortens the chain and what remains by the same size
  induction c generalizing remainSize with
  | nil =>
      simp only [dblkChainSize] at hle
      omega
  | cons f c ih =>
      rcases f with ⟨f, more⟩
      by_cases hsize : f.size < remainSize
      · cases more with
        | true =>
            have hle' : remainSize - f.size ≤ dblkChainSize c := by
              simp only [dblkChainSize, if_true] at hle
              omega
            obtain ⟨f', more', c', hf, hoff, hrest⟩ := ih (by omega) hle'
            refine ⟨f', more', c', ?_, ?_, ?_⟩
            · simpa [skipNodes, hsize] using hf
            · simpa [skipNodes, hsize] using hoff
            · simp only [skipNodes, hsize, if_true, hrest]
              simp only [dblkChainSize, if_true]
              omega
        | false =>
            -- the block ends here, and is long enough
            simp only [dblkChainSize, Bool.false_eq_true, if_false] at hle
            omega
      · refine ⟨f, more, c, ?_, ?_, ?_⟩
        · simp [skipNodes, hsize]
        · simp only [skipNodes, hsize, if_false]
          omega
        · simp [skipNodes, hsize]

theorem length_fragmentLoop (fsize n : ℕ) (c : Chain) (offset : ℕ) :
    (fragmentLoop fsize n c offset).length = n := by
  induction n generalizing c offset with
  | zero =>
      simp [fragmentLoop]
  | succ n ih =>
      cases c with
      | nil =>
          simp [fragmentLoop]
      | cons d c =>
          simp only [fragmentLoop]
          split
          · simp [ih]
          · split <;> simp [ih]

/-- Something holds before the last element if it holds of the head and before the last element of
a tail that is not empty. -/
theorem forall_mem_dropLast_cons {α : Type} {P : α → Prop} {v : α} {vs : List α}
    (hlen : vs.length ≠ 0) (hv : P v) (hvs : ∀ w ∈ vs.dropLast, P w) :
    ∀ w ∈ (v :: vs).dropLast, P w := by
  cases vs with
  | nil =>
      exact absurd rfl hlen
  | cons u us =>
      intro w hw
      rcases List.mem_cons.1 hw with rfl | hw
      · exact hv
      · exact hvs w hw

/-- As long as the block holds more than `n` fragments, the fragments before the last are full. -/
theorem fragmentLoop_full {fsize n : ℕ} {c : Chain} {offset : ℕ} (hpos : 0 < fsize)
    (hfsize : fsize < 65536) (hoff : ∀ d ∈ c.head?, offset ≤ d.1.size)
    (hrest : fsize * n < dblkChainSize c - offset) :
    ∀ v ∈ (fragmentLoop fsize (n + 1) c offset).dropLast, dblkNodeSize v = fsize := by
  induction n generalizing c offset with
  | zero =>
      intro v hv
      have hlen := length_fragmentLoop fsize 1 c offset
      have hnil : (fragmentLoop fsize 1 c offset).dropLast = [] := by
        apply List.eq_nil_of_length_eq_zero
        simp [hlen]
      simp [hnil] at hv
  | succ n ih =>
      cases c with
      | nil =>
          simp only [dblkChainSize] at hrest
          omega
      | cons d c =>
          rcases d with ⟨dblk, more⟩
          have hoffd : offset ≤ dblk.size := hoff (dblk, more) rfl
          have hvsize : (UInt16.ofNat fsize).toNat = fsize := UInt16.toNat_ofNat_of_lt' hfsize
          have hne : ∀ (c : Chain) (offset : ℕ), (fragmentLoop fsize (n + 1) c offset).length ≠ 0 :=
            fun c offset => by simp [length_fragmentLoop]
          have hfull : fsize ≠ 0 := Nat.ne_of_gt hpos
          -- a block with more than one fragment left goes on behind the bytes of this one
          have hmul : fsize * (n + 1) = fsize * n + fsize := Nat.mul_succ _ _
          simp only [dblkChainSize] at hrest
          rw [fragmentLoop]
          by_cases hlong : offset + fsize < dblk.size
          · -- the next fragment starts in the same node
            have hih : ∀ v ∈ (fragmentLoop fsize (n + 1) ((dblk, more) :: c)
                (offset + fsize)).dropLast, dblkNodeSize v = fsize := by
              refine ih ?_ ?_
              · intro d hd
                obtain rfl := Option.some.inj hd
                exact Nat.le_of_lt hlong
              · simp only [dblkChainSize]
                omega
            rw [if_pos hlong]
            exact forall_mem_dropLast_cons (hne _ _) (by simp [dblkNodeSize, hvsize, hfull]) hih
          · have hmore : more = true := by
              cases more with
              | true =>
                  rfl
              | false =>
                  simp only [Bool.false_eq_true, if_false] at hrest
                  omega
            simp only [hmore, if_true] at hrest
            by_cases hshort : dblk.size < offset + fsize
            -- the fragment takes in nodes behind the first, or none
            · have hreach : offset + fsize - dblk.size ≤ dblkChainSize c := by omega
              obtain ⟨f, more', c', hf, hfoff, hfrest⟩ := skipNodes_spec (by omega) hreach
              have hih : ∀ v ∈ (fragmentLoop fsize (n + 1)
                  (skipNodes c (offset + fsize - dblk.size)).1
                  (skipNodes c (offset + fsize - dblk.size)).2).dropLast,
                    dblkNodeSize v = fsize := by
                refine ih ?_ ?_
                · intro d hd
                  rw [hf] at hd
                  obtain rfl := Option.some.inj hd
                  exact hfoff
                · rw [hf, hfrest]
                  omega
              have hnil : (skipNodes c (offset + fsize - dblk.size)).1 ≠ [] := by simp [hf]
              rw [if_neg hlong, if_pos hshort]
              exact forall_mem_dropLast_cons (hne _ _)
                (by simp [dblkNodeSize, hvsize, hfull, hnil]) hih
            · have hih : ∀ v ∈ (fragmentLoop fsize (n + 1) c 0).dropLast, dblkNodeSize v = fsize :=
                ih (fun _ _ => Nat.zero_le _) (by omega)
              rw [if_neg hlong, if_neg hshort]
              exact forall_mem_dropLast_cons (hne _ _) (by simp [dblkNodeSize, hvsize, hfull]) hih

/-- The count of `dblk_fragment` is the quotient rounded up. -/
theorem count_spec {size fsize : ℕ} (hpos : 0 < fsize) (hsize : 0 < size) :
    ∃ k, size / fsize + (if 0 < size % fsize then 1 else 0) = k + 1 ∧ fsize * k < size ∧
      size ≤ fsize * (k + 1) ∧ size ⌈/⌉ fsize = k + 1 := by
  have hdiv : fsize * (size / fsize) + size % fsize = size := Nat.div_add_mod size fsize
  have hmod : size % fsize < fsize := Nat.mod_lt size hpos
  obtain ⟨k, hk, hlow, hhigh⟩ : ∃ k, size / fsize + (if 0 < size % fsize then 1 else 0) = k + 1 ∧
      fsize * k < size ∧ size ≤ fsize * (k + 1) := by
    by_cases h0 : 0 < size % fsize
    · refine ⟨size / fsize, by rw [if_pos h0], by omega, ?_⟩
      rw [Nat.mul_succ]
      omega
    · have hquot : size / fsize ≠ 0 := by
        intro hzero
        rw [hzero] at hdiv
        omega
      obtain ⟨k, hk⟩ := Nat.exists_eq_succ_of_ne_zero hquot
      rw [hk, Nat.mul_succ] at hdiv
      refine ⟨k, by rw [if_neg h0, hk], by omega, ?_⟩
      rw [Nat.mul_succ]
      omega
  refine ⟨k, hk, hlow, hhigh, Nat.le_antisymm ((ceilDiv_le_iff_le_mul hpos).2 hhigh) ?_⟩
  by_contra hlt
  have hle : size ≤ fsize * k := (ceilDiv_le_iff_le_mul hpos).1 (by omega)
  omega

theorem blockChain_cons (n : Node) (b : Block) :
    blockChain (n :: b) = (n, !b.isEmpty) :: blockChain b := by
  cases b <;> rfl

/-- A block of exactly one fragment's size. -/
theorem dblkFragment_one {b : Block} {fsize : ℕ} (hfsize : fsize < 65536)
    (hhead : headSize b ≠ 0) (hlen : b.bytes.length = fsize) :
    ∃ v, dblkFragment (blockChain b) fsize = [v] ∧ v.bytes = b.bytes ∧
      dblkNodeSize v = fsize := by
  cases b with
  | nil =>
      exact absurd rfl hhead
  | cons n b =>
      have hn : n.size ≠ 0 := hhead
      have hbytes : Block.bytes (n :: b) = n.data ++ Block.bytes b := rfl
      have hsum : n.size + (Block.bytes b).length = fsize := by
        rw [← hlen, hbytes, List.length_append]
        rfl
      have hpos : 0 < fsize := by omega
      have hvsize : (UInt16.ofNat fsize).toNat = fsize := UInt16.toNat_ofNat_of_lt' hfsize
      have hsize : (UInt16.ofNat n.size - UInt16.ofNat 0).toNat = n.size := by
        have h0 : UInt16.ofNat n.size - UInt16.ofNat 0 = UInt16.ofNat n.size := by simp
        rw [h0]
        exact UInt16.toNat_ofNat_of_lt' (show n.size < 65536 by omega)
      have hdata : memRead n.data n.size = n.data := memRead_of_length rfl
      have hchain : dblkChainSize (blockChain (n :: b)) = fsize := by
        rw [dblkChainSize_blockChain, hlen]
      have hcnt : fsize / fsize + (if 0 < fsize % fsize then 1 else 0) = 1 := by
        simp [Nat.div_self hpos]
      have hfull : fsize ≠ 0 := Nat.ne_of_gt hpos
      have hlong : ¬ 0 + fsize < n.size := by omega
      rw [blockChain_cons] at hchain ⊢
      rw [dblkFragment_cons hn, hchain, hcnt, fragmentLoop]
      by_cases hshort : n.size < 0 + fsize
      · have hb : b ≠ [] := by
          rintro rfl
          simp only [Block.bytes, List.flatMap_nil, List.length_nil] at hsum
          omega
        have hreach : 0 + fsize - n.size ≤ dblkChainSize (blockChain b) := by
          rw [dblkChainSize_blockChain]
          omega
        obtain ⟨f, more, c, hf, -, -⟩ := skipNodes_spec (by omega) hreach
        have hnil : (skipNodes (blockChain b) (0 + fsize - n.size)).1 ≠ [] := by
          rw [hf]
          exact List.cons_ne_nil _ _
        refine ⟨{ data := n.data, vsize := fsize, vmem := b }, ?_, ?_, ?_⟩
        · rw [if_neg hlong, if_pos hshort]
          simp only [fragmentLoop, hnil, if_false, hsize, hvsize, hdata, List.drop_zero,
            blockChain_map_fst]
        · have hall : (n.data ++ Block.bytes b).length = fsize := hsum ▸ List.length_append
          rw [hbytes, VNode.bytes, if_pos hfull]
          exact List.take_of_length_le (Nat.le_of_eq hall)
        · simp [dblkNodeSize, hfull]
      -- the first node holds everything; the others, if there are any, are empty
      · have hnb : Block.bytes b = [] := List.eq_nil_of_length_eq_zero (by omega)
        refine ⟨{ data := n.data, vsize := fsize, vmem := [] }, ?_, ?_, ?_⟩
        · rw [if_neg hlong, if_neg hshort]
          simp only [fragmentLoop, hsize, hvsize, hdata, List.drop_zero]
        · have hall : n.data.length ≤ fsize := show n.size ≤ fsize by omega
          rw [hbytes, hnb, VNode.bytes, if_pos hfull]
          simpa using hall
        · simp [dblkNodeSize, hfull]

/-- A block of more than one fragment's size begins with a full fragment, and only the last one may
be smaller. -/
theorem dblkFragment_many {b : Block} {fsize : ℕ} (hpos : 0 < fsize) (hfsize : fsize < 65536)
    (hhead : headSize b ≠ 0) (hlen : fsize < b.bytes.length) :
    fsize * ((dblkFragment (blockChain b) fsize).length - 1) < b.bytes.length ∧
      1 < (dblkFragment (blockChain b) fsize).length ∧
      ∀ v ∈ (dblkFragment (blockChain b) fsize).dropLast, dblkNodeSize v = fsize := by
  cases b with
  | nil =>
      exact absurd rfl hhead
  | cons n b =>
      have hn : n.size ≠ 0 := hhead
      have hchain := dblkChainSize_blockChain (n :: b)
      obtain ⟨k, hk, hlow, hhigh, -⟩ :=
        count_spec hpos (show 0 < (Block.bytes (n :: b)).length by omega)
      have hfrag : dblkFragment (blockChain (n :: b)) fsize =
          fragmentLoop fsize (k + 1) (blockChain (n :: b)) 0 := by
        rw [blockChain_cons] at hchain ⊢
        rw [dblkFragment_cons hn, hchain, ← hk]
      have hk0 : 0 < k := by
        by_contra h0
        rw [Nat.eq_zero_of_not_pos h0, Nat.zero_add, Nat.mul_one] at hhigh
        omega
      rw [hfrag, length_fragmentLoop]
      refine ⟨hlow, by omega, ?_⟩
      refine fragmentLoop_full hpos hfsize (fun _ _ => Nat.zero_le _) ?_
      rw [hchain]
      exact hlow

end Dblk
end DtsNet
