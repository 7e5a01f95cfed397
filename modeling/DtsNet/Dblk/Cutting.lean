import DtsNet.Dblk.Fragment
import Mathlib.Algebra.Order.BigOperators.Group.List

/-!
# Cutting — what the fragments of a block hold

All fragments but the last are what they should be.  The last one is shortened to what is left only
when its walk over the nodes runs off the list, so it matters in which node the code starts it: a
fragment that ends exactly with a node is followed by one that starts at the next node, or, when it
was reached over several nodes, by one that starts at the end of the same node.
-/

namespace DtsNet
namespace Dblk

/-! ## Where the last fragment starts -/

/-- Read backwards, the sizes are all equal to `fsize` up to one that is larger. -/
def EndsFlush (fsize : ℕ) (sizes : List ℕ) : Prop :=
  ∀ size ∈ sizes.reverse.find? (· != fsize), fsize < size

/-- The fragment of what is left of a block of these sizes starts in its last node. -/
def LiesInLast (fsize : ℕ) (sizes : List ℕ) : Prop :=
  sizes.sum % fsize ≤ sizes.getLastD 0 ∧
    (sizes.sum % fsize = sizes.getLastD 0 → EndsFlush fsize sizes.dropLast)

instance (fsize : ℕ) (sizes : List ℕ) : Decidable (EndsFlush fsize sizes) :=
  inferInstanceAs (Decidable (∀ size ∈ sizes.reverse.find? (· != fsize), fsize < size))

instance (fsize : ℕ) (sizes : List ℕ) : Decidable (LiesInLast fsize sizes) :=
  inferInstanceAs (Decidable (_ ∧ _))

section Sizes

variable {fsize : ℕ}

theorem endsFlush_nil : EndsFlush fsize [] := by
  intro size hsize
  cases hsize

theorem endsFlush_cons (s : ℕ) (l : List ℕ) :
    EndsFlush fsize (s :: l) ↔ EndsFlush fsize l ∧ ((∀ x ∈ l, x = fsize) → fsize ≤ s) := by
  simp only [EndsFlush, List.reverse_cons, List.find?_append]
  -- read backwards, `s` comes last: it is looked at only when all the others are `fsize`
  cases hfind : l.reverse.find? (· != fsize) with
  | none =>
      have hall : ∀ x ∈ l, x = fsize := by
        intro x hx
        simpa using List.find?_eq_none.1 hfind x (List.mem_reverse.2 hx)
      by_cases hs : s = fsize
      · simp [hs]
      · have hlt : fsize < s ↔ fsize ≤ s := by omega
        have himp : ((∀ x ∈ l, x = fsize) → fsize ≤ s) ↔ fsize ≤ s := forall_prop_of_true hall
        simp [himp, hs, hlt]
  | some y =>
      have hy : y ∈ l := List.mem_reverse.1 (List.mem_of_find?_eq_some hfind)
      have hne : y ≠ fsize := by simpa using List.find?_some hfind
      have hnot : ¬ ∀ x ∈ l, x = fsize := fun hall => hne (hall y hy)
      simp [hnot]

/-- Nodes that are smaller than a fragment do not end flush, unless something behind them does. -/
theorem endsFlush_small {s : ℕ} (hs : s < fsize) {u : List ℕ} (hu : ∀ x ∈ u, x < fsize)
    (l : List ℕ) :
    EndsFlush fsize (s :: (u ++ l)) ↔ EndsFlush fsize l ∧ ¬ ∀ x ∈ l, x = fsize := by
  induction u generalizing s with
  | nil =>
      rw [List.nil_append, endsFlush_cons]
      exact and_congr_right fun _ => imp_congr_right fun _ => by simpa using hs
  | cons x u ih =>
      have hx : x < fsize := hu x List.mem_cons_self
      have hnot : ¬ ∀ y ∈ x :: (u ++ l), y = fsize :=
        fun hall => Nat.ne_of_lt hx (hall x List.mem_cons_self)
      rw [List.cons_append, endsFlush_cons, ih hx fun y hy => hu y (List.mem_cons_of_mem x hy)]
      exact and_iff_left fun hall => absurd hall hnot

theorem liesInLast_concat (t : List ℕ) (z : ℕ) :
    LiesInLast fsize (t ++ [z]) ↔
      (t.sum + z) % fsize ≤ z ∧ ((t.sum + z) % fsize = z → EndsFlush fsize t) := by
  have hlast : (t ++ [z]).getLastD 0 = z := by
    rw [List.getLastD_eq_getLast?, List.getLast?_concat]
    rfl
  rw [LiesInLast, List.sum_append, List.sum_singleton, hlast, List.dropLast_concat]

theorem liesInLast_singleton (s : ℕ) : LiesInLast fsize [s] :=
  (liesInLast_concat [] s).2 ⟨(Nat.zero_add s).symm ▸ Nat.mod_le _ _, fun _ => endsFlush_nil⟩

/-- Between full nodes, only a multiple of `fsize` leaves the last node as the remainder. -/
theorem dvd_of_mod_eq {a z : ℕ} {t : List ℕ} (hall : ∀ x ∈ t, x = fsize)
    (hmod : (a + t.sum + z) % fsize = z) : fsize ∣ a := by
  have hsum : fsize ∣ t.sum := by
    rw [List.sum_eq_card_nsmul t fsize hall]
    exact Dvd.intro_left _ rfl
  have hboth : fsize ∣ a + t.sum := by
    have hsub : fsize ∣ a + t.sum + z - (a + t.sum + z) % fsize := Nat.dvd_sub_mod _
    rwa [hmod, Nat.add_sub_cancel] at hsub
  exact (Nat.dvd_add_left hsum).1 hboth

/-- The next fragment starts in a node with `a` bytes left of it, of `y` bytes from which this one
has taken some. -/
theorem endsFlush_next {a y r z : ℕ} (hr : 0 < r) (hle : r ≤ fsize) (hy : a + r = y) (t : List ℕ)
    (hmod : (a + t.sum + z) % fsize = z) :
    EndsFlush fsize (y :: t) ∧ ¬ (∀ x ∈ y :: t, x = fsize) ↔ EndsFlush fsize (a :: t) := by
  rw [endsFlush_cons, endsFlush_cons, and_assoc]
  refine and_congr_right fun _ => ?_
  by_cases hall : ∀ x ∈ t, x = fsize
  · -- then `a` is a multiple of `fsize`, so it is zero or as large as a fragment
    obtain ⟨k, rfl⟩ := dvd_of_mod_eq hall hmod
    have hcons : (∀ x ∈ y :: t, x = fsize) ↔ y = fsize := by
      rw [List.forall_mem_cons, and_iff_left hall]
    rw [hcons, forall_prop_of_true hall, forall_prop_of_true hall]
    cases k with
    | zero =>
        rw [Nat.mul_zero] at hy ⊢
        omega
    | succ k =>
        have hge : fsize ≤ fsize * (k + 1) := Nat.le_mul_of_pos_right fsize (Nat.succ_pos k)
        omega
  · have hnot : ¬ ∀ x ∈ y :: t, x = fsize := fun h => hall (List.forall_mem_cons.1 h).2
    simp [hall]

/-- The next fragment starts in the same node. -/
theorem liesInLast_inside {s : ℕ} (hpos : 0 < fsize) (hs : fsize < s) (l : List ℕ) :
    LiesInLast fsize (s :: l) ↔ LiesInLast fsize ((s - fsize) :: l) := by
  obtain ⟨a, rfl⟩ := Nat.exists_eq_add_of_le' (Nat.le_of_lt hs)
  rw [Nat.add_sub_cancel]
  obtain rfl | ⟨t, z, rfl⟩ := List.eq_nil_or_concat' l
  · exact iff_of_true (liesInLast_singleton (a + fsize)) (liesInLast_singleton a)
  · have hmod : (((a + fsize) :: t).sum + z) % fsize = ((a :: t).sum + z) % fsize := by
      rw [List.sum_cons, List.sum_cons,
        show a + fsize + t.sum + z = a + t.sum + z + fsize by omega, Nat.add_mod_right]
    have hnot : ¬ ∀ x ∈ (a + fsize) :: t, x = fsize :=
      fun hall => Nat.ne_of_gt hs (hall _ List.mem_cons_self)
    rw [← List.cons_append, ← List.cons_append, liesInLast_concat, liesInLast_concat, hmod]
    refine and_congr_right fun _ => forall_congr' fun hz => ?_
    rw [← endsFlush_next hpos (Nat.le_refl fsize) rfl t hz, and_iff_left hnot]

/-- The next fragment starts with the next node. -/
theorem liesInLast_whole {l : List ℕ} (hl : l ≠ []) :
    LiesInLast fsize (fsize :: l) ↔ LiesInLast fsize l := by
  obtain rfl | ⟨t, z, rfl⟩ := List.eq_nil_or_concat' l
  · exact absurd rfl hl
  · have hmod : ((fsize :: t).sum + z) % fsize = (t.sum + z) % fsize := by
      rw [List.sum_cons, Nat.add_assoc, Nat.add_mod_left]
    rw [← List.cons_append, liesInLast_concat, liesInLast_concat, hmod, endsFlush_cons,
      and_iff_left fun _ => Nat.le_refl fsize]

/-- The next fragment starts in a node further on. -/
theorem liesInLast_behind {s r y : ℕ} {u : List ℕ} (hr : 0 < r) (hle : r ≤ y)
    (hsum : s + u.sum + r = fsize) (l : List ℕ) :
    LiesInLast fsize (s :: (u ++ y :: l)) ↔ LiesInLast fsize ((y - r) :: l) := by
  obtain ⟨a, rfl⟩ := Nat.exists_eq_add_of_le' hle
  rw [Nat.add_sub_cancel]
  obtain rfl | ⟨t, z, rfl⟩ := List.eq_nil_or_concat' l
  · -- that node is the last one: this fragment has taken some of it, so less is left
    have hmod : ((s :: u).sum + (a + r)) % fsize = a % fsize := by
      rw [List.sum_cons, show s + u.sum + (a + r) = a + fsize by omega, Nat.add_mod_right]
    have hlt : a % fsize < a + r := Nat.lt_of_le_of_lt (Nat.mod_le a fsize) (by omega)
    refine iff_of_true ?_ (liesInLast_singleton a)
    rw [← List.cons_append, liesInLast_concat, hmod]
    exact ⟨Nat.le_of_lt hlt, fun heq => absurd heq (Nat.ne_of_lt hlt)⟩
  · have hsmall : ∀ x ∈ u, x < fsize := by
      intro x hx
      have hx' := List.single_le_sum (fun _ _ => Nat.zero_le _) x hx
      omega
    have hmod : ((s :: (u ++ (a + r) :: t)).sum + z) % fsize = ((a :: t).sum + z) % fsize := by
      rw [List.sum_cons, List.sum_append, List.sum_cons, List.sum_cons,
        show s + (u.sum + (a + r + t.sum)) + z = a + t.sum + z + fsize by omega,
        Nat.add_mod_right]
    have hcat : s :: (u ++ (a + r) :: (t ++ [z])) = (s :: (u ++ (a + r) :: t)) ++ [z] := by
      simp
    have hcat' : a :: (t ++ [z]) = (a :: t) ++ [z] := rfl
    rw [hcat, hcat', liesInLast_concat, liesInLast_concat, hmod]
    refine and_congr_right fun _ => forall_congr' fun hz => ?_
    rw [endsFlush_small (by omega) hsmall, endsFlush_next hr (by omega) rfl t hz]

/-- What is left is less than a fragment, but not in one node. -/
theorem not_liesInLast {s : ℕ} {l : List ℕ} (hl : l ≠ []) (hlt : s + l.sum < fsize) :
    ¬ LiesInLast fsize (s :: l) := by
  obtain rfl | ⟨t, z, rfl⟩ := List.eq_nil_or_concat' l
  · exact absurd rfl hl
  · rw [List.sum_append, List.sum_singleton] at hlt
    rw [← List.cons_append, liesInLast_concat, List.sum_cons, Nat.mod_eq_of_lt (by omega)]
    rintro ⟨hle, hflush⟩
    have hsmall : ∀ x ∈ t, x < fsize := by
      intro x hx
      have hx' := List.single_le_sum (fun _ _ => Nat.zero_le _) x hx
      omega
    have hiff := endsFlush_small (by omega) hsmall (s := s) []
    rw [List.append_nil] at hiff
    exact (hiff.1 (hflush (by omega))).2 fun x hx => absurd hx List.not_mem_nil

end Sizes

/-! ## The inner loop inside a block -/

/-- The inner loop stops in the block as long as that goes on behind the fragment. -/
theorem skipNodes_block {b : Block} (tail : Chain) {remainSize : ℕ} (hpos : 0 < remainSize)
    (hle : remainSize ≤ b.bytes.length) :
    ∃ u f b' r, b = u ++ f :: b' ∧ 0 < r ∧ r ≤ f.size ∧ (Block.bytes u).length + r = remainSize ∧
      skipNodes (blockChain b ++ tail) remainSize = (blockChain (f :: b') ++ tail, r) := by
  induction b generalizing remainSize with
  | nil =>
      exact absurd hle (Nat.not_le.2 hpos)
  | cons f b ih =>
      have hbytes : (Block.bytes (f :: b)).length = f.size + (Block.bytes b).length :=
        List.length_append
      by_cases hsize : f.size < remainSize
      · -- the node is taken in whole, and is not the last one
        obtain ⟨u, f', b', r, rfl, hr, hrle, hsum, hskip⟩ :=
          ih (show 0 < remainSize - f.size by omega) (by omega)
        have hu : (Block.bytes (f :: u)).length = f.size + (Block.bytes u).length :=
          List.length_append
        have hmore : (!(u ++ f' :: b').isEmpty) = true := by simp
        refine ⟨f :: u, f', b', r, rfl, hr, hrle, by omega, ?_⟩
        rw [blockChain_cons, List.cons_append, skipNodes, if_pos hsize, if_pos hmore, hskip]
      · refine ⟨[], f, b, remainSize, rfl, hpos, Nat.not_lt.1 hsize, Nat.zero_add _, ?_⟩
        rw [blockChain_cons, List.cons_append, skipNodes, if_neg hsize]

/-- The inner loop does not run off the list before the block is at its end. -/
theorem skipNodes_ne_nil {b : Block} (hb : b ≠ []) (tail : Chain) (remainSize : ℕ) :
    (skipNodes (blockChain b ++ tail) remainSize).1 ≠ [] := by
  induction b generalizing remainSize with
  | nil =>
      exact absurd rfl hb
  | cons f b ih =>
      rw [blockChain_cons, List.cons_append, skipNodes]
      split
      · split
        · next hmore =>
            have hne : b ≠ [] := by simpa using hmore
            exact ih hne _
        · exact List.cons_ne_nil _ _
      · exact List.cons_ne_nil _ _

/-- Further blocks in the list stop the inner loop in the same way. -/
theorem skipNodes_listChain_ne_nil {following : List Block} (hne : ∀ b ∈ following, b ≠ [])
    (hfollowing : following ≠ []) (remainSize : ℕ) :
    (skipNodes (listChain following) remainSize).1 ≠ [] := by
  cases following with
  | nil =>
      exact absurd rfl hfollowing
  | cons b rest =>
      exact skipNodes_ne_nil (hne b List.mem_cons_self) (listChain rest) remainSize

/-! ## One fragment -/

/-- A place in a block: an offset in one of its nodes, and the nodes behind that. -/
structure Place where
  node : Node
  offset : ℕ
  rest : Block
  offset_le : offset ≤ node.size
  size_lt : ∀ n ∈ node :: rest, n.size < 65536

namespace Place

/-- The bytes that are left of the node. -/
def own (p : Place) : List Byte :=
  p.node.data.drop p.offset

def bytes (p : Place) : List Byte :=
  p.own ++ Block.bytes p.rest

def sizes (p : Place) : List ℕ :=
  (p.node.size - p.offset) :: p.rest.map Node.size

def chain (p : Place) (tail : Chain) : Chain :=
  blockChain (p.node :: p.rest) ++ tail

theorem length_own (p : Place) : p.own.length = p.node.size - p.offset :=
  List.length_drop

theorem length_bytes (p : Place) : p.bytes.length = p.own.length + (Block.bytes p.rest).length :=
  List.length_append

theorem sum_sizes (p : Place) : p.sizes.sum = p.bytes.length := by
  rw [sizes, List.sum_cons, length_bytes, length_own, ← dblkSize_eq_length_bytes]
  rfl

theorem size_lt_of_suffix (p : Place) {u c : Block} (h : p.rest = u ++ c) :
    ∀ n ∈ c, n.size < 65536 := by
  intro n hn
  refine p.size_lt n (List.mem_cons_of_mem _ ?_)
  rw [h]
  exact List.mem_append_right u hn

end Place

/-- The fields of one fragment, and where the next one starts. -/
theorem fragmentLoop_place {fsize : ℕ} (hfsize : fsize < 65536) (n : ℕ) (p : Place)
    (tail : Chain) :
    fragmentLoop fsize (n + 1) (p.chain tail) p.offset =
      if p.offset + fsize < p.node.size then
        { data := p.own, vsize := fsize, vmem := [] } ::
          fragmentLoop fsize n (p.chain tail) (p.offset + fsize)
      else if p.node.size < p.offset + fsize then
        let f := skipNodes (blockChain p.rest ++ tail) (p.offset + fsize - p.node.size)
        { data := p.own
          vsize := (if f.1 = [] then UInt16.ofNat fsize - UInt16.ofNat f.2
            else UInt16.ofNat fsize).toNat
          vmem := p.rest ++ tail.map Prod.fst } :: fragmentLoop fsize n f.1 f.2
      else
        { data := p.own, vsize := fsize, vmem := [] } ::
          fragmentLoop fsize n (blockChain p.rest ++ tail) 0 := by
  have hvsize : (UInt16.ofNat fsize).toNat = fsize := UInt16.toNat_ofNat_of_lt' hfsize
  -- `e->size` does not wrap, since the offset lies in the node
  have hnode : p.node.size < 65536 := p.size_lt p.node List.mem_cons_self
  have hoffset : p.offset < 65536 := Nat.lt_of_le_of_lt p.offset_le hnode
  have hsize : (UInt16.ofNat p.node.size - UInt16.ofNat p.offset).toNat = p.own.length := by
    have hle : UInt16.ofNat p.offset ≤ UInt16.ofNat p.node.size := by
      rw [UInt16.le_iff_toNat_le, UInt16.toNat_ofNat_of_lt' hoffset,
        UInt16.toNat_ofNat_of_lt' hnode]
      exact p.offset_le
    rw [UInt16.toNat_sub_of_le _ _ hle, UInt16.toNat_ofNat_of_lt' hoffset,
      UInt16.toNat_ofNat_of_lt' hnode, Place.length_own]
  have hown : memRead (p.node.data.drop p.offset) p.own.length = p.own :=
    memRead_of_length rfl
  have hvmem : (blockChain p.rest ++ tail).map Prod.fst = p.rest ++ tail.map Prod.fst := by
    rw [List.map_append, blockChain_map_fst]
  rw [Place.chain, blockChain_cons, List.cons_append, fragmentLoop, hsize, hown, hvmem, hvsize]

/-- A node with a `vsize` of its own. -/
theorem bytes_vnode {vsize : ℕ} (hpos : 0 < vsize) (data : List Byte) (vmem : List Node) :
    ({ data := data, vsize := vsize, vmem := vmem } : VNode).bytes =
      (data ++ Block.bytes vmem).take vsize :=
  if_pos (Nat.ne_of_gt hpos)

theorem dblkNodeSize_vnode {vsize : ℕ} (hpos : 0 < vsize) (data : List Byte) (vmem : List Node) :
    dblkNodeSize { data := data, vsize := vsize, vmem := vmem } = vsize :=
  if_pos (Nat.ne_of_gt hpos)

/-- The last fragment comes out right: it is full, or ends with the list and lies in one node. -/
def EndsWell (fsize : ℕ) (tail : Chain) (sizes : List ℕ) : Prop :=
  fsize ∣ sizes.sum ∨ tail = [] ∧ LiesInLast fsize sizes

/-- A full fragment from the place `p` on, behind which the loop goes on at `q`. -/
structure Cuts (fsize : ℕ) (tail : Chain) (p : Place) (v : VNode) (q : Place) : Prop where
  loop : ∀ n, fragmentLoop fsize (n + 1) (p.chain tail) p.offset =
    v :: fragmentLoop fsize n (q.chain tail) q.offset
  size : dblkNodeSize v = fsize
  bytes : v.bytes = p.bytes.take fsize
  left : q.bytes = p.bytes.drop fsize
  liesInLast : LiesInLast fsize p.sizes ↔ LiesInLast fsize q.sizes

section Fragments

variable {fsize : ℕ} (hpos : 0 < fsize) (hfsize : fsize < 65536) {p : Place} (tail : Chain)

include hpos hfsize

/-- The fragment ends inside the node. -/
theorem cuts_inside (hlong : p.offset + fsize < p.node.size) : ∃ v q, Cuts fsize tail p v q := by
  have hown := p.length_own
  have hle : fsize ≤ p.own.length := by omega
  let q : Place := { p with offset := p.offset + fsize, offset_le := Nat.le_of_lt hlong }
  refine ⟨{ data := p.own, vsize := fsize, vmem := [] }, q,
    { loop := fun n => (fragmentLoop_place hfsize n p tail).trans (if_pos hlong)
      size := dblkNodeSize_vnode hpos _ _
      bytes := ?_
      left := ?_
      liesInLast := ?_ }⟩
  · rw [bytes_vnode hpos, List.take_append_of_le_length hle, Place.bytes,
      List.take_append_of_le_length hle]
  · rw [Place.bytes, Place.bytes, List.drop_append_of_le_length hle, Place.own, Place.own,
      List.drop_drop]
  · have hsub : q.sizes = (p.node.size - p.offset - fsize) :: p.rest.map Node.size := by
      rw [Nat.sub_sub]
      rfl
    rw [hsub]
    exact liesInLast_inside hpos (by omega) _

/-- The fragment ends with the node. -/
theorem cuts_whole (hend : p.node.size = p.offset + fsize) (hmore : fsize < p.bytes.length) :
    ∃ v q, Cuts fsize tail p v q := by
  have hown := p.length_own
  have hle : p.own.length = fsize := by omega
  have hbytes := p.length_bytes
  cases hrest : p.rest with
  | nil =>
      rw [hrest] at hbytes
      change p.bytes.length = p.own.length + 0 at hbytes
      omega
  | cons f b =>
      let q : Place :=
        { node := f
          offset := 0
          rest := b
          offset_le := Nat.zero_le _
          size_lt := p.size_lt_of_suffix (u := []) hrest }
      refine ⟨{ data := p.own, vsize := fsize, vmem := [] }, q,
        { loop := fun n => ?_
          size := dblkNodeSize_vnode hpos _ _
          bytes := ?_
          left := ?_
          liesInLast := ?_ }⟩
      · rw [fragmentLoop_place hfsize, if_neg (by omega), if_neg (by omega), hrest]
        rfl
      · rw [bytes_vnode hpos, List.take_append_of_le_length (Nat.le_of_eq hle.symm),
          Place.bytes, List.take_append_of_le_length (Nat.le_of_eq hle.symm)]
      · rw [Place.bytes, Place.bytes, List.drop_left' hle, hrest]
        rfl
      · have hsizes : p.sizes = fsize :: q.sizes := by
          rw [Place.sizes, hrest, ← p.length_own, hle]
          rfl
        rw [hsizes]
        exact liesInLast_whole (List.cons_ne_nil _ _)

/-- The fragment goes on in the nodes behind. -/
theorem cuts_behind (hshort : p.node.size < p.offset + fsize) (hmore : fsize < p.bytes.length) :
    ∃ v q, Cuts fsize tail p v q := by
  have hown := p.length_own
  have hbytes := p.length_bytes
  have hoff := p.offset_le
  obtain ⟨u, f, b, r, hrest, hr, hrle, hsum, hskip⟩ := skipNodes_block tail
    (show 0 < p.offset + fsize - p.node.size by omega)
    (show p.offset + fsize - p.node.size ≤ (Block.bytes p.rest).length by omega)
  let q : Place :=
    { node := f
      offset := r
      rest := b
      offset_le := hrle
      size_lt := p.size_lt_of_suffix hrest }
  have hvsize : (UInt16.ofNat fsize).toNat = fsize := UInt16.toNat_ofNat_of_lt' hfsize
  have hne : q.chain tail ≠ [] := by
    rw [Place.chain, blockChain_cons]
    exact List.cons_ne_nil _ _
  have hsplit : p.bytes = (p.own ++ Block.bytes u) ++ (f.data ++ Block.bytes b) := by
    rw [Place.bytes, hrest, Block.bytes, List.flatMap_append, List.append_assoc]
    rfl
  refine ⟨{ data := p.own, vsize := fsize, vmem := p.rest ++ tail.map Prod.fst }, q,
    { loop := fun n => ?_
      size := dblkNodeSize_vnode hpos _ _
      bytes := ?_
      left := ?_
      liesInLast := ?_ }⟩
  · rw [fragmentLoop_place hfsize, if_neg (by omega), if_pos hshort, hskip]
    change ({ data := p.own
              vsize := (if q.chain tail = [] then _ else UInt16.ofNat fsize).toNat
              vmem := _ } : VNode) :: _ = _
    rw [if_neg hne, hvsize]
    rfl
  · rw [bytes_vnode hpos, Block.bytes, List.flatMap_append, ← List.append_assoc]
    exact List.take_append_of_le_length (Nat.le_of_lt hmore)
  · -- the nodes in between are behind the next place
    have hcut : fsize = (p.own ++ Block.bytes u).length + r := by
      rw [List.length_append]
      omega
    rw [hsplit, hcut, List.drop_length_add_append, List.drop_append_of_le_length hrle]
    rfl
  · have hsizes : p.sizes =
        (p.node.size - p.offset) :: (u.map Node.size ++ f.size :: b.map Node.size) := by
      rw [Place.sizes, hrest, List.map_append]
      rfl
    have hu : (u.map Node.size).sum = (Block.bytes u).length := dblkSize_eq_length_bytes u
    rw [hsizes]
    exact liesInLast_behind hr hrle (by omega) _

/-- A fragment that is not the last is full. -/
theorem exists_cuts (hmore : fsize < p.bytes.length) : ∃ v q, Cuts fsize tail p v q := by
  by_cases hlong : p.offset + fsize < p.node.size
  · exact cuts_inside hpos hfsize tail hlong
  · by_cases hshort : p.node.size < p.offset + fsize
    · exact cuts_behind hpos hfsize tail hshort hmore
    · exact cuts_whole hpos hfsize tail (by omega) hmore

omit hpos hfsize in
theorem Cuts.endsWell_iff {tail : Chain} {p q : Place} {v : VNode} (h : Cuts fsize tail p v q)
    (hmore : fsize < p.bytes.length) :
    EndsWell fsize tail p.sizes ↔ EndsWell fsize tail q.sizes := by
  have hlen : p.bytes.length = q.bytes.length + fsize := by
    rw [h.left, List.length_drop]
    omega
  rw [EndsWell, EndsWell, h.liesInLast, p.sum_sizes, q.sum_sizes, hlen,
    Nat.dvd_add_left (Nat.dvd_refl fsize)]

omit hpos hfsize in
/-- The inner loop runs off the list only when nothing stands behind the node. -/
theorem nothing_behind (htail : tail ≠ [] → ∀ r, (skipNodes tail r).1 ≠ []) {remainSize : ℕ}
    (hnil : (skipNodes (blockChain p.rest ++ tail) remainSize).1 = []) :
    p.rest = [] ∧ tail = [] := by
  have hrest : p.rest = [] := by
    by_contra hne
    exact skipNodes_ne_nil hne tail _ hnil
  refine ⟨hrest, ?_⟩
  by_contra hne
  rw [hrest] at hnil
  exact htail hne _ hnil

omit hpos hfsize in
/-- With something behind the node, the last fragment comes out right only when it is full. -/
theorem length_of_endsWell (hwell : EndsWell fsize tail p.sizes)
    (hbehind : ¬ (p.rest = [] ∧ tail = [])) (hsome : 0 < p.bytes.length)
    (hle : p.bytes.length ≤ fsize) : p.bytes.length = fsize := by
  refine Nat.le_antisymm hle ?_
  obtain hdvd | ⟨hend, hlies⟩ := hwell
  · exact Nat.le_of_dvd hsome (p.sum_sizes ▸ hdvd)
  · have hrest : p.rest.map Node.size ≠ [] :=
      fun h => hbehind ⟨List.map_eq_nil_iff.1 h, hend⟩
    by_contra hlt
    refine not_liesInLast hrest ?_ hlies
    rw [← List.sum_cons]
    exact Nat.lt_of_not_le (p.sum_sizes ▸ hlt)

omit hpos in
/-- `e->vsize -= remain_size` leaves the bytes of the node. -/
theorem toNat_shortened (hshort : p.node.size < p.offset + fsize) :
    (UInt16.ofNat fsize - UInt16.ofNat (p.offset + fsize - p.node.size)).toNat = p.own.length := by
  have hown := p.length_own
  have hoff := p.offset_le
  have hlt : p.offset + fsize - p.node.size < 65536 := by omega
  rw [UInt16.toNat_sub_of_le, UInt16.toNat_ofNat_of_lt' hlt, UInt16.toNat_ofNat_of_lt' hfsize]
  · omega
  · rw [UInt16.le_iff_toNat_le, UInt16.toNat_ofNat_of_lt' hlt, UInt16.toNat_ofNat_of_lt' hfsize]
    omega

/-- The last fragment is shortened only when the inner loop runs off the list. -/
theorem fragmentLoop_last (htail : tail ≠ [] → ∀ r, (skipNodes tail r).1 ≠ [])
    (hsome : 0 < p.bytes.length) (hle : p.bytes.length ≤ fsize) :
    ∃ v, fragmentLoop fsize 1 (p.chain tail) p.offset = [v] ∧
      (EndsWell fsize tail p.sizes → dblkNodeSize v = p.bytes.length ∧ v.bytes = p.bytes) ∧
      (¬ EndsWell fsize tail p.sizes → dblkNodeSize v = fsize) := by
  have hown := p.length_own
  have hbytes := p.length_bytes
  have hoff := p.offset_le
  have hvsize : (UInt16.ofNat fsize).toNat = fsize := UInt16.toNat_ofNat_of_lt' hfsize
  rw [fragmentLoop_place hfsize, if_neg (by omega)]
  by_cases hshort : p.node.size < p.offset + fsize
  · -- it reaches behind the node, where there is nothing, or what is left of the block, or the
    -- next block: only in the first case does `f` end as null
    rw [if_pos hshort]
    dsimp only
    by_cases hbehind : p.rest = [] ∧ tail = []
    · obtain ⟨hrest, hend⟩ := hbehind
      have hskip : skipNodes (blockChain p.rest ++ tail) (p.offset + fsize - p.node.size) =
          ([], p.offset + fsize - p.node.size) := by
        rw [hrest, hend]
        rfl
      have hlies : LiesInLast fsize p.sizes := by
        rw [Place.sizes, hrest]
        exact liesInLast_singleton _
      have hall : p.bytes = p.own := by
        rw [Place.bytes, hrest]
        exact List.append_nil _
      rw [hskip, if_pos rfl, toNat_shortened hfsize hshort]
      refine ⟨_, rfl, fun _ => ?_, fun hnot => absurd (Or.inr ⟨hend, hlies⟩) hnot⟩
      rw [hall] at hsome ⊢
      refine ⟨dblkNodeSize_vnode hsome _ _, ?_⟩
      rw [bytes_vnode hsome]
      exact List.take_left
    · rw [if_neg fun hnil => hbehind (nothing_behind tail htail hnil), hvsize]
      refine ⟨_, rfl, fun hwell => ?_, fun _ => dblkNodeSize_vnode hpos _ _⟩
      have hfull := length_of_endsWell tail hwell hbehind hsome hle
      refine ⟨(dblkNodeSize_vnode hpos _ _).trans hfull.symm, ?_⟩
      rw [bytes_vnode hpos, Block.bytes, List.flatMap_append, ← List.append_assoc]
      exact (List.take_append_of_le_length (Nat.le_of_eq hfull.symm)).trans
        (List.take_of_length_le hle)
  · -- the node ends with the fragment, and so does the block
    have hfull : p.own.length = fsize := by omega
    have hrest : Block.bytes p.rest = [] := List.eq_nil_of_length_eq_zero (by omega)
    have hall : p.bytes = p.own := by rw [Place.bytes, hrest, List.append_nil]
    rw [if_neg hshort]
    refine ⟨_, rfl, fun _ => ⟨?_, ?_⟩, fun _ => dblkNodeSize_vnode hpos _ _⟩
    · rw [dblkNodeSize_vnode hpos, hall, hfull]
    · rw [bytes_vnode hpos, hall, ← hfull]
      simp [Block.bytes]

/-- All fragments from a place on, by induction on how many there are. -/
theorem fragmentLoop_run (htail : tail ≠ [] → ∀ r, (skipNodes tail r).1 ≠ []) {n : ℕ}
    (hlow : fsize * n < p.bytes.length) (hhigh : p.bytes.length ≤ fsize * (n + 1)) :
    ∃ vs v, fragmentLoop fsize (n + 1) (p.chain tail) p.offset = vs ++ [v] ∧
      (∀ w ∈ vs, dblkNodeSize w = fsize) ∧
      (EndsWell fsize tail p.sizes →
        dblkNodeSize v = p.bytes.length - fsize * n ∧ vbytes (vs ++ [v]) = p.bytes) ∧
      (¬ EndsWell fsize tail p.sizes → dblkNodeSize v = fsize) := by
  induction n generalizing p with
  | zero =>
      rw [Nat.zero_add, Nat.mul_one] at hhigh
      obtain ⟨v, hloop, hwell, hill⟩ := fragmentLoop_last hpos hfsize tail htail hlow hhigh
      refine ⟨[], v, hloop, fun w hw => absurd hw List.not_mem_nil, fun h => ?_, hill⟩
      obtain ⟨hsize, hbytes⟩ := hwell h
      exact ⟨hsize, (List.append_nil v.bytes).trans hbytes⟩
  | succ n ih =>
      -- more than one fragment is left, so the first of them is full
      have hmul : fsize * (n + 1) = fsize * n + fsize := Nat.mul_succ _ _
      have hmul' : fsize * (n + 1 + 1) = fsize * (n + 1) + fsize := Nat.mul_succ _ _
      have hmore : fsize < p.bytes.length := by omega
      obtain ⟨u, q, hcuts⟩ := exists_cuts hpos hfsize tail hmore
      have hlen : q.bytes.length = p.bytes.length - fsize := by
        rw [hcuts.left, List.length_drop]
      obtain ⟨vs, v, hloop, hfull, hwell, hill⟩ := ih (p := q) (by omega) (by omega)
      rw [hcuts.endsWell_iff hmore, hcuts.loop, hloop]
      refine ⟨u :: vs, v, rfl, List.forall_mem_cons.2 ⟨hcuts.size, hfull⟩, fun h => ?_, hill⟩
      obtain ⟨hsize, hbytes⟩ := hwell h
      refine ⟨by omega, ?_⟩
      rw [List.cons_append, vbytes_cons, hbytes, hcuts.bytes, hcuts.left, List.take_append_drop]

end Fragments

/-! ## The fragments of a block -/

/-- What the fragments of a block are meant to be. -/
structure Fragmented (b : Block) (fsize : ℕ) (fragments : List VNode) : Prop where
  count : fragments.length = b.bytes.length ⌈/⌉ fsize
  full : ∀ v ∈ fragments.dropLast, dblkNodeSize v = fsize
  last : ∀ v ∈ fragments.getLast?,
    dblkNodeSize v = b.bytes.length - fsize * (fragments.length - 1) ∧
      0 < dblkNodeSize v ∧ dblkNodeSize v ≤ fsize
  contents : vbytes fragments = b.bytes

theorem listChain_eq_nil {following : List Block} (hne : ∀ c ∈ following, c ≠ []) :
    listChain following = [] ↔ following = [] := by
  constructor
  · intro h
    cases following with
    | nil =>
        rfl
    | cons c rest =>
        have hc : blockChain c = [] := (List.append_eq_nil_iff.1 h).1
        have hnil := blockChain_map_fst c
        rw [hc] at hnil
        exact absurd hnil.symm (hne c List.mem_cons_self)
  · rintro rfl
    rfl

theorem dblkChainSize_append {b : Block} (hb : b ≠ []) (tail : Chain) :
    dblkChainSize (blockChain b ++ tail) = b.bytes.length := by
  rw [← dblkChainSize_blockChain]
  induction b with
  | nil =>
      exact absurd rfl hb
  | cons n b ih =>
      rw [blockChain_cons, List.cons_append, dblkChainSize, dblkChainSize]
      cases b with
      | nil =>
          rfl
      | cons m b =>
          rw [ih (List.cons_ne_nil m b)]

/-- `dblk_fragment` does what it is meant to do just when the first node of the block is not empty,
and the last fragment is full, or nothing stands behind the block in the list and the last fragment
starts in the last node. -/
theorem dblkFragment_fragmented_iff {b : Block} {following : List Block} {fsize : ℕ}
    (hpos : 0 < fsize) (hfsize : fsize < 65536) (hsize : ∀ n ∈ b, n.size < 65536)
    (hbytes : 0 < b.bytes.length) (hne : ∀ c ∈ following, c ≠ []) :
    Fragmented b fsize (dblkFragment (listChain (b :: following)) fsize) ↔
      headSize b ≠ 0 ∧ (fsize ∣ b.bytes.length ∨
        following = [] ∧ LiesInLast fsize (b.map Node.size)) := by
  obtain ⟨k, hcount, hlow, hhigh, hceil⟩ := count_spec hpos hbytes
  have hlist : listChain (b :: following) = blockChain b ++ listChain following :=
    List.flatMap_cons
  have htail : listChain following ≠ [] → ∀ r, (skipNodes (listChain following) r).1 ≠ [] := by
    intro hsome
    refine skipNodes_listChain_ne_nil hne ?_
    rintro rfl
    exact hsome rfl
  cases b with
  | nil =>
      exact absurd hbytes (Nat.lt_irrefl 0)
  | cons n b =>
      by_cases hn : n.size = 0
      · -- nothing is returned
        have hnone : dblkFragment (listChain ((n :: b) :: following)) fsize = [] := by
          rw [hlist, blockChain_cons, List.cons_append, dblkFragment, if_pos hn]
        rw [hnone]
        constructor
        · intro h
          have hzero := h.count
          rw [hceil] at hzero
          cases hzero
        · rintro ⟨hhead, -⟩
          exact absurd hn hhead
      · let p : Place :=
          { node := n
            offset := 0
            rest := b
            offset_le := Nat.zero_le _
            size_lt := hsize }
        have hwell : EndsWell fsize (listChain following) p.sizes ↔ headSize (n :: b) ≠ 0 ∧
            (fsize ∣ (Block.bytes (n :: b)).length ∨
              following = [] ∧ LiesInLast fsize ((n :: b).map Node.size)) := by
          rw [and_iff_right (show headSize (n :: b) ≠ 0 from hn), EndsWell, p.sum_sizes,
            listChain_eq_nil hne]
          rfl
        have hloop : dblkFragment (listChain ((n :: b) :: following)) fsize =
            fragmentLoop fsize (k + 1) (p.chain (listChain following)) p.offset := by
          have hchain := dblkChainSize_append (List.cons_ne_nil n b) (listChain following)
          rw [hlist, ← hcount, ← hchain, Place.chain]
          rw [blockChain_cons, List.cons_append, dblkFragment_cons hn]
        obtain ⟨vs, v, heq, hfull, hgood, hbad⟩ :=
          fragmentLoop_run hpos hfsize (listChain following) htail (p := p) hlow hhigh
        have hlen : vs.length = k := by
          have hlen' := length_fragmentLoop fsize (k + 1) (p.chain (listChain following)) p.offset
          rw [heq, List.length_append, List.length_singleton] at hlen'
          exact Nat.succ.inj hlen'
        rw [← hwell, hloop, heq]
        have hlength : (vs ++ [v]).length = k + 1 := by
          rw [List.length_append, hlen]
          rfl
        constructor
        · intro h
          by_contra hnot
          obtain ⟨hlast, -, -⟩ := h.last v List.getLast?_concat
          rw [hlength, Nat.add_sub_cancel, hbad hnot] at hlast
          -- a last fragment of full size is right only when it is full
          have hdvd : (Block.bytes (n :: b)).length = fsize * (k + 1) := by
            rw [Nat.mul_succ]
            omega
          exact hnot (Or.inl (p.sum_sizes ▸ Dvd.intro (k + 1) hdvd.symm))
        · intro h
          obtain ⟨hlast, hcontents⟩ := hgood h
          refine
            { count := hlength.trans hceil.symm
              full := by rwa [List.dropLast_concat]
              last := ?_
              contents := hcontents }
          intro w hw
          rw [List.getLast?_concat] at hw
          obtain rfl := Option.some.inj hw
          rw [hlength, Nat.add_sub_cancel]
          have hrest : dblkNodeSize v = (Block.bytes (n :: b)).length - fsize * k := hlast
          rw [Nat.mul_succ] at hhigh
          exact ⟨hrest, by omega, by omega⟩

/-- Three nodes of three bytes, in fragments of four, four and one. -/
theorem dblkFragment_fragmented_sample :
    Fragmented [⟨[1, 2, 3], 0⟩, ⟨[4, 5, 6], 0⟩, ⟨[7, 8, 9], 0⟩] 4
      (dblkFragment (listChain [[⟨[1, 2, 3], 0⟩, ⟨[4, 5, 6], 0⟩, ⟨[7, 8, 9], 0⟩]]) 4) :=
  (dblkFragment_fragmented_iff (by decide) (by decide) (by decide) (by decide)
    (by decide)).2 (by decide)

/-- A last fragment that starts before the last node is not shortened, one in front of a further
block takes a byte from it, and a block with an empty first node has no fragments. -/
theorem dblkFragment_fails_sample :
    ¬ Fragmented [⟨[1], 0⟩, ⟨[2], 0⟩] 3 (dblkFragment (listChain [[⟨[1], 0⟩, ⟨[2], 0⟩]]) 3) ∧
      ¬ Fragmented [⟨[1], 0⟩] 2 (dblkFragment (listChain [[⟨[1], 0⟩], [⟨[9], 0⟩]]) 2) ∧
      ¬ Fragmented [⟨[], 0⟩, ⟨[1], 0⟩] 2 (dblkFragment (listChain [[⟨[], 0⟩, ⟨[1], 0⟩]]) 2) := by
  refine ⟨fun h => ?_, fun h => ?_, fun h => ?_⟩
  · exact absurd (h.last _ rfl).1 (by decide)
  · exact absurd h.contents (by decide)
  · exact absurd h.count (by decide)

end Dblk
end DtsNet
