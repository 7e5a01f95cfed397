import DtsNet.Dblk.Linked
import DtsNet.Library.Chain

/-!
# Merge — a node behind the first block

`dblk_merge` works on the links themselves, so the nodes lie in a heap here, each with the pointer
to the next one.  Where a block ends is for `dblk_merge`, `dblk_size` and `dblk_next` to find out,
each for itself, by the `more` flags on the way.
-/

namespace DtsNet
namespace Dblk
namespace OnHeap

open Chain

/-! ## The code -/

/-- A `dblk_t` with its link.  The `vmem` chain of a virtual node, which lies outside the list, is
held by value as in `VNode`. -/
structure Cell extends DblkT where
  next : Option ℕ
  deriving DecidableEq, Repr

abbrev Heap := ℕ → Cell

def setNext (heap : Heap) (p : ℕ) (next : Option ℕ) : Heap :=
  Function.update heap p { heap p with next := next }

def setMore (heap : Heap) (p : ℕ) : Heap :=
  Function.update heap p { heap p with more := true }

/-- `n->next = b->next; b->next = n; b->more = 1`. -/
def merged (heap : Heap) (b n : ℕ) : Heap :=
  setMore (setNext (setNext heap n (heap b).next) b (some n)) b

/-- `while (1)`, for at most `fuel` rounds; there is no result either when the null pointer is
followed. -/
def dblkMergeLoop : ℕ → Heap → ℕ → ℕ → Option Heap
  | 0, _, _, _ => none
  | fuel + 1, heap, b, n =>
      if (heap b).more = false then
        some (merged heap b n)
      else
        match (heap b).next with
        | some b => dblkMergeLoop fuel heap b n
        | none => none

def dblkMerge (fuel : ℕ) (heap : Heap) (b : ℕ) : Option ℕ → Option Heap
  | none => some heap
  | some n => dblkMergeLoop fuel heap b n

/-- `dblk_merge` of several nodes, one after the other. -/
def dblkMergeAll (fuel : ℕ) (heap : Heap) (b : ℕ) (ns : List ℕ) : Option Heap :=
  ns.foldlM (fun heap n => dblkMerge fuel heap b (some n)) heap

def dblkSize : ℕ → Heap → Option ℕ → Option ℕ
  | _, _, none => some 0
  | 0, _, some _ => none
  | fuel + 1, heap, some dblk =>
      if (heap dblk).more then
        (dblkSize fuel heap (heap dblk).next).map (dblkNodeSize (heap dblk).toVNode + ·)
      else
        some (dblkNodeSize (heap dblk).toVNode)

def dblkNext : ℕ → Heap → Option ℕ → Option (Option ℕ)
  | _, _, none => some none
  | 0, _, some _ => none
  | fuel + 1, heap, some dblk =>
      if (heap dblk).more then dblkNext fuel heap (heap dblk).next else some (heap dblk).next

/-! ## Lists and blocks -/

def links (heap : Heap) (p : ℕ) : Option ℕ :=
  (heap p).next

/-- The nodes at these pointers. -/
def listOf (heap : Heap) (ps : List ℕ) : List DblkT :=
  ps.map fun p => (heap p).toDblkT

def bytesAt (heap : Heap) (ps : List ℕ) : List Byte :=
  ps.flatMap fun p => (heap p).toVNode.bytes

def sizeAt (heap : Heap) (ps : List ℕ) : ℕ :=
  (ps.map fun p => dblkNodeSize (heap p).toVNode).sum

/-- The list at `q` consists of the nodes `front` and `last`, which are a block, and of `rest`. -/
structure BlockAt (heap : Heap) (q : Option ℕ) (front : List ℕ) (last : ℕ) (rest : List ℕ) :
    Prop where
  leads : Leads (links heap) q (front ++ last :: rest)
  joined : ∀ p ∈ front, (heap p).more = true
  ended : (heap last).more = false

section BlockAt

variable {heap : Heap} {q : Option ℕ} {front rest : List ℕ} {last : ℕ}

theorem BlockAt.head (h : BlockAt heap q [] last rest) :
    q = some last ∧ (heap last).next = rest.head? :=
  ⟨h.leads.1, h.leads.2.head⟩

theorem BlockAt.tail {p : ℕ} (h : BlockAt heap q (p :: front) last rest) :
    q = some p ∧ (heap p).more = true ∧ BlockAt heap (heap p).next front last rest :=
  ⟨h.leads.1, h.joined p List.mem_cons_self,
    ⟨h.leads.2, fun p' hp' => h.joined p' (List.mem_cons_of_mem p hp'), h.ended⟩⟩

/-- A list whose last node ends a block begins with one. -/
theorem exists_blockAt {ps : List ℕ} (hlist : Leads (links heap) q ps) (hne : ps ≠ [])
    (hended : ∀ p ∈ ps.getLast?, (heap p).more = false) :
    ∃ front last rest, ps = front ++ last :: rest ∧ BlockAt heap q front last rest := by
  induction ps generalizing q with
  | nil =>
      exact absurd rfl hne
  | cons p ps ih =>
      cases hmore : (heap p).more with
      | false =>
          exact ⟨[], p, ps, rfl, hlist, fun _ h => absurd h List.not_mem_nil, hmore⟩
      | true =>
          have hps : ps ≠ [] := by
            rintro rfl
            cases hmore.symm.trans (hended p rfl)
          have hlast : ∀ p' ∈ ps.getLast?, (heap p').more = false := by
            intro p' hp'
            refine hended p' ?_
            rwa [List.getLast?_cons_of_ne_nil hps]
          obtain ⟨front, last, rest, rfl, hblock⟩ := ih hlist.2 hps hlast
          refine ⟨p :: front, last, rest, rfl, hlist, ?_, hblock.ended⟩
          rintro p' hp'
          rcases List.mem_cons.1 hp' with rfl | hp'
          · exact hmore
          · exact hblock.joined p' hp'

/-! ## The three traversals -/

/-- The rule for loops that go on as long as `more` is set: from each node of the block to the next
one, and at the last node out of it. -/
theorem BlockAt.walk {motive : ℕ → ℕ → List ℕ → Prop}
    (ends : ∀ fuel, (heap last).more = false → (heap last).next = rest.head? →
      motive (fuel + 1) last [])
    (goesOn : ∀ fuel p b front, (heap p).more = true → (heap p).next = some b →
      motive fuel b front → motive (fuel + 1) p (p :: front))
    {b : ℕ} (h : BlockAt heap (some b) front last rest) {fuel : ℕ} (hfuel : front.length < fuel) :
    motive fuel b front := by
  induction front generalizing b fuel with
  | nil =>
      obtain ⟨fuel, rfl⟩ := Nat.exists_eq_add_of_lt hfuel
      obtain ⟨hb, hnext⟩ := h.head
      cases hb
      rw [List.length_nil, Nat.zero_add]
      exact ends fuel h.ended hnext
  | cons p front ih =>
      obtain ⟨fuel, rfl⟩ := Nat.exists_eq_add_of_lt (Nat.zero_lt_of_lt hfuel)
      obtain ⟨hb, hmore, htail⟩ := h.tail
      cases hb
      -- the last node of the block is still to come
      have hnext : ∃ b, (heap p).next = some b := by
        rw [htail.leads.head]
        cases front <;> exact ⟨_, rfl⟩
      obtain ⟨b, hb⟩ := hnext
      rw [hb] at htail
      rw [List.length_cons] at hfuel
      rw [Nat.zero_add] at hfuel ⊢
      exact goesOn fuel p b front hmore hb (ih htail (Nat.lt_of_succ_lt_succ hfuel))

section Loops

variable {b fuel : ℕ}

theorem BlockAt.dblkSize (h : BlockAt heap (some b) front last rest)
    (hfuel : front.length < fuel) :
    OnHeap.dblkSize fuel heap (some b) = some (sizeAt heap (front ++ [last])) := by
  refine h.walk (motive := fun fuel b front =>
    OnHeap.dblkSize fuel heap (some b) = some (sizeAt heap (front ++ [last]))) ?_ ?_ hfuel
  · intro fuel hended _
    rw [OnHeap.dblkSize, if_neg (by simp [hended])]
    simp [sizeAt]
  · intro fuel p b front hmore hnext ih
    rw [OnHeap.dblkSize, if_pos hmore, hnext, ih]
    simp [sizeAt]

theorem BlockAt.dblkNext (h : BlockAt heap (some b) front last rest)
    (hfuel : front.length < fuel) : OnHeap.dblkNext fuel heap (some b) = some rest.head? := by
  refine h.walk (motive := fun fuel b _ => OnHeap.dblkNext fuel heap (some b) = some rest.head?)
    ?_ ?_ hfuel
  · intro fuel hended hnext
    rw [OnHeap.dblkNext, if_neg (by simp [hended]), hnext]
  · intro fuel p b front hmore hnext ih
    rw [OnHeap.dblkNext, if_pos hmore, hnext, ih]

theorem BlockAt.dblkMergeLoop (h : BlockAt heap (some b) front last rest) (n : ℕ)
    (hfuel : front.length < fuel) :
    OnHeap.dblkMergeLoop fuel heap b n = some (merged heap last n) := by
  refine h.walk (motive := fun fuel b _ =>
    OnHeap.dblkMergeLoop fuel heap b n = some (merged heap last n)) ?_ ?_ hfuel
  · intro fuel hended _
    rw [OnHeap.dblkMergeLoop, if_pos hended]
  · intro fuel p b front hmore hnext ih
    rw [OnHeap.dblkMergeLoop, if_neg (by simp [hmore]), hnext]
    exact ih

end Loops

/-- The nodes of the block are those that the functions on lists find. -/
theorem BlockAt.blocksOf (h : BlockAt heap q front last rest) :
    Linked.blocksOf (listOf heap (front ++ last :: rest)) =
      listOf heap (front ++ [last]) :: Linked.blocksOf (listOf heap rest) := by
  induction front generalizing q with
  | nil =>
      have hended : ¬ (heap last).toDblkT.more = true := by simp [h.ended]
      simp only [listOf, List.nil_append, List.map_cons, List.map_nil]
      rw [Linked.blocksOf, if_neg hended]
  | cons p front ih =>
      obtain ⟨hq, hmore, htail⟩ := h.tail
      have hrest := ih htail
      simp only [listOf, List.cons_append, List.map_cons] at hrest ⊢
      rw [Linked.blocksOf, if_pos hmore, hrest]

end BlockAt

/-! ## What a merge changes -/

section Merged

variable {heap : Heap} {last n : ℕ}

theorem links_merged (heap : Heap) (last n : ℕ) :
    links (merged heap last n) =
      Function.update (Function.update (links heap) n (links heap last)) last (some n) := by
  funext p
  by_cases hlast : p = last
  · simp [links, merged, setMore, setNext, hlast]
  · by_cases hn : p = n
    · subst hn
      simp [links, merged, setMore, setNext, Function.update_of_ne hlast]
    · simp [links, merged, setMore, setNext, Function.update_of_ne hlast, Function.update_of_ne hn]

theorem merged_of_ne {p : ℕ} (hlast : p ≠ last) (hn : p ≠ n) : merged heap last n p = heap p := by
  simp [merged, setMore, setNext, Function.update_of_ne hlast, Function.update_of_ne hn]

theorem toVNode_merged (heap : Heap) (last n p : ℕ) :
    (merged heap last n p).toVNode = (heap p).toVNode := by
  by_cases hlast : p = last
  · subst hlast
    by_cases hn : p = n
    · subst hn
      simp [merged, setMore, setNext]
    · simp [merged, setMore, setNext, Function.update_of_ne hn]
  · by_cases hn : p = n
    · subst hn
      simp [merged, setMore, setNext, Function.update_of_ne hlast]
    · rw [merged_of_ne hlast hn]

theorem more_merged_last (heap : Heap) (last n : ℕ) : (merged heap last n last).more = true := by
  simp [merged, setMore]

theorem more_merged_node (h : n ≠ last) : (merged heap last n n).more = (heap n).more := by
  simp [merged, setMore, setNext, Function.update_of_ne h]

/-- The node that is linked in ends the block. -/
theorem BlockAt.merged {q : Option ℕ} {front rest : List ℕ} (h : BlockAt heap q front last rest)
    (hout : n ∉ front ++ last :: rest) (hmore : (heap n).more = false) :
    BlockAt (OnHeap.merged heap last n) q (front ++ [last]) n rest := by
  have hnodup := h.leads.nodup
  have hlast : n ≠ last := by
    rintro rfl
    simp at hout
  refine ⟨?_, fun p hp => ?_, ?_⟩
  · rw [links_merged, List.append_assoc, List.singleton_append]
    exact h.leads.splice hout
  · rcases List.mem_append.1 hp with hp | hp
    · have hpn : p ≠ n := by
        rintro rfl
        exact hout (List.mem_append_left _ hp)
      have hpl : p ≠ last := (List.nodup_append.1 hnodup).2.2 p hp last List.mem_cons_self
      rw [merged_of_ne hpl hpn]
      exact h.joined p hp
    · rw [List.mem_singleton.1 hp]
      exact more_merged_last heap last n
  · rw [more_merged_node hlast]
    exact hmore

end Merged

/-! ## One node, and several -/

/-- The block `block` at the head of the list at `b` has become `block ++ ns`, and the list behind
it is as before. -/
structure Grown (heap heap' : Heap) (b : ℕ) (block ns rest : List ℕ) : Prop where
  leads : Leads (links heap') (some b) (block ++ ns ++ rest)
  bytes : bytesAt heap' (block ++ ns) = bytesAt heap block ++ bytesAt heap ns
  /-- `dblk_size` and `dblk_next`, before and after. -/
  size : ∀ fuel, block.length + ns.length ≤ fuel → ∃ size,
    dblkSize fuel heap (some b) = some size ∧
      dblkSize fuel heap' (some b) = some (size + sizeAt heap ns)
  next : ∀ fuel, block.length + ns.length ≤ fuel → dblkNext fuel heap (some b) = some rest.head? ∧
    dblkNext fuel heap' (some b) = some rest.head?
  kept : ∀ p ∈ rest, heap' p = heap p
  blocks : Linked.blocksOf (listOf heap' (block ++ ns ++ rest)) =
    listOf heap' (block ++ ns) :: Linked.blocksOf (listOf heap rest)

/-- What all merges of a row of nodes leave behind. -/
structure MergedAll (heap heap' : Heap) (b : ℕ) (block ns rest : List ℕ) : Prop where
  block : ∃ front last, block ++ ns = front ++ [last] ∧ BlockAt heap' (some b) front last rest
  node : ∀ p, (heap' p).toVNode = (heap p).toVNode
  kept : ∀ p ∈ rest, heap' p = heap p

theorem bytesAt_congr {heap heap' : Heap} (hnode : ∀ p, (heap' p).toVNode = (heap p).toVNode)
    (ps : List ℕ) : bytesAt heap' ps = bytesAt heap ps := by
  simp only [bytesAt, hnode]

theorem sizeAt_congr {heap heap' : Heap} (hnode : ∀ p, (heap' p).toVNode = (heap p).toVNode)
    (ps : List ℕ) : sizeAt heap' ps = sizeAt heap ps := by
  simp only [sizeAt, hnode]

section Blocks

variable {heap heap' : Heap} {b last : ℕ} {front rest ns : List ℕ}

theorem MergedAll.grown (hblock : BlockAt heap (some b) front last rest)
    (h : MergedAll heap heap' b (front ++ [last]) ns rest) :
    Grown heap heap' b (front ++ [last]) ns rest := by
  obtain ⟨front', last', heq, hblock'⟩ := h.block
  have hlength : front'.length = front.length + ns.length := by
    have hlen := congrArg List.length heq
    simp only [List.length_append, List.length_singleton] at hlen
    omega
  have hlist : front ++ [last] ++ ns ++ rest = front' ++ last' :: rest := by
    rw [heq]
    simp
  have hlistOf : listOf heap' rest = listOf heap rest := by
    refine List.map_congr_left fun p hp => ?_
    rw [h.kept p hp]
  refine ⟨?_, ?_, fun fuel hfuel => ?_, fun fuel hfuel => ?_, h.kept, ?_⟩
  · rw [hlist]
    exact hblock'.leads
  · rw [bytesAt_congr h.node, bytesAt, List.flatMap_append]
    rfl
  · simp only [List.length_append, List.length_singleton] at hfuel
    refine ⟨sizeAt heap (front ++ [last]), hblock.dblkSize (by omega), ?_⟩
    rw [hblock'.dblkSize (by omega), ← heq, sizeAt_congr h.node]
    simp [sizeAt, Nat.add_assoc]
  · simp only [List.length_append, List.length_singleton] at hfuel
    exact ⟨hblock.dblkNext (by omega), hblock'.dblkNext (by omega)⟩
  · rw [hlist, hblock'.blocksOf, ← heq, hlistOf]

theorem dblkMergeAll_spec (hblock : BlockAt heap (some b) front last rest) (hns : ns.Nodup)
    (hout : ∀ n ∈ ns, n ∉ front ++ last :: rest ∧ (heap n).more = false) :
    ∃ heap', (∀ fuel, front.length + ns.length < fuel →
        dblkMergeAll fuel heap b ns = some heap') ∧
      MergedAll heap heap' b (front ++ [last]) ns rest := by
  induction ns generalizing heap front last with
  | nil =>
      exact ⟨heap, fun _ _ => rfl, ⟨front, last, by simp, hblock⟩, fun _ => rfl, fun _ _ => rfl⟩
  | cons n ns ih =>
      obtain ⟨hn, hns⟩ := List.nodup_cons.1 hns
      obtain ⟨hnout, hnmore⟩ := hout n List.mem_cons_self
      -- the node that was linked in ends the block now, so the next one comes behind it
      have hnext := hblock.merged hnout hnmore
      have hrest : ∀ m ∈ ns, m ∉ (front ++ [last]) ++ n :: rest ∧
          (merged heap last n m).more = false := by
        intro m hm
        obtain ⟨hmout, hmmore⟩ := hout m (List.mem_cons_of_mem n hm)
        have hmn : m ≠ n := fun heq => hn (heq ▸ hm)
        simp only [List.mem_append, List.mem_cons, not_or] at hmout
        refine ⟨by simp [hmout, hmn], ?_⟩
        rwa [merged_of_ne hmout.2.1 hmn]
      obtain ⟨heap', hmerge, hall⟩ := ih hnext hns hrest
      refine ⟨heap', fun fuel hfuel => ?_, ?_, fun p => ?_, fun p hp => ?_⟩
      · rw [List.length_cons] at hfuel
        have hfirst : dblkMerge fuel heap b (some n) = some (merged heap last n) :=
          hblock.dblkMergeLoop n (by omega)
        rw [dblkMergeAll, List.foldlM_cons, hfirst]
        refine hmerge fuel ?_
        simp only [List.length_append, List.length_singleton]
        omega
      · obtain ⟨front', last', heq, hblock'⟩ := hall.block
        exact ⟨front', last', by rw [← heq]; simp, hblock'⟩
      · rw [hall.node, toVNode_merged]
      · have hpl : p ≠ last := by
          rintro rfl
          have hnodup := (List.nodup_append.1 hblock.leads.nodup).2.1
          exact (List.nodup_cons.1 hnodup).1 hp
        have hpn : p ≠ n := by
          rintro rfl
          exact hnout (by simp [hp])
        rw [hall.kept p hp, merged_of_ne hpl hpn]

end Blocks

/-- A list whose last node ends a block: `dblk_merge` of a node that is not in it and ends a block
itself gives a list in which only the first block has changed, by this node behind it.  Of several
nodes, each is behind the one before. -/
theorem dblkMerge_appends {heap : Heap} {b : ℕ} {ps : List ℕ}
    (hlist : Leads (links heap) (some b) ps)
    (hended : ∀ p ∈ ps.getLast?, (heap p).more = false) :
    ∃ block rest, ps = block ++ rest ∧
      Linked.blocksOf (listOf heap ps) =
        listOf heap block :: Linked.blocksOf (listOf heap rest) ∧
      (∀ n, n ∉ ps → (heap n).more = false → ∃ heap',
        (∀ fuel, block.length < fuel → dblkMerge fuel heap b (some n) = some heap') ∧
          Grown heap heap' b block [n] rest) ∧
      ∀ ns : List ℕ, ns.Nodup → (∀ n ∈ ns, n ∉ ps ∧ (heap n).more = false) → ∃ heap',
        (∀ fuel, block.length + ns.length ≤ fuel → dblkMergeAll fuel heap b ns = some heap') ∧
          Grown heap heap' b block ns rest := by
  have hne : ps ≠ [] := by
    rintro rfl
    cases hlist
  obtain ⟨front, last, rest, rfl, hblock⟩ := exists_blockAt hlist hne hended
  refine ⟨front ++ [last], rest, by simp, hblock.blocksOf, fun n hn hmore => ?_,
    fun ns hns hout => ?_⟩
  · have hout : ∀ m ∈ [n], m ∉ front ++ last :: rest ∧ (heap m).more = false := by
      intro m hm
      rw [List.mem_singleton.1 hm]
      exact ⟨hn, hmore⟩
    obtain ⟨heap', hmerge, hall⟩ := dblkMergeAll_spec hblock (List.nodup_singleton n) hout
    refine ⟨heap', fun fuel hfuel => ?_, hall.grown hblock⟩
    simp only [List.length_append, List.length_singleton] at hfuel
    have hone := hmerge fuel (by simp only [List.length_singleton]; omega)
    simpa [dblkMergeAll] using hone
  · obtain ⟨heap', hmerge, hall⟩ := dblkMergeAll_spec hblock hns hout
    refine ⟨heap', fun fuel hfuel => hmerge fuel ?_, hall.grown hblock⟩
    simp only [List.length_append, List.length_singleton] at hfuel
    omega

/-- Two blocks, of the nodes 0 and 1 and of the node 2; further nodes stand for themselves. -/
def sampleHeap : Heap := fun p =>
  { data := [1]
    vsize := 0
    vmem := []
    dataMalloc := false
    nodeMalloc := false
    more := p = 0
    offset := 0
    next := if p < 2 then some (p + 1) else none }

theorem dblkMerge_appends_sample :
    ∃ block rest heap', [0, 1, 2] = block ++ rest ∧ Grown sampleHeap heap' 0 block [4, 3] rest :=
  have hlist : Leads (links sampleHeap) (some 0) [0, 1, 2] := ⟨rfl, rfl, rfl, rfl⟩
  have ⟨block, rest, hps, _, _, hmerge⟩ := dblkMerge_appends hlist (by decide)
  have ⟨heap', _, hgrown⟩ := hmerge [4, 3] (by decide) (by decide)
  ⟨block, rest, heap', hps, hgrown⟩

end OnHeap
end Dblk
end DtsNet
