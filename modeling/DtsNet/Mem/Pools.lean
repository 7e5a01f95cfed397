import Mathlib.Data.List.Perm.Subperm
import DtsNet.Library.Machine
import DtsNet.Mem

/-!
# Pools — the two pools side by side

The array pool scans its marks from the front, the list pool takes the item that has been free for
longest.  They hand out different items, but both hand out one as long as there is one.
-/

namespace DtsNet
namespace Mem

open Machine

/-! ## A pool in use -/

/-- `MEM_ITEM_LIST_API_INIT`: the items are enqueued one by one. -/
def memInit (count : ℕ) : ItemList :=
  (List.range count).foldl (fun p i => { p with list := p.list ++ [i] })
    { list := [], count := count }

inductive PoolEvent
  | alloc
  | free (item : ℕ)
  deriving DecidableEq, Repr

/-- A pool, and the items of it that are allocated. -/
structure InUse (π : Type) where
  pool : π
  held : List ℕ
  deriving DecidableEq, Repr

/-- No item is allocated yet. -/
def InUse.fresh {π : Type} (p : π) : InUse π :=
  { pool := p, held := [] }

/-- Two calls of the same function. -/
inductive Alike : PoolEvent → PoolEvent → Prop
  | alloc : Alike .alloc .alloc
  | free (i j : ℕ) : Alike (.free i) (.free j)

section InUse

variable {π : Type} [MemItem π]

def poolStep (u : InUse π) : PoolEvent → InUse π
  | .alloc =>
      let r := MemItem.alloc u.pool
      { pool := r.2, held := r.1.toList ++ u.held }
  | .free item => { pool := MemItem.free item u.pool, held := u.held.erase item }

/-- Only items that are allocated are freed. -/
def FreesHeld (u : InUse π) : PoolEvent → Prop
  | .alloc => True
  | .free item => item ∈ u.held

instance (u : InUse π) (e : PoolEvent) : Decidable (FreesHeld u e) :=
  match e with
  | .alloc => inferInstanceAs (Decidable True)
  | .free item => inferInstanceAs (Decidable (item ∈ u.held))

/-- What is to be expected of a pool of `count` items. -/
structure Serving (count : ℕ) (u : InUse π) : Prop where
  /-- With an item left, one is given that is not allocated. -/
  gives : u.held.length < count → ∃ i, (MemItem.alloc u.pool).1 = some i ∧ i < count ∧ i ∉ u.held
  /-- There is none exactly if all are allocated. -/
  full : (MemItem.alloc u.pool).1 = none ↔ ∀ i < count, i ∈ u.held
  /-- No item is lost, and none is there twice. -/
  divided : (MemItem.freeItems u.pool ++ u.held).Perm (List.range count)

/-- Every item is free or allocated, and that once. -/
structure Sound (count : ℕ) (u : InUse π) : Prop where
  count : MemItem.count u.pool = count
  divided : Divided u.pool u.held

variable {count : ℕ} {u : InUse π}

theorem Sound.free_length (h : Sound count u) :
    (MemItem.freeItems u.pool).length + u.held.length = count := by
  rw [h.divided.length, h.count]

theorem Sound.freeItems_eq_nil_iff (h : Sound count u) :
    MemItem.freeItems u.pool = [] ↔ u.held.length = count := by
  have hlen := h.free_length
  rw [← List.length_eq_zero_iff]
  omega

/-! ## One call -/

variable [LawfulMemItem π]

theorem alloc_eq_none_iff (p : π) : (MemItem.alloc p).1 = none ↔ MemItem.freeItems p = [] := by
  constructor
  · intro hnone
    by_contra hfree
    obtain ⟨i, p', halloc, -, -⟩ := LawfulMemItem.alloc_some hfree
    rw [halloc] at hnone
    cases hnone
  · intro hfree
    rw [LawfulMemItem.alloc_none hfree]

theorem Sound.step (h : Sound count u) {e : PoolEvent} (he : FreesHeld u e) :
    Sound count (poolStep u e) := by
  cases e with
  | alloc =>
      by_cases hfree : MemItem.freeItems u.pool = []
      · -- the null pointer is given out, which nobody holds
        have hsame : poolStep u .alloc = u := by
          simp only [poolStep, LawfulMemItem.alloc_none hfree, Option.toList_none, List.nil_append]
        rw [hsame]
        exact h
      · obtain ⟨i, p', halloc, -, hdivided, hcount⟩ := h.divided.alloc hfree
        have hnext : poolStep u .alloc = { pool := p', held := i :: u.held } := by
          simp only [poolStep, halloc, Option.toList_some, List.singleton_append]
        rw [hnext]
        exact ⟨hcount.trans h.count, hdivided⟩
  | free item =>
      obtain ⟨hdivided, -, hcount⟩ := h.divided.free he
      exact ⟨hcount.trans h.count, hdivided⟩

theorem Sound.serving (h : Sound count u) : Serving count u := by
  have hfull : (MemItem.alloc u.pool).1 = none ↔ u.held.length = count :=
    (alloc_eq_none_iff u.pool).trans h.freeItems_eq_nil_iff
  have hperm : (MemItem.freeItems u.pool ++ u.held).Perm (List.range count) := by
    rw [← h.count]
    exact h.divided
  refine ⟨fun hlt => ?_, hfull.trans ⟨fun hlen i hi => ?_, fun hall => ?_⟩, hperm⟩
  · have hfree : MemItem.freeItems u.pool ≠ [] := by
      rw [Ne, h.freeItems_eq_nil_iff]
      exact Nat.ne_of_lt hlt
    obtain ⟨i, p', halloc, hnot, hdivided, hcount⟩ := h.divided.alloc hfree
    refine ⟨i, by rw [halloc], ?_, hnot⟩
    rw [← h.count, ← hcount]
    exact hdivided.lt List.mem_cons_self
  · have hnil := h.freeItems_eq_nil_iff.2 hlen
    rw [hnil, List.nil_append] at hperm
    exact hperm.mem_iff.2 (List.mem_range.2 hi)
  · -- so many different items are no fewer than there are in all
    have hsub : List.range count ⊆ u.held := fun i hi => hall i (List.mem_range.1 hi)
    have hle := (List.nodup_range.subperm hsub).length_le
    rw [List.length_range] at hle
    have hlen := h.free_length
    omega

theorem held_length_step (h : Sound count u) {e : PoolEvent} (he : FreesHeld u e) :
    (poolStep u e).held.length =
      match e with
      | .alloc => if u.held.length = count then u.held.length else u.held.length + 1
      | .free _ => u.held.length - 1 := by
  cases e with
  | alloc =>
      dsimp only
      split
      · next hlen =>
          have hfree := h.freeItems_eq_nil_iff.2 hlen
          simp only [poolStep, LawfulMemItem.alloc_none hfree, Option.toList_none, List.nil_append]
      · next hlen =>
          have hfree : MemItem.freeItems u.pool ≠ [] := by
            rw [Ne, h.freeItems_eq_nil_iff]
            exact hlen
          obtain ⟨i, p', halloc, -, -⟩ := h.divided.alloc hfree
          simp only [poolStep, halloc, Option.toList_some, List.singleton_append, List.length_cons]
  | free item =>
      exact List.length_erase_of_mem he

end InUse

/-! ## Both pools -/

theorem memInit_eq (count : ℕ) : memInit count = ItemList.init count := by
  have hfold : ∀ (items : List ℕ) (p : ItemList),
      items.foldl (fun p i => { p with list := p.list ++ [i] }) p =
        { p with list := p.list ++ items } := by
    intro items
    induction items with
    | nil =>
        intro p
        simp
    | cons i items ih =>
        intro p
        rw [List.foldl_cons, ih]
        simp
  rw [memInit, hfold, List.nil_append, ItemList.init]

theorem sound_itemArr_init (count : ℕ) :
    Sound count (InUse.fresh (ItemArr.init count)) :=
  ⟨List.length_replicate, divided_itemArr_init count⟩

theorem sound_memInit (count : ℕ) : Sound count (InUse.fresh (memInit count)) := by
  rw [memInit_eq]
  exact ⟨rfl, divided_itemList_init count⟩

/-- The pools that have come so far together. -/
structure Together (count : ℕ) (u : InUse ItemArr) (v : InUse ItemList) : Prop where
  arr : Sound count u
  list : Sound count v
  length : u.held.length = v.held.length

theorem Together.step {count : ℕ} {u : InUse ItemArr} {v : InUse ItemList} {e f : PoolEvent}
    (h : Together count u v) (hef : Alike e f) (he : FreesHeld u e) (hf : FreesHeld v f) :
    Together count (poolStep u e) (poolStep v f) := by
  refine ⟨h.arr.step he, h.list.step hf, ?_⟩
  rw [held_length_step h.arr he, held_length_step h.list hf]
  cases hef with
  | alloc =>
      simp only [h.length]
  | free i j =>
      simp only [h.length]

/-- After the same calls, each of items that are allocated in the pool it goes to: both pools serve
the next allocation as a pool of `count` items, neither has lost or doubled an item, and they have
the same number of free ones. -/
theorem pools_alike (count : ℕ) {es fs : List PoolEvent} (halike : List.Forall₂ Alike es fs)
    (hes : Along poolStep FreesHeld (InUse.fresh (ItemArr.init count)) es)
    (hfs : Along poolStep FreesHeld (InUse.fresh (memInit count)) fs) :
    Serving count (run poolStep (InUse.fresh (ItemArr.init count)) es) ∧
      Serving count (run poolStep (InUse.fresh (memInit count)) fs) ∧
      (MemItem.freeItems (run poolStep (InUse.fresh (ItemArr.init count)) es).pool).length =
        (MemItem.freeItems (run poolStep (InUse.fresh (memInit count)) fs).pool).length := by
  have hstart : Together count (InUse.fresh (ItemArr.init count)) (InUse.fresh (memInit count)) :=
    ⟨sound_itemArr_init count, sound_memInit count, rfl⟩
  have hstep : ∀ (u : InUse ItemArr) (v : InUse ItemList) e f, Together count u v → Alike e f →
      FreesHeld u e → FreesHeld v f → Together count (poolStep u e) (poolStep v f) :=
    fun _ _ _ _ h hef he hf => h.step hef he hf
  have hend := run_related hstep hstart halike hes hfs
  have harr := hend.arr.free_length
  have hlist := hend.list.free_length
  have hlen := hend.length
  exact ⟨hend.arr.serving, hend.list.serving, by omega⟩

/-- The third allocation finds what was freed, in the array, and what was free before, in the
list. -/
theorem pools_alike_sample :
    Serving 3 (run poolStep (InUse.fresh (ItemArr.init 3)) [.alloc, .alloc, .free 0, .alloc]) ∧
      Serving 3 (run poolStep (InUse.fresh (memInit 3)) [.alloc, .alloc, .free 1, .alloc]) :=
  have halike : List.Forall₂ Alike [.alloc, .alloc, .free 0, .alloc]
      [.alloc, .alloc, .free 1, .alloc] :=
    .cons .alloc (.cons .alloc (.cons (.free 0 1) (.cons .alloc .nil)))
  have h := pools_alike 3 halike (by decide) (by decide)
  ⟨h.1, h.2.1⟩

end Mem
end DtsNet
