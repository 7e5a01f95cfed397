import Mathlib.Data.List.Perm.Basic
import Mathlib.Data.List.Range

/-!
# Mem — pools of items

`mem_alloc_*` and `mem_free_*` for a type of items, as the two implementations define them over a
static array: `MEM_ITEM_LIST_API` keeps the free items in a list, `MEM_ITEM_ARR_API` marks the used
ones.  An item is its place in the array.
-/

namespace DtsNet
namespace Mem

/-! ## What a pool is -/

/-- The functions of a pool: an allocation gives an item, or none if none is left.  The number of
items and those that are free say what the functions do. -/
class MemItem (π : Type) where
  alloc : π → Option ℕ × π
  free : ℕ → π → π
  count : π → ℕ
  freeItems : π → List ℕ

/-- An item that is allocated was free and is not any more, and one that is freed is free again. -/
class LawfulMemItem (π : Type) [MemItem π] : Prop where
  alloc_none {p : π} : MemItem.freeItems p = [] → MemItem.alloc p = (none, p)
  alloc_some {p : π} : MemItem.freeItems p ≠ [] →
    ∃ i p', MemItem.alloc p = (some i, p') ∧
      (MemItem.freeItems p).Perm (i :: MemItem.freeItems p') ∧ MemItem.count p' = MemItem.count p
  free_perm {p : π} {i : ℕ} : i < MemItem.count p → i ∉ MemItem.freeItems p →
    (MemItem.freeItems (MemItem.free i p)).Perm (i :: MemItem.freeItems p) ∧
      MemItem.count (MemItem.free i p) = MemItem.count p

/-! ## `MEM_ITEM_LIST_API` -/

/-- The list of the free items, of so many in all. -/
structure ItemList where
  list : List ℕ
  count : ℕ
  deriving DecidableEq, Repr

/-- `MEM_ITEM_LIST_API_INIT`. -/
def ItemList.init (count : ℕ) : ItemList :=
  { list := List.range count, count := count }

instance : MemItem ItemList where
  -- `list_dequeue` and `list_enqueue`
  alloc p :=
    match p.list with
    | [] => (none, p)
    | i :: rest => (some i, { p with list := rest })
  free i p := { p with list := p.list ++ [i] }
  count := ItemList.count
  freeItems := ItemList.list

instance : LawfulMemItem ItemList where
  alloc_none {p} h := by
    have hlist : p.list = [] := h
    simp only [MemItem.alloc, hlist]
  alloc_some {p} h := by
    obtain ⟨i, rest, hlist⟩ := List.exists_cons_of_ne_nil (l := p.list) h
    refine ⟨i, { p with list := rest }, ?_, ?_, rfl⟩
    · simp only [MemItem.alloc, hlist]
    · simp only [MemItem.freeItems, hlist]
      exact List.Perm.refl _
  free_perm _ _ := ⟨List.perm_append_singleton _ _, rfl⟩

/-! ## `MEM_ITEM_ARR_API` -/

/-- The `used` marks of the items. -/
structure ItemArr where
  used : List Bool
  deriving DecidableEq, Repr

/-- No item of the static array is used at first. -/
def ItemArr.init (count : ℕ) : ItemArr :=
  { used := List.replicate count false }

/-- The loop of `mem_alloc`: the first item that is not used, and the marks with it. -/
def allocArr : List Bool → Option ℕ × List Bool
  | [] => (none, [])
  | false :: rest => (some 0, true :: rest)
  | true :: rest => ((allocArr rest).1.map (· + 1), true :: (allocArr rest).2)

/-- The places of the items that are not used. -/
def unusedItems : List Bool → List ℕ
  | [] => []
  | false :: rest => 0 :: (unusedItems rest).map (· + 1)
  | true :: rest => (unusedItems rest).map (· + 1)

instance : MemItem ItemArr where
  alloc p := ((allocArr p.used).1, { used := (allocArr p.used).2 })
  free i p := { used := p.used.set i false }
  count p := p.used.length
  freeItems p := unusedItems p.used

theorem allocArr_none {used : List Bool} (h : unusedItems used = []) :
    allocArr used = (none, used) := by
  induction used with
  | nil =>
      rfl
  | cons u rest ih =>
      cases u with
      | false =>
          simp [unusedItems] at h
      | true =>
          have hrest : unusedItems rest = [] := by simpa [unusedItems] using h
          simp [allocArr, ih hrest]

theorem allocArr_some {used : List Bool} (h : unusedItems used ≠ []) :
    ∃ i used', allocArr used = (some i, used') ∧
      (unusedItems used).Perm (i :: unusedItems used') ∧ used'.length = used.length := by
  induction used with
  | nil =>
      exact absurd rfl h
  | cons u rest ih =>
      cases u with
      | false =>
          exact ⟨0, true :: rest, rfl, List.Perm.refl _, rfl⟩
      | true =>
          have hrest : unusedItems rest ≠ [] := by simpa [unusedItems] using h
          obtain ⟨i, used', halloc, hperm, hlen⟩ := ih hrest
          refine ⟨i + 1, true :: used', ?_, ?_, ?_⟩
          · simp [allocArr, halloc]
          · simpa [unusedItems] using hperm.map (· + 1)
          · simp [hlen]

/-- Freeing a used item makes it one of the unused ones. -/
theorem unusedItems_set {used : List Bool} {i : ℕ} (hi : i < used.length)
    (hused : i ∉ unusedItems used) :
    (unusedItems (used.set i false)).Perm (i :: unusedItems used) := by
  induction used generalizing i with
  | nil =>
      simp at hi
  | cons u rest ih =>
      cases i with
      | zero =>
          cases u with
          | false =>
              simp [unusedItems] at hused
          | true =>
              exact List.Perm.refl _
      | succ i =>
          have hi' : i < rest.length := by simpa using hi
          have hused' : i ∉ unusedItems rest := by
            intro hmem
            refine hused ?_
            cases u <;> simp [unusedItems, hmem]
          have hrest := (ih hi' hused').map (· + 1)
          cases u with
          | false =>
              simpa [unusedItems] using (hrest.cons 0).trans (List.Perm.swap _ _ _)
          | true =>
              simpa [unusedItems] using hrest

instance : LawfulMemItem ItemArr where
  alloc_none {p} h := by
    have hnone : allocArr p.used = (none, p.used) := allocArr_none h
    simp only [MemItem.alloc, hnone]
  alloc_some {p} h := by
    have hused : unusedItems p.used ≠ [] := h
    obtain ⟨i, used', halloc, hperm, hlen⟩ := allocArr_some hused
    refine ⟨i, ⟨used'⟩, ?_, hperm, hlen⟩
    simp only [MemItem.alloc, halloc]
  free_perm {p i} hi hused := ⟨unusedItems_set hi hused, by simp [MemItem.count, MemItem.free]⟩

/-! ## Items in use -/

section Divided

variable {π : Type} [MemItem π]

/-- Every item of the pool is either free or held, and that once. -/
def Divided (p : π) (held : List ℕ) : Prop :=
  (MemItem.freeItems p ++ held).Perm (List.range (MemItem.count p))

variable {p : π} {held : List ℕ}

theorem Divided.nodup (h : Divided p held) : (MemItem.freeItems p ++ held).Nodup :=
  h.nodup_iff.2 List.nodup_range

theorem Divided.lt (h : Divided p held) {i : ℕ} (hi : i ∈ held) : i < MemItem.count p :=
  List.mem_range.1 (h.mem_iff.1 (List.mem_append_right _ hi))

theorem Divided.length (h : Divided p held) :
    (MemItem.freeItems p).length + held.length = MemItem.count p := by
  rw [← List.length_append, h.length_eq, List.length_range]

/-- Of a pool with items, either one is free or one is held. -/
theorem Divided.ne_nil (h : Divided p held) (hcount : 0 < MemItem.count p)
    (hfree : MemItem.freeItems p = []) : held ≠ [] := by
  have hlen := h.length
  rintro rfl
  simp only [hfree, List.length_nil] at hlen
  omega

variable [LawfulMemItem π]

/-- An item that is allocated goes over to the held ones. -/
theorem Divided.alloc (h : Divided p held) (hfree : MemItem.freeItems p ≠ []) :
    ∃ i p', MemItem.alloc p = (some i, p') ∧ i ∉ held ∧ Divided p' (i :: held) ∧
      MemItem.count p' = MemItem.count p := by
  obtain ⟨i, p', halloc, hperm, hcount⟩ := LawfulMemItem.alloc_some hfree
  refine ⟨i, p', halloc, fun hmem => ?_, ?_, hcount⟩
  · have hin : i ∈ MemItem.freeItems p := hperm.mem_iff.2 List.mem_cons_self
    exact (List.nodup_append.1 h.nodup).2.2 i hin i hmem rfl
  · rw [Divided, hcount]
    refine List.Perm.trans ?_ h
    calc
      (MemItem.freeItems p' ++ i :: held).Perm (i :: MemItem.freeItems p' ++ held) :=
        List.perm_middle
      _ |>.Perm (MemItem.freeItems p ++ held) := hperm.symm.append_right held

/-- A held item that is freed goes back, and can be allocated again. -/
theorem Divided.free (h : Divided p held) {i : ℕ} (hi : i ∈ held) :
    Divided (MemItem.free i p) (held.erase i) ∧ MemItem.freeItems (MemItem.free i p) ≠ [] ∧
      MemItem.count (MemItem.free i p) = MemItem.count p := by
  have hnot : i ∉ MemItem.freeItems p :=
    fun hin => (List.nodup_append.1 h.nodup).2.2 i hin i hi rfl
  obtain ⟨hperm, hcount⟩ := LawfulMemItem.free_perm (h.lt hi) hnot
  refine ⟨?_, fun hnil => List.cons_ne_nil _ _ (List.nil_perm.1 (hnil ▸ hperm)), hcount⟩
  rw [Divided, hcount]
  refine List.Perm.trans ?_ h
  calc
    (MemItem.freeItems (MemItem.free i p) ++ held.erase i).Perm
        (i :: MemItem.freeItems p ++ held.erase i) := hperm.append_right _
    _ |>.Perm (MemItem.freeItems p ++ i :: held.erase i) := List.perm_middle.symm
    _ |>.Perm (MemItem.freeItems p ++ held) := (List.perm_cons_erase hi).symm.append_left _

end Divided

/-- After `mem_init` every item is free. -/
theorem divided_itemList_init (count : ℕ) : Divided (ItemList.init count) [] := by
  have hfree : MemItem.freeItems (ItemList.init count) = List.range count := rfl
  rw [Divided, hfree, List.append_nil]
  rfl

theorem divided_itemArr_init (count : ℕ) : Divided (ItemArr.init count) [] := by
  have hunused : ∀ n, unusedItems (List.replicate n false) = List.range n := by
    intro n
    induction n with
    | zero =>
        rfl
    | succ n ih =>
        rw [List.replicate_succ, unusedItems, ih, List.range_succ_eq_map]
  have hcount : MemItem.count (ItemArr.init count) = count := List.length_replicate
  have hfree : MemItem.freeItems (ItemArr.init count) = List.range count := hunused count
  rw [Divided, hfree, hcount, List.append_nil]

end Mem
end DtsNet
