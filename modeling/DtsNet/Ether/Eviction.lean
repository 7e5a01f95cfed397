import Mathlib.Data.List.MinMax
import DtsNet.Ether.Table
import DtsNet.Mem

/-!
# Eviction — how an ARP entry gets its item

The loop of `ether_arp_ether_recv` that allocates an item for a reply, and makes one free if none is
left.  The ARP table is a list of items here, in the order in which it is walked; what an item holds
is kept beside it.  `learnArpti` says what comes of the loop.
-/

namespace DtsNet
namespace Ether

open Dblk Ip Arp Mem
open Tcp (TimerLib)

/-! ## The scan -/

/-- The pool, what its items hold, and `arp_table`. -/
structure ArptiMem (π τ : Type) where
  pool : π
  item : ℕ → Arpti τ
  table : List ℕ

/-- The variables of the scan: the pool, the items that are still in the table, `rm_cnt` and
`shortest`. -/
structure Scan (π : Type) where
  pool : π
  kept : List ℕ
  rmCnt : ℕ
  shortest : Option ℕ

variable {π τ : Type} [MemItem π] [TimerLib τ] [TimerRemain τ]

section Loop

variable (now : ℕ) (item : ℕ → Arpti τ)

def itemExpired (i : ℕ) : Bool :=
  TimerLib.expired (item i).tmr now

def itemRemain (i : ℕ) : ℕ :=
  TimerRemain.remain (item i).tmr now

/-- The body of the `list_foreach`. -/
def scanStep (st : Scan π) (dead : ℕ) : Scan π :=
  if itemExpired now item dead then
    { st with pool := MemItem.free dead st.pool, rmCnt := st.rmCnt + 1 }
  else
    { st with
      kept := st.kept ++ [dead]
      shortest :=
        match st.shortest with
        | none => some dead
        | some shortest =>
            if itemRemain now item dead < itemRemain now item shortest then
              some dead
            else
              some shortest }

/-- The walk over the table; an element that is removed on the way does not disturb it. -/
def scan (pool : π) (table : List ℕ) : Scan π :=
  table.foldl (scanStep now item) { pool := pool, kept := [], rmCnt := 0, shortest := none }

end Loop

/-- Tries to release timeout items, and else the one whose remaining time is shortest; the null
pointer is not released. -/
def releaseItems (now : ℕ) (m : ArptiMem π τ) : Option (ArptiMem π τ) :=
  let st := scan now m.item m.pool m.table
  if st.rmCnt = 0 then
    st.shortest.map fun shortest =>
      { m with
        pool := MemItem.free shortest st.pool
        table := st.kept.erase shortest }
  else
    some { m with pool := st.pool, table := st.kept }

section Learn

variable [ListLib]

/-- `while (1)`, for so many attempts to allocate an item. -/
def learnItem (now : ℕ) (ip : V4) (mac : Mac) : ℕ → ArptiMem π τ → Option (ArptiMem π τ)
  | 0, _ => none
  | attempts + 1, m =>
      match MemItem.alloc m.pool with
      | (some arpti, pool) =>
          some
            { pool := pool
              item := Function.update m.item arpti (newArpti now ip mac)
              table := ListLib.add arpti m.table }
      | (none, pool) =>
          (releaseItems now { m with pool := pool }).bind (learnItem now ip mac attempts)

/-- What a received ARP packet does to the table; a request is answered without it. -/
def arpReplyRecv (now attempts : ℕ) (data : List Byte) (dataSize : ℕ) (m : ArptiMem π τ) :
    Option (ArptiMem π τ) :=
  match receivedReply data dataSize with
  | none => some m
  | some (ip, mac) => learnItem now ip mac attempts m

end Learn

/-! ## What the scan finds -/

section Scan

variable (now : ℕ) (item : ℕ → Arpti τ) (pool : π)

def expiredOf (table : List ℕ) : List ℕ :=
  table.filter fun i => itemExpired now item i

def liveOf (table : List ℕ) : List ℕ :=
  table.filter fun i => !itemExpired now item i

/-- The state of the scan when the items `seen` have been visited. -/
structure ScanInv (seen : List ℕ) (st : Scan π) : Prop where
  kept : st.kept = liveOf now item seen
  rmCnt : st.rmCnt = (expiredOf now item seen).length
  shortest : st.shortest = (liveOf now item seen).argmin (itemRemain now item)
  free : (MemItem.freeItems st.pool).Perm
    (expiredOf now item seen ++ MemItem.freeItems pool)
  count : MemItem.count st.pool = MemItem.count pool

variable {now item pool}

/-- One more item is visited, which is not free. -/
theorem scanInv_step [LawfulMemItem π] {seen : List ℕ} {st : Scan π} {dead : ℕ}
    (h : ScanInv now item pool seen st) (hlt : dead < MemItem.count pool)
    (hfree : dead ∉ MemItem.freeItems pool) (hseen : dead ∉ seen) :
    ScanInv now item pool (seen ++ [dead]) (scanStep now item st dead) := by
  cases hdead : itemExpired now item dead with
  | true =>
      have hlive : liveOf now item (seen ++ [dead]) = liveOf now item seen := by
        simp [liveOf, hdead]
      have hexpired : expiredOf now item (seen ++ [dead]) = expiredOf now item seen ++ [dead] := by
        simp [expiredOf, hdead]
      have hnot : dead ∉ MemItem.freeItems st.pool := by
        rw [h.free.mem_iff, List.mem_append, not_or]
        exact ⟨fun hmem => hseen (List.mem_of_mem_filter hmem), hfree⟩
      obtain ⟨hperm, hcount⟩ := LawfulMemItem.free_perm (h.count ▸ hlt) hnot
      simp only [scanStep, hdead, if_true]
      refine ⟨?_, ?_, ?_, ?_, hcount.trans h.count⟩
      · rw [hlive]
        exact h.kept
      · rw [hexpired, List.length_append, h.rmCnt]
        rfl
      · rw [hlive]
        exact h.shortest
      · rw [hexpired, List.append_assoc]
        exact (hperm.trans (h.free.cons dead)).trans List.perm_middle.symm
  | false =>
      have hlive : liveOf now item (seen ++ [dead]) = liveOf now item seen ++ [dead] := by
        simp [liveOf, hdead]
      have hexpired : expiredOf now item (seen ++ [dead]) = expiredOf now item seen := by
        simp [expiredOf, hdead]
      simp only [scanStep, hdead, Bool.false_eq_true, if_false]
      refine ⟨?_, ?_, ?_, ?_, h.count⟩
      · rw [hlive, h.kept]
      · rw [hexpired]
        exact h.rmCnt
      · -- the comparison of the code is that of `argmin`, the earlier of equal items stays
        rw [hlive, List.argmin_concat, ← h.shortest]
        cases st.shortest <;> rfl
      · rw [hexpired]
        exact h.free

theorem scanInv_scan [LawfulMemItem π] {table : List ℕ} (hlt : ∀ i ∈ table, i < MemItem.count pool)
    (hnodup : (MemItem.freeItems pool ++ table).Nodup) :
    ScanInv now item pool table (scan now item pool table) := by
  have hinit : ScanInv now item pool []
      { pool := pool, kept := [], rmCnt := 0, shortest := none } :=
    ⟨rfl, rfl, rfl, List.Perm.refl _, rfl⟩
  -- the items that were seen and those to come make up the table
  have hrun : ∀ (rest seen : List ℕ) (st : Scan π), seen ++ rest = table →
      ScanInv now item pool seen st →
      ScanInv now item pool table (rest.foldl (scanStep now item) st) := by
    intro rest
    induction rest with
    | nil =>
        intro seen st hsplit h
        rw [List.append_nil] at hsplit
        rw [← hsplit]
        exact h
    | cons dead rest ih =>
        intro seen st hsplit h
        have hmem : dead ∈ table := by simp [← hsplit]
        obtain ⟨-, htable, hdisjoint⟩ := List.nodup_append.1 hnodup
        have hseen : dead ∉ seen := by
          intro hin
          rw [← hsplit] at htable
          exact (List.nodup_append.1 htable).2.2 dead hin dead List.mem_cons_self rfl
        have hfree : dead ∉ MemItem.freeItems pool :=
          fun hin => hdisjoint dead hin dead hmem rfl
        exact ih (seen ++ [dead]) _ (by simp [← hsplit])
          (scanInv_step h (hlt dead hmem) hfree hseen)
  exact hrun table [] _ rfl hinit

end Scan

/-! ## One release -/

/-- The items that are left in the table: those that have not expired if any has, and else all but
one whose remaining time is shortest. -/
def Released (now : ℕ) (item : ℕ → Arpti τ) (table kept : List ℕ) : Prop :=
  (expiredOf now item table ≠ [] ∧ kept = liveOf now item table) ∨
    (expiredOf now item table = [] ∧
      ∃ least ∈ table, (∀ i ∈ table, itemRemain now item least ≤ itemRemain now item i) ∧
        kept = table.erase least)

omit [TimerRemain τ] in
theorem liveOf_of_expiredOf_eq_nil {now : ℕ} {item : ℕ → Arpti τ} {table : List ℕ}
    (h : expiredOf now item table = []) : liveOf now item table = table := by
  rw [expiredOf, List.filter_eq_nil_iff] at h
  rw [liveOf, List.filter_eq_self]
  intro i hi
  simpa using h i hi

omit [TimerRemain τ] in
theorem perm_expiredOf_liveOf (now : ℕ) (item : ℕ → Arpti τ) (table : List ℕ) :
    (expiredOf now item table ++ liveOf now item table).Perm table :=
  List.filter_append_perm _ table

/-- The same, with the one item named: of several whose remaining time is shortest, the first. -/
def releasedTable (now : ℕ) (item : ℕ → Arpti τ) (table : List ℕ) : List ℕ :=
  if expiredOf now item table = [] then
    match table.argmin (itemRemain now item) with
    | none => table
    | some least => table.erase least
  else
    liveOf now item table

theorem released_releasedTable (now : ℕ) (item : ℕ → Arpti τ) {table : List ℕ} (hne : table ≠ []) :
    Released now item table (releasedTable now item table) := by
  by_cases hexpired : expiredOf now item table = []
  · cases hleast : table.argmin (itemRemain now item) with
    | none =>
        exact absurd (List.argmin_eq_none.1 hleast) hne
    | some least =>
        refine Or.inr ⟨hexpired, least, List.argmin_mem hleast,
          fun i hi => List.le_of_mem_argmin hi hleast, ?_⟩
        simp only [releasedTable, hexpired, if_true, hleast]
  · exact Or.inl ⟨hexpired, if_neg hexpired⟩

variable [LawfulMemItem π]

/-- The items that the scan removes go back to the pool. -/
theorem divided_scan (now : ℕ) {m : ArptiMem π τ} (hm : Divided m.pool m.table) :
    Divided (scan now m.item m.pool m.table).pool (scan now m.item m.pool m.table).kept := by
  have hscan : ScanInv now m.item m.pool m.table (scan now m.item m.pool m.table) :=
    scanInv_scan (fun i => hm.lt) hm.nodup
  rw [Divided, hscan.count, hscan.kept]
  refine List.Perm.trans ?_ hm
  calc
    (MemItem.freeItems (scan now m.item m.pool m.table).pool ++ liveOf now m.item m.table).Perm
        (MemItem.freeItems m.pool ++ expiredOf now m.item m.table ++
          liveOf now m.item m.table) :=
      (hscan.free.trans List.perm_append_comm).append_right _
    _ |>.Perm (MemItem.freeItems m.pool ++ m.table) := by
      rw [List.append_assoc]
      exact (perm_expiredOf_liveOf now m.item m.table).append_left _

/-- A release of a full pool frees an item, and the table keeps the others. -/
theorem releaseItems_spec (now : ℕ) {m : ArptiMem π τ} (hm : Divided m.pool m.table)
    (hne : m.table ≠ []) :
    ∃ m', releaseItems now m = some m' ∧ m'.item = m.item ∧
      m'.table = releasedTable now m.item m.table ∧ Divided m'.pool m'.table ∧
      MemItem.freeItems m'.pool ≠ [] ∧ MemItem.count m'.pool = MemItem.count m.pool := by
  let st := scan now m.item m.pool m.table
  have hscan : ScanInv now m.item m.pool m.table st := scanInv_scan (fun i => hm.lt) hm.nodup
  have hpart : Divided st.pool st.kept := divided_scan now hm
  by_cases hexpired : expiredOf now m.item m.table = []
  · -- nothing was removed, so that the item whose remaining time is shortest is
    have hzero : st.rmCnt = 0 := by
      rw [hscan.rmCnt, hexpired]
      rfl
    have hkept : st.kept = m.table := hscan.kept.trans (liveOf_of_expiredOf_eq_nil hexpired)
    have hshortest : st.shortest = m.table.argmin (itemRemain now m.item) := by
      rw [hscan.shortest, liveOf_of_expiredOf_eq_nil hexpired]
    cases hleast : m.table.argmin (itemRemain now m.item) with
    | none =>
        exact absurd (List.argmin_eq_none.1 hleast) hne
    | some least =>
        obtain ⟨hfreed, hsome, hcount⟩ :=
          hpart.free (show least ∈ st.kept from hkept ▸ List.argmin_mem hleast)
        rw [hkept] at hfreed
        refine ⟨{ m with
          pool := MemItem.free least st.pool
          table := m.table.erase least }, ?_, rfl, ?_, hfreed, hsome, hcount.trans hscan.count⟩
        · rw [releaseItems]
          simp only [show scan now m.item m.pool m.table = st from rfl, hzero, if_true, hshortest,
            hleast, hkept, Option.map_some]
        · simp only [releasedTable, hexpired, if_true, hleast]
  · -- the scan itself has removed something
    have hcnt : st.rmCnt ≠ 0 := by
      rw [hscan.rmCnt]
      exact fun h => hexpired (List.eq_nil_of_length_eq_zero h)
    refine ⟨{ m with pool := st.pool, table := st.kept }, ?_, rfl, ?_, hpart, ?_, hscan.count⟩
    · rw [releaseItems]
      simp only [show scan now m.item m.pool m.table = st from rfl, if_neg hcnt]
    · exact hscan.kept.trans (if_neg hexpired).symm
    · intro hnil
      have hempty := List.nil_perm.1 (hnil ▸ hscan.free)
      exact hexpired (List.append_eq_nil_iff.1 hempty).1

/-! ## The release seen from outside -/

section Entries

variable (now : ℕ) (item : ℕ → Arpti τ) (table : List ℕ)

omit [MemItem π] [TimerLib τ] [LawfulMemItem π] in
theorem shortestIdx_map :
    shortestIdx now (table.map item) =
      (table.argmin (itemRemain now item)).map fun i => (table.idxOf i, itemRemain now item i) := by
  induction table with
  | nil =>
      rfl
  | cons dead rest ih =>
      rw [List.map_cons, shortestIdx, ih, List.argmin_cons]
      cases rest.argmin (itemRemain now item) with
      | none =>
          simp [itemRemain]
      | some least =>
          by_cases hlt : itemRemain now item least < itemRemain now item dead
          · have hne : dead ≠ least := by
              rintro rfl
              exact Nat.lt_irrefl _ hlt
            simp only [Option.map_some, if_pos hlt]
            rw [if_pos (show itemRemain now item least < TimerRemain.remain (item dead).tmr now from
              hlt), List.idxOf_cons_ne rest hne]
          · simp only [Option.map_some, if_neg hlt]
            rw [if_neg (show ¬ itemRemain now item least <
              TimerRemain.remain (item dead).tmr now from hlt), List.idxOf_cons_self]
            rfl

/-- On the entries that the items hold, the scan is `releaseArptis`. -/
theorem releaseArptis_map :
    releaseArptis now (table.map item) = (releasedTable now item table).map item := by
  have hany : ((table.map item).any fun entry => TimerLib.expired entry.tmr now) = true ↔
      expiredOf now item table ≠ [] := by
    simp [expiredOf, itemExpired]
  by_cases hexpired : expiredOf now item table = []
  · have hnone : ¬ ((table.map item).any fun entry => TimerLib.expired entry.tmr now) = true :=
      fun h => hany.1 h hexpired
    rw [releaseArptis, if_neg hnone, releasedTable, if_pos hexpired, shortestIdx_map]
    cases table.argmin (itemRemain now item) with
    | none =>
        rfl
    | some least =>
        have herase : table.erase least = table.eraseIdx (table.idxOf least) :=
          List.erase_eq_eraseIdx_of_idxOf rfl
        simp only [Option.map_some, herase]
        exact List.eraseIdx_map item table _
  · rw [releaseArptis, if_pos (hany.2 hexpired), releasedTable, if_neg hexpired, liveOf,
      List.filter_map]
    rfl

end Entries

/-! ## The whole loop -/

section Whole

variable [ListLib] [LawfulListLib]

/-- The state after an item was allocated for the pair, where the table had the entries `kept`. -/
structure Added (now : ℕ) (ip : V4) (mac : Mac) (m : ArptiMem π τ) (kept : List ℕ)
    (m' : ArptiMem π τ) (new : ℕ) : Prop where
  table : m'.table = ListLib.add new kept
  item : m'.item = Function.update m.item new (newArpti now ip mac)
  fresh : new ∉ kept
  divided : Divided m'.pool m'.table
  count : MemItem.count m'.pool = MemItem.count m.pool

/-- With a free item the first attempt is the last. -/
theorem learnItem_of_free (now : ℕ) (ip : V4) (mac : Mac) {m : ArptiMem π τ}
    (hm : Divided m.pool m.table) (hfree : MemItem.freeItems m.pool ≠ []) :
    ∃ m' new, (∀ attempts, learnItem now ip mac (attempts + 1) m = some m') ∧
      Added now ip mac m m.table m' new := by
  obtain ⟨new, pool, halloc, hfresh, hheld, hcount⟩ := hm.alloc hfree
  refine ⟨_, new, fun attempts => by simp only [learnItem, halloc]; rfl,
    { table := rfl
      item := rfl
      fresh := hfresh
      divided := ?_
      count := hcount }⟩
  exact ((LawfulListLib.add_perm new m.table).append_left _).trans hheld

/-- Without one, an item is released and the second attempt is the last. -/
theorem learnItem_of_full (now : ℕ) (ip : V4) (mac : Mac) {m : ArptiMem π τ}
    (hm : Divided m.pool m.table) (hcount : 0 < MemItem.count m.pool)
    (hfree : MemItem.freeItems m.pool = []) :
    ∃ m' new, learnItem now ip mac 2 m = some m' ∧
      Added now ip mac m (releasedTable now m.item m.table) m' new := by
  obtain ⟨mid, hmid, hitem, htable, hpart, hne, hcountMid⟩ :=
    releaseItems_spec now hm (hm.ne_nil hcount hfree)
  obtain ⟨m', new, hlearn, hadded⟩ := learnItem_of_free now ip mac hpart hne
  refine ⟨m', new, ?_, ?_⟩
  · rw [learnItem, LawfulMemItem.alloc_none hfree]
    simp only [hmid, Option.bind_some]
    exact hlearn 0
  · rw [← htable]
    exact
      { hadded with
        item := hitem ▸ hadded.item
        count := hadded.count.trans hcountMid }

/-- The loop does what `learnArpti` says of the entries that the items hold. -/
theorem learnItem_refines (now : ℕ) (ip : V4) (mac : Mac) {m : ArptiMem π τ} {h : EtherArp τ}
    (hm : Divided m.pool m.table) (hcount : 0 < MemItem.count m.pool)
    (htable : h.arpTable = m.table.map m.item) (harpti : h.arptiCount = MemItem.count m.pool) :
    ∃ m', learnItem now ip mac 2 m = some m' ∧
      (m'.table.map m'.item).Perm (learnArpti now ip mac h).arpTable := by
  have hlen := hm.length
  have hroom : h.arpTable.length < h.arptiCount ↔ MemItem.freeItems m.pool ≠ [] := by
    rw [htable, harpti, List.length_map, ← List.length_pos_iff_ne_nil]
    omega
  -- the entries behind the items are those of the table, with the new one in front
  have hadd : ∀ {m' : ArptiMem π τ} {kept : List ℕ} {new : ℕ}, Added now ip mac m kept m' new →
      roomFor now h = kept.map m.item →
      (m'.table.map m'.item).Perm (learnArpti now ip mac h).arpTable := by
    intro m' kept new hadded hkept
    have hold : kept.map m'.item = kept.map m.item := by
      refine List.map_congr_left fun i hi => ?_
      have hne : i ≠ new := fun heq => hadded.fresh (heq ▸ hi)
      rw [hadded.item, Function.update_of_ne hne]
    have hnew : m'.item new = newArpti now ip mac := by
      rw [hadded.item, Function.update_self]
    calc
      (m'.table.map m'.item).Perm ((new :: kept).map m'.item) := by
        rw [hadded.table]
        exact (LawfulListLib.add_perm new kept).map m'.item
      _ = newArpti now ip mac :: roomFor now h := by
        rw [List.map_cons, hold, hnew, hkept]
      _ |>.Perm (learnArpti now ip mac h).arpTable := by
        rw [learnArpti_eq]
        exact (LawfulListLib.add_perm _ _).symm
  by_cases hfree : MemItem.freeItems m.pool = []
  · obtain ⟨m', new, hlearn, hadded⟩ := learnItem_of_full now ip mac hm hcount hfree
    refine ⟨m', hlearn, hadd hadded ?_⟩
    rw [roomFor, if_neg (fun hlt => hroom.1 hlt hfree), htable, releaseArptis_map]
  · obtain ⟨m', new, hlearn, hadded⟩ := learnItem_of_free now ip mac hm hfree
    refine ⟨m', hlearn 1, hadd hadded ?_⟩
    rw [roomFor, if_pos (hroom.2 hfree), htable]

/-- What a reply leaves: the new entry, and the old ones but for those that had to be released. -/
structure Learned (now : ℕ) (ip : V4) (mac : Mac) (m m' : ArptiMem π τ) : Prop where
  entry : ∃ new kept, m'.table.Perm (new :: kept) ∧ new ∉ kept ∧
    m'.item new = newArpti now ip mac ∧ (∀ i ∈ kept, m'.item i = m.item i) ∧
    (MemItem.freeItems m.pool ≠ [] → kept = m.table) ∧
    (MemItem.freeItems m.pool = [] → Released now m.item m.table kept)
  bounded : m'.table.length ≤ MemItem.count m.pool
  divided : Divided m'.pool m'.table
  count : MemItem.count m'.pool = MemItem.count m.pool

omit [LawfulMemItem π] in
theorem learned_of_added {now : ℕ} {ip : V4} {mac : Mac} {m m' : ArptiMem π τ} {kept : List ℕ}
    {new : ℕ} (h : Added now ip mac m kept m' new)
    (hkept : MemItem.freeItems m.pool ≠ [] → kept = m.table)
    (hreleased : MemItem.freeItems m.pool = [] → Released now m.item m.table kept) :
    Learned now ip mac m m' := by
  refine ⟨⟨new, kept, ?_, h.fresh, ?_, ?_, hkept, hreleased⟩, ?_, h.divided, h.count⟩
  · rw [h.table]
    exact LawfulListLib.add_perm new kept
  · rw [h.item, Function.update_self]
  · intro i hi
    have hne : i ≠ new := fun heq => h.fresh (heq ▸ hi)
    rw [h.item, Function.update_of_ne hne]
  · have hlen := h.divided.length
    rw [h.count] at hlen
    omega

/-- An accepted reply is learned within two attempts to allocate an item, and within one if an item
is free. -/
theorem arpReplyRecv_learned (now : ℕ) {m : ArptiMem π τ} (hm : Divided m.pool m.table)
    (hcount : 0 < MemItem.count m.pool) {data : List Byte} {dataSize : ℕ} {ip : V4} {mac : Mac}
    (hreply : receivedReply data dataSize = some (ip, mac)) :
    ∃ m', arpReplyRecv now 2 data dataSize m = some m' ∧ Learned now ip mac m m' ∧
      (MemItem.freeItems m.pool ≠ [] → arpReplyRecv now 1 data dataSize m = some m') := by
  simp only [arpReplyRecv, hreply]
  by_cases hfree : MemItem.freeItems m.pool = []
  · obtain ⟨m', new, hlearn, hadded⟩ := learnItem_of_full now ip mac hm hcount hfree
    exact ⟨m', hlearn, learned_of_added hadded (fun h => absurd hfree h)
      fun _ => released_releasedTable now m.item (hm.ne_nil hcount hfree), fun h => absurd hfree h⟩
  · obtain ⟨m', new, hlearn, hadded⟩ := learnItem_of_free now ip mac hm hfree
    exact ⟨m', hlearn 1, learned_of_added hadded (fun _ => rfl) (fun h => absurd h hfree),
      fun _ => hlearn 0⟩

end Whole

/-- A pool of one item, which is in the table, in the implementation with an array. -/
def sampleMem : ArptiMem ItemArr Tcp.Deadline :=
  { pool := { used := [true] }
    item := fun _ => { ip := ⟨10, 0, 0, 3⟩, mac := ⟨2, 0, 0, 0, 0, 3⟩, tmr := ⟨some 100⟩ }
    table := [0] }

theorem arpReplyRecv_learned_sample :
    ∃ m', arpReplyRecv 0 2
        (arpPack (etherPacket arpOpRpl ⟨2, 0, 0, 0, 0, 2⟩ ⟨10, 0, 0, 2⟩ sampleEthA.macAddress
          ⟨10, 0, 0, 1⟩) 32) 28 sampleMem = some m' ∧
      Learned 0 ⟨10, 0, 0, 2⟩ ⟨2, 0, 0, 0, 0, 2⟩ sampleMem m' := by
  obtain ⟨m', hlearn, hlearned, -⟩ :=
    arpReplyRecv_learned 0 (m := sampleMem) (List.Perm.refl _) (by decide)
      (by decide +kernel : receivedReply (arpPack (etherPacket arpOpRpl ⟨2, 0, 0, 0, 0, 2⟩
        ⟨10, 0, 0, 2⟩ sampleEthA.macAddress ⟨10, 0, 0, 1⟩) 32) 28 =
          some (⟨10, 0, 0, 2⟩, ⟨2, 0, 0, 0, 0, 2⟩))
  exact ⟨m', hlearn, hlearned⟩

end Ether
end DtsNet
