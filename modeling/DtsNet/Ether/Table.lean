import DtsNet.Ether.Resolution
import DtsNet.Library.Machine

/-!
# Table — the ARP table as a map with expiry

The table over a run of received frames, lookups and clock advances, next to the most recent reply
for every address.  A reply is added whether or not its address has an entry already, and a lookup
does not look at the timer of the entry it finds, so the table is the map it stands for exactly in
the runs in which neither matters.
-/

namespace DtsNet
namespace Ether

open Dblk Ip Arp Machine
open Tcp (TimerLib TimedTimerLib)

/-! ## Runs -/

inductive ArpEvent
  | received (ether : EtherT) (data : List Byte) (dataSize : ℕ)
  | lookup (ether : EtherT) (target : V4)
  | advance (seconds : ℕ)
  deriving DecidableEq, Repr

/-- The address pair of an ARP reply. -/
def receivedReply (data : List Byte) (dataSize : ℕ) : Option (V4 × Mac) :=
  match arpUnpack data dataSize with
  | none => none
  | some pkt =>
      if pkt.op = arpOpRpl then some (V4.ofMem pkt.spa, Mac.ofMem pkt.sha) else none

/-- The module, its driver and the clock; `replies` is a record of the most recent reply for every
address and of the time it came, which nothing reads. -/
structure ArpRun (τ σ : Type) where
  arp : EtherArp τ
  driver : σ
  now : ℕ
  replies : V4 → Option (Mac × ℕ)

section Table

variable {τ σ : Type} [ListLib] [TimerLib τ] [TimerRemain τ]

def ArpRun.step (send : σ → EtherT → List Byte → σ × Bool) (r : ArpRun τ σ) :
    ArpEvent → ArpRun τ σ
  | .received ether data dataSize =>
      let received := etherArpEtherRecv send r.now ether data dataSize r.arp r.driver
      { r with
        arp := received.1
        driver := received.2
        replies :=
          match receivedReply data dataSize with
          | none => r.replies
          | some (ip, mac) => Function.update r.replies ip (some (mac, r.now)) }
  | .lookup ether target =>
      match etherArpGetMacAddress send r.arp ether target r.driver with
      | none => r
      | some (driver, _) => { r with driver := driver }
  | .advance seconds => { r with now := r.now + seconds }

/-! ## The map -/

/-- No two entries have the same address. -/
def UniqueAddresses (h : EtherArp τ) : Prop :=
  (h.arpTable.map Arpti.ip).Nodup

/-- The most recent reply for the address came less than 7200 seconds ago, and its entry is still
there. -/
def ArpRun.Known (r : ArpRun τ σ) (target : V4) (mac : Mac) : Prop :=
  ∃ t, r.replies target = some (mac, t) ∧ r.now < t + 7200 ∧
    newArpti t target mac ∈ r.arp.arpTable

/-- A lookup answers what is known, and asks if nothing is. -/
structure ArpRun.LookupOk (send : σ → EtherT → List Byte → σ × Bool) (r : ArpRun τ σ)
    (ether : EtherT) (target : V4) : Prop where
  known : ∀ mac, r.Known target mac →
    etherArpGetMacAddress send r.arp ether target r.driver = some (r.driver, some mac)
  unknown : (∀ mac, ¬ r.Known target mac) →
    ∃ localhost : Netif, etherArpGetMacAddress send r.arp ether target r.driver =
      some ((send r.driver ether (arpFrameBytes ethernetBroadcastAddress ether.macAddress
        (etherPacket arpOpReq ether.macAddress localhost.addr.addr ⟨0, 0, 0, 0, 0, 0⟩ target))).1,
          none)

/-- The table is a map with expiry in every state of a run. -/
structure MapWithExpiry (send : σ → EtherT → List Byte → σ × Bool) (r : ArpRun τ σ)
    (es : List ArpEvent) : Prop where
  unique : ∀ pre, pre <+: es → UniqueAddresses (run (ArpRun.step send) r pre).arp
  lookup : ∀ pre ether target, pre ++ [.lookup ether target] <+: es →
    (run (ArpRun.step send) r pre).LookupOk send ether target

/-! ## Making room -/

/-- The entries that are left when an item for a reply has been allocated. -/
def roomFor (now : ℕ) (h : EtherArp τ) : List (Arpti τ) :=
  if h.arpTable.length < h.arptiCount then h.arpTable else releaseArptis now h.arpTable

omit [ListLib] in
theorem releaseArptis_sublist (now : ℕ) (table : List (Arpti τ)) :
    (releaseArptis now table).Sublist table := by
  unfold releaseArptis
  split
  · exact List.filter_sublist
  · cases shortestIdx now table with
    | none =>
        exact List.Sublist.refl _
    | some idx =>
        exact List.eraseIdx_sublist _ _

omit [ListLib] in
theorem roomFor_sublist (now : ℕ) (h : EtherArp τ) : (roomFor now h).Sublist h.arpTable := by
  unfold roomFor
  split
  · exact List.Sublist.refl _
  · exact releaseArptis_sublist now _

theorem learnArpti_eq (now : ℕ) (ip : V4) (mac : Mac) (h : EtherArp τ) :
    learnArpti now ip mac h =
      { h with arpTable := ListLib.add (newArpti now ip mac) (roomFor now h) } := rfl

/-- What a received frame does to the module. -/
theorem fst_etherArpEtherRecv (send : σ → EtherT → List Byte → σ × Bool) (now : ℕ)
    (ether : EtherT) (data : List Byte) (dataSize : ℕ) (h : EtherArp τ) (s : σ) :
    (etherArpEtherRecv send now ether data dataSize h s).1 =
      match receivedReply data dataSize with
      | none => h
      | some (ip, mac) => learnArpti now ip mac h := by
  unfold etherArpEtherRecv receivedReply
  cases arpUnpack data dataSize with
  | none =>
      rfl
  | some pkt =>
      by_cases hrpl : pkt.op = arpOpRpl
      · simp only [etherArpReceive, if_pos hrpl]
      · simp only [etherArpReceive, if_neg hrpl]
        split
        · cases ListLib.find (listMatchIpAddr (ipv4AddrDef (V4.ofMem pkt.tpa))) h.nifList <;> rfl
        · rfl

/-- The address of a new entry is the only new one. -/
theorem uniqueAddresses_learnArpti [LawfulListLib] {h : EtherArp τ} (hunique : UniqueAddresses h)
    (now : ℕ) (ip : V4) (mac : Mac) :
    UniqueAddresses (learnArpti now ip mac h) ↔ ∀ item ∈ roomFor now h, item.ip ≠ ip := by
  have hroom : ((roomFor now h).map Arpti.ip).Nodup :=
    hunique.sublist ((roomFor_sublist now h).map Arpti.ip)
  have hperm := (LawfulListLib.add_perm (newArpti now ip mac) (roomFor now h)).map Arpti.ip
  have hip : (newArpti (τ := τ) now ip mac).ip = ip := rfl
  rw [UniqueAddresses, learnArpti_eq, hperm.nodup_iff, List.map_cons, List.nodup_cons, hip,
    and_iff_left hroom]
  simp [List.mem_map]

/-! ## The invariant -/

/-- Every entry is what the most recent reply for its address left there, and no address has
two. -/
structure ArpRun.Inv (r : ArpRun τ σ) : Prop where
  unique : UniqueAddresses r.arp
  origin : ∀ item ∈ r.arp.arpTable, ∃ t, r.replies item.ip = some (item.mac, t) ∧
    item = newArpti t item.ip item.mac

/-- Neither defect shows: room was made for a reply whose address has no other entry, or a lookup
finds no expired entry. -/
def ArpRun.NoStaleEntry (r : ArpRun τ σ) : ArpEvent → Prop
  | .received _ data dataSize => ∀ ip mac, receivedReply data dataSize = some (ip, mac) →
      ∀ item ∈ roomFor r.now r.arp, item.ip ≠ ip
  | .lookup _ target => ∀ item ∈ r.arp.arpTable, item.ip = target →
      TimerLib.expired item.tmr r.now = false
  | .advance _ => True

/-! ## One step -/

theorem registered_step {send : σ → EtherT → List Byte → σ × Bool} {r : ArpRun τ σ} {ip : Netif}
    {ether : EtherT} (e : ArpEvent) (h : Registered r.arp ip ether) :
    Registered (r.step send e).arp ip ether := by
  cases e with
  | received eth data dataSize =>
      have harp : (r.step send (.received eth data dataSize)).arp =
          (etherArpEtherRecv send r.now eth data dataSize r.arp r.driver).1 := rfl
      rw [harp, fst_etherArpEtherRecv]
      cases receivedReply data dataSize with
      | none =>
          exact h
      | some pair =>
          exact ⟨h.mem, h.ll⟩
  | lookup eth target =>
      simp only [ArpRun.step]
      cases etherArpGetMacAddress send r.arp eth target r.driver with
      | none =>
          exact h
      | some out =>
          exact h
  | advance seconds =>
      exact h

theorem arp_step_lookup (send : σ → EtherT → List Byte → σ × Bool) (r : ArpRun τ σ)
    (ether : EtherT) (target : V4) :
    (r.step send (.lookup ether target)).arp = r.arp ∧
      (r.step send (.lookup ether target)).replies = r.replies := by
  simp only [ArpRun.step]
  cases etherArpGetMacAddress send r.arp ether target r.driver with
  | none =>
      exact ⟨rfl, rfl⟩
  | some out =>
      exact ⟨rfl, rfl⟩

theorem unique_step [LawfulListLib] {send : σ → EtherT → List Byte → σ × Bool} {r : ArpRun τ σ}
    (hr : r.Inv) (ether : EtherT) (data : List Byte) (dataSize : ℕ) :
    UniqueAddresses (r.step send (.received ether data dataSize)).arp ↔
      r.NoStaleEntry (.received ether data dataSize) := by
  have harp : (r.step send (.received ether data dataSize)).arp =
      (etherArpEtherRecv send r.now ether data dataSize r.arp r.driver).1 := rfl
  rw [harp, fst_etherArpEtherRecv, ArpRun.NoStaleEntry]
  cases receivedReply data dataSize with
  | none =>
      simp [hr.unique]
  | some pair =>
      rcases pair with ⟨ip, mac⟩
      rw [uniqueAddresses_learnArpti hr.unique r.now ip mac]
      constructor
      · rintro h ip' mac' hpair
        cases hpair
        exact h
      · intro h
        exact h ip mac rfl

/-- A step without a stale entry keeps the invariant. -/
theorem inv_step [LawfulListLib] {send : σ → EtherT → List Byte → σ × Bool} {r : ArpRun τ σ}
    {e : ArpEvent} (hr : r.Inv) (hok : r.NoStaleEntry e) : (r.step send e).Inv := by
  cases e with
  | received ether data dataSize =>
      refine ⟨(unique_step hr ether data dataSize).2 hok, ?_⟩
      have harp : (r.step send (.received ether data dataSize)).arp =
          (etherArpEtherRecv send r.now ether data dataSize r.arp r.driver).1 := rfl
      have hreplies : (r.step send (.received ether data dataSize)).replies =
          match receivedReply data dataSize with
          | none => r.replies
          | some (ip, mac) => Function.update r.replies ip (some (mac, r.now)) := rfl
      rw [harp, fst_etherArpEtherRecv, hreplies]
      rw [ArpRun.NoStaleEntry] at hok
      revert hok
      cases receivedReply data dataSize with
      | none =>
          intro _
          exact hr.origin
      | some pair =>
          rcases pair with ⟨ip, mac⟩
          intro hok item hitem
          rcases mem_add.1 hitem with rfl | hroom
          · exact ⟨r.now, Function.update_self _ _ _, rfl⟩
          · -- the entries that are left belong to other addresses, whose replies are not touched
            have hne : item.ip ≠ ip := hok ip mac rfl item hroom
            rcases hr.origin item ((roomFor_sublist _ _).subset hroom) with ⟨t, hreply, hitem⟩
            exact ⟨t, (Function.update_of_ne hne _ _).trans hreply, hitem⟩
  | lookup ether target =>
      rcases arp_step_lookup send r ether target with ⟨harp, hreplies⟩
      constructor
      · rw [harp]
        exact hr.unique
      · rw [harp, hreplies]
        exact hr.origin
  | advance seconds =>
      exact ⟨hr.unique, hr.origin⟩

/-! ## Lookups -/

omit [TimerLib τ] [TimerRemain τ] in
/-- The entry of an address is found. -/
theorem etherArpGetMacAddress_mem [LawfulListLib] {h : EtherArp τ} (hunique : UniqueAddresses h)
    (send : σ → EtherT → List Byte → σ × Bool) (ether : EtherT) (s : σ) {item : Arpti τ}
    (hmem : item ∈ h.arpTable) :
    etherArpGetMacAddress send h ether item.ip s = some (s, some item.mac) := by
  have hmatch : listMatchArpti item.ip item = true := by simp [listMatchArpti]
  obtain ⟨found, hfind⟩ := LawfulListLib.exists_find hmem hmatch
  obtain ⟨hin, hip⟩ := LawfulListLib.of_find_some hfind
  -- any other entry that matches would have the same address
  have hfound : found = item :=
    List.inj_on_of_nodup_map hunique hin hmem (by simpa [listMatchArpti] using hip)
  rw [etherArpGetMacAddress, hfind, hfound]

/-- A lookup is right exactly if no expired entry of the address is there. -/
theorem lookupOk_iff [LawfulListLib] [TimedTimerLib τ] {send : σ → EtherT → List Byte → σ × Bool}
    {r : ArpRun τ σ} {ip : Netif} {ether : EtherT} (hr : r.Inv) (hreg : Registered r.arp ip ether)
    (target : V4) : r.LookupOk send ether target ↔ r.NoStaleEntry (.lookup ether target) := by
  constructor
  · intro h item hitem htarget
    subst htarget
    rcases hr.origin item hitem with ⟨t, hreply, heq⟩
    have hget := etherArpGetMacAddress_mem hr.unique send ether r.driver hitem
    -- an answer that is not known would have to be a request
    by_contra hexpired
    have hunknown : ∀ mac, ¬ r.Known item.ip mac := by
      rintro mac ⟨t', hreply', hlt, -⟩
      have hpair : (item.mac, t) = (mac, t') := Option.some.inj (hreply.symm.trans hreply')
      have htime : t = t' := congrArg Prod.snd hpair
      rw [heq, newArpti, TimedTimerLib.expired_start] at hexpired
      simp only [Bool.not_eq_false, decide_eq_true_eq] at hexpired
      omega
    rcases h.unknown hunknown with ⟨localhost, hask⟩
    have hanswer := congrArg (Option.map Prod.snd) (hget.symm.trans hask)
    cases hanswer
  · intro hok
    constructor
    · rintro mac ⟨t, -, -, hmem⟩
      exact etherArpGetMacAddress_mem hr.unique send ether r.driver hmem
    · intro hunknown
      refine etherArpGetMacAddress_request send r.driver hreg ?_
      -- an entry of the address that has not expired would make it known
      rintro item hitem rfl
      rcases hr.origin item hitem with ⟨t, hreply, heq⟩
      have hfresh : TimerLib.expired item.tmr r.now = false := hok item hitem rfl
      rw [heq, newArpti, TimedTimerLib.expired_start] at hfresh
      have hlt : r.now < t + 7200 := by simpa using hfresh
      exact hunknown item.mac ⟨t, hreply, hlt, heq ▸ hitem⟩

/-! ## Whole runs -/

/-- What a step has to keep for the table to be a map. -/
def ArpRun.StepOk (send : σ → EtherT → List Byte → σ × Bool) (r : ArpRun τ σ)
    (e : ArpEvent) : Prop :=
  UniqueAddresses (r.step send e).arp ∧
    ∀ ether target, e = .lookup ether target → r.LookupOk send ether target

/-- A lookup is made on an Ethernet with a registered interface. -/
def ArpRun.Allowed (r : ArpRun τ σ) (e : ArpEvent) : Prop :=
  ∀ ether target, e = .lookup ether target → ∃ ip : Netif, Registered r.arp ip ether

theorem along_allowed {send : σ → EtherT → List Byte → σ × Bool} {r : ArpRun τ σ}
    {es : List ArpEvent}
    (hreg : ∀ ether target, .lookup ether target ∈ es → ∃ ip : Netif, Registered r.arp ip ether) :
    Along (ArpRun.step send) ArpRun.Allowed r es := by
  induction es generalizing r with
  | nil =>
      trivial
  | cons e es ih =>
      refine ⟨fun ether target he => hreg ether target (by simp [he]), ih ?_⟩
      intro ether target hmem
      rcases hreg ether target (List.mem_cons_of_mem e hmem) with ⟨ip, hip⟩
      exact ⟨ip, registered_step e hip⟩

/-- One step is right exactly if it meets no stale entry. -/
theorem stepOk_iff [LawfulListLib] [TimedTimerLib τ] {send : σ → EtherT → List Byte → σ × Bool}
    {r : ArpRun τ σ} {e : ArpEvent} (hr : r.Inv) (hallowed : r.Allowed e) :
    r.StepOk send e ↔ r.NoStaleEntry e := by
  cases e with
  | received ether data dataSize =>
      rw [ArpRun.StepOk, unique_step hr]
      simp
  | lookup ether target =>
      rcases hallowed ether target rfl with ⟨ip, hreg⟩
      have hunique : UniqueAddresses (r.step send (.lookup ether target)).arp := by
        rw [(arp_step_lookup send r ether target).1]
        exact hr.unique
      rw [← lookupOk_iff hr hreg target]
      constructor
      · intro h
        exact h.2 ether target rfl
      · rintro h
        refine ⟨hunique, ?_⟩
        rintro _ _ ⟨⟩
        exact h
  | advance seconds =>
      refine ⟨fun _ => trivial, fun _ => ⟨hr.unique, ?_⟩⟩
      rintro _ _ ⟨⟩

omit [ListLib] [TimerRemain τ] in
theorem inv_of_empty {r : ArpRun τ σ} (hempty : r.arp.arpTable = []) : r.Inv := by
  constructor
  · simp [UniqueAddresses, hempty]
  · simp [hempty]

theorem mapWithExpiry_iff_along {send : σ → EtherT → List Byte → σ × Bool} {r : ArpRun τ σ}
    {es : List ArpEvent} (hr : r.Inv) :
    MapWithExpiry send r es ↔ Along (ArpRun.step send) (ArpRun.StepOk send) r es := by
  rw [along_iff_prefixes]
  constructor
  · intro h pre e hpre
    refine ⟨?_, ?_⟩
    · have hunique := h.unique (pre ++ [e]) hpre
      rwa [run_append] at hunique
    · rintro ether target rfl
      exact h.lookup pre ether target hpre
  · intro h
    constructor
    -- the table before the first step is a map, the others are left by a step
    · intro pre hpre
      rcases List.eq_nil_or_concat' pre with rfl | ⟨pre, e, rfl⟩
      · exact hr.unique
      · have hstep := (h pre e hpre).1
        rwa [run_append]
    · intro pre ether target hpre
      exact (h pre _ hpre).2 ether target rfl

/-- From an empty table on, the table is a map with expiry exactly in the runs in which every reply
is for an address that has no entry any more, once an item was made free for it, and no lookup
finds an entry that has expired. -/
theorem mapWithExpiry_iff_noStaleEntry [LawfulListLib] [TimedTimerLib τ]
    (send : σ → EtherT → List Byte → σ × Bool) {r : ArpRun τ σ} {es : List ArpEvent}
    (hempty : r.arp.arpTable = [])
    (hreg : ∀ ether target, .lookup ether target ∈ es → ∃ ip : Netif, Registered r.arp ip ether) :
    MapWithExpiry send r es ↔ Along (ArpRun.step send) ArpRun.NoStaleEntry r es := by
  have hr : r.Inv := inv_of_empty hempty
  have hiff : ∀ (r : ArpRun τ σ) (e : ArpEvent), r.Inv → r.Allowed e →
      (r.StepOk send e ↔ r.NoStaleEntry e) := fun _ _ hr hallowed => stepOk_iff hr hallowed
  have hkeep : ∀ (r : ArpRun τ σ) (e : ArpEvent), r.Inv → r.Allowed e → r.NoStaleEntry e →
      (r.step send e).Inv := fun _ _ hr _ hok => inv_step hr hok
  rw [mapWithExpiry_iff_along hr]
  exact along_iff_of_invariant _ hiff hkeep hr (along_allowed hreg)

end Table

/-! ## Runs with stale entries -/

/-- A station that has just started, with one registered interface. -/
def sampleRun : ArpRun Tcp.Deadline (List (EtherT × List Byte)) :=
  { arp := (sampleStation sampleNetif sampleEthA).arp
    driver := []
    now := 0
    replies := fun _ => none }

/-- A reply in which 10.0.0.2 gives its hardware address. -/
def sampleReply (mac : Mac) : ArpEvent :=
  .received sampleEthA
    (arpPack (etherPacket arpOpRpl mac ⟨10, 0, 0, 2⟩ sampleEthA.macAddress ⟨10, 0, 0, 1⟩) 32) 28

/-- After two replies of one host it has two entries, and after two hours its entry is still
used. -/
theorem not_mapWithExpiry_sample :
    ¬ MapWithExpiry logFrame sampleRun
        [sampleReply ⟨2, 0, 0, 0, 0, 2⟩, sampleReply ⟨2, 0, 0, 0, 0, 3⟩] ∧
      ¬ MapWithExpiry logFrame sampleRun
        [sampleReply ⟨2, 0, 0, 0, 0, 2⟩, .advance 7200, .lookup sampleEthA ⟨10, 0, 0, 2⟩] := by
  constructor
  · intro h
    have hunique := h.unique _ (List.prefix_refl _)
    revert hunique
    unfold UniqueAddresses
    decide
  · intro h
    have hlookup := h.lookup [sampleReply ⟨2, 0, 0, 0, 0, 2⟩, .advance 7200] _ _
      (List.prefix_refl _)
    have hunknown : ∀ mac, ¬ (run (ArpRun.step logFrame) sampleRun
        [sampleReply ⟨2, 0, 0, 0, 0, 2⟩, .advance 7200]).Known ⟨10, 0, 0, 2⟩ mac := by
      rintro mac ⟨t, hreply, hlt, -⟩
      have htime : t = 0 := by
        cases hreply
        rfl
      subst htime
      exact absurd hlt (by decide)
    rcases hlookup.unknown hunknown with ⟨localhost, hask⟩
    have hanswer := congrArg (Option.map Prod.snd) hask
    cases hanswer

/-- One reply, and a lookup just before it expires. -/
theorem mapWithExpiry_sample :
    MapWithExpiry logFrame sampleRun
      [sampleReply ⟨2, 0, 0, 0, 0, 2⟩, .advance 7199, .lookup sampleEthA ⟨10, 0, 0, 2⟩] := by
  refine (mapWithExpiry_iff_noStaleEntry logFrame rfl ?_).2 ?_
  · intro ether target hmem
    have heth : ether = sampleEthA := by simp_all [sampleReply]
    rw [heth]
    exact ⟨sampleNetif, List.mem_singleton.2 rfl, rfl⟩
  · refine ⟨?_, trivial, ?_, trivial⟩
    · intro ip mac _ item hitem
      cases hitem
    · intro item hitem _
      obtain rfl := List.mem_singleton.1 hitem
      exact TimedTimerLib.expired_start (τ := Tcp.Deadline) TimerLib.init 0 7200 7199

end Ether
end DtsNet
