import DtsNet.Dhcp.Options

/-!
# Inside — which bytes the lookups read

The walk over the options compares its cursor with `option_size` once in a turn, and then reads up
to three bytes from the cursor on, and the value of the option it has found.  Here every read is
recorded with its offset in the option area.
-/

namespace DtsNet
namespace Dhcp

open Dblk

/-! ## The walk with its reads -/

/-- The offsets that a lookup reads, and where it finds the code. -/
structure Lookup where
  reads : List ℕ
  found : Option ℕ
  deriving DecidableEq, Repr

def Lookup.behind (r : Lookup) (reads : List ℕ) : Lookup :=
  { r with reads := reads ++ r.reads }

/-- The loop; `need` bytes of a value are read.  Without fuel there is no outcome. -/
def scanLoop (option : List Byte) (optionSize : ℕ) (code : ℤ) (need : ℕ) :
    ℕ → ℕ → Option Lookup
  | 0, _ => none
  | fuel + 1, ptr =>
      if ptr < optionSize then
        if (option.getD ptr 0).toNat = code then
          some { reads := ptr :: (List.range need).map (ptr + 2 + ·), found := some ptr }
        else
          let next := if option.getD ptr 0 = dhcpOptPad then ptr + 1 else ptr
          if option.getD next 0 = dhcpOptEnd then
            some { reads := [ptr, next], found := none }
          else
            (scanLoop option optionSize code need fuel
              (next + 2 + (option.getD (next + 1) 0).toNat)).map
                (Lookup.behind · [ptr, next, next + 1])
      else
        some { reads := [], found := none }

/-- A lookup, with the four bytes that are compared with the cookie. -/
def scan (fuel : ℕ) (msg : DhcpMessage) (code : ℤ) (need : ℕ) : Option Lookup :=
  if memRead msg.option 4 = dhcpOptMagic then
    (scanLoop msg.option msg.optionSize code need fuel 4).map (Lookup.behind · [0, 1, 2, 3])
  else
    some { reads := [0, 1, 2, 3], found := none }

/-- `dhcp_option_message_type` reads one byte of the value, `dhcp_option_long` four. -/
def scanMessageType (fuel : ℕ) (msg : DhcpMessage) : Option Lookup :=
  scan fuel msg dhcpOptDhcpMsgTypeTag.toNat 1

def scanLong (fuel : ℕ) (msg : DhcpMessage) (code : ℤ) : Option Lookup :=
  scan fuel msg code 4

/-- Where the code is found is what the lookup without the reads says. -/
theorem found_scanLoop {option : List Byte} {optionSize : ℕ} {code : UInt8} {need fuel ptr : ℕ}
    {r : Lookup} (h : scanLoop option optionSize code.toNat need fuel ptr = some r) :
    dhcpOptionLoop option optionSize code fuel ptr = r.found := by
  induction fuel generalizing ptr r with
  | zero =>
      cases h
  | succ fuel ih =>
      -- the code is an `int` there, and a byte here
      have hcode : ((option.getD ptr 0).toNat : ℤ) = code.toNat ↔ option.getD ptr 0 = code := by
        rw [Nat.cast_inj, UInt8.toNat_inj]
      rw [scanLoop] at h
      rw [dhcpOptionLoop]
      by_cases hptr : ptr < optionSize
      · rw [if_pos hptr] at h ⊢
        by_cases hfound : option.getD ptr 0 = code
        · rw [if_pos (hcode.2 hfound)] at h
          rw [if_pos hfound, ← Option.some.inj h]
        · rw [if_neg (mt hcode.1 hfound)] at h
          rw [if_neg hfound]
          dsimp only at h ⊢
          obtain ⟨next, hnext⟩ : ∃ next, next =
              if option.getD ptr 0 = dhcpOptPad then ptr + 1 else ptr := ⟨_, rfl⟩
          rw [← hnext] at h ⊢
          by_cases hend : option.getD next 0 = dhcpOptEnd
          · rw [if_pos hend] at h ⊢
            rw [← Option.some.inj h]
          · rw [if_neg hend] at h ⊢
            obtain ⟨r', hr', rfl⟩ := Option.map_eq_some_iff.1 h
            rw [ih hr']
            rfl
      · rw [if_neg hptr] at h ⊢
        rw [← Option.some.inj h]

theorem found_scan {msg : DhcpMessage} {code : UInt8} {need : ℕ} {r : Lookup}
    (h : scan msg.optionSize msg code.toNat need = some r) : dhcpOptionFind msg code = r.found := by
  rw [scan] at h
  rw [dhcpOptionFind]
  by_cases hmagic : memRead msg.option 4 = dhcpOptMagic
  · rw [if_pos hmagic] at h ⊢
    obtain ⟨r', hr', rfl⟩ := Option.map_eq_some_iff.1 h
    exact (found_scanLoop hr').trans rfl
  · rw [if_neg hmagic] at h ⊢
    rw [← Option.some.inj h]

/-! ## Complete entries -/

/-- The bytes behind the cookie are complete entries, as far as the walk looks at them: up to an
option with the code that has all its bytes and the needed ones, up to END, or up to the end.  A
padding byte belongs to the entry behind it.  The value of another option may be cut off. -/
inductive Complete (code : ℤ) (need : ℕ) : List Byte → Prop
  | done : Complete code need []
  | found {tag length : Byte} {rest : List Byte} :
      tag.toNat = code → need ≤ rest.length → length.toNat ≤ rest.length →
        Complete code need (tag :: length :: rest)
  | stop {rest : List Byte} :
      dhcpOptEnd.toNat ≠ code → Complete code need (dhcpOptEnd :: rest)
  | padStop {rest : List Byte} :
      dhcpOptPad.toNat ≠ code → Complete code need (dhcpOptPad :: dhcpOptEnd :: rest)
  | skip {tag length : Byte} {rest : List Byte} :
      tag.toNat ≠ code → tag ≠ dhcpOptPad → tag ≠ dhcpOptEnd →
        Complete code need (rest.drop length.toNat) → Complete code need (tag :: length :: rest)
  | padSkip {tag length : Byte} {rest : List Byte} :
      dhcpOptPad.toNat ≠ code → tag ≠ dhcpOptEnd →
        Complete code need (rest.drop length.toNat) →
          Complete code need (dhcpOptPad :: tag :: length :: rest)

section Complete

variable {code : ℤ} {need : ℕ}

theorem complete_found_iff {tag : Byte} (htag : (tag.toNat : ℤ) = code) (bytes : List Byte) :
    Complete code need (tag :: bytes) ↔
      ∃ length rest, bytes = length :: rest ∧ need ≤ rest.length ∧ length.toNat ≤ rest.length := by
  constructor
  · intro h
    cases h with
    | found _ hneed hlength => exact ⟨_, _, rfl, hneed, hlength⟩
    | stop hne => exact absurd htag hne
    | padStop hne => exact absurd htag hne
    | skip hne => exact absurd htag hne
    | padSkip hne => exact absurd htag hne
  · rintro ⟨length, rest, rfl, hneed, hlength⟩
    exact .found htag hneed hlength

theorem complete_skip_iff {tag : Byte} (htag : (tag.toNat : ℤ) ≠ code) (hpad : tag ≠ dhcpOptPad)
    (hend : tag ≠ dhcpOptEnd) (bytes : List Byte) :
    Complete code need (tag :: bytes) ↔
      ∃ length rest, bytes = length :: rest ∧ Complete code need (rest.drop length.toNat) := by
  constructor
  · intro h
    cases h with
    | found heq => exact absurd heq htag
    | stop => exact absurd rfl hend
    | padStop => exact absurd rfl hpad
    | skip _ _ _ hrest => exact ⟨_, _, rfl, hrest⟩
    | padSkip => exact absurd rfl hpad
  · rintro ⟨length, rest, rfl, hrest⟩
    exact .skip htag hpad hend hrest

theorem complete_pad_iff (hpad : (dhcpOptPad.toNat : ℤ) ≠ code) (bytes : List Byte) :
    Complete code need (dhcpOptPad :: bytes) ↔
      (∃ rest, bytes = dhcpOptEnd :: rest) ∨
        ∃ tag length rest, bytes = tag :: length :: rest ∧ tag ≠ dhcpOptEnd ∧
          Complete code need (rest.drop length.toNat) := by
  constructor
  · intro h
    cases h with
    | found heq => exact absurd heq hpad
    | padStop => exact Or.inl ⟨_, rfl⟩
    | skip _ hne => exact absurd rfl hne
    | padSkip _ hend hrest => exact Or.inr ⟨_, _, _, rfl, hend, hrest⟩
  · rintro (⟨rest, rfl⟩ | ⟨tag, length, rest, rfl, hend, hrest⟩)
    · exact .padStop hpad
    · exact .padSkip hpad hend hrest

end Complete

/-! ## Reads inside the area -/

/-- Every read lies in the option area, and what is found there is not cut off by its end. -/
structure Lookup.Inside (r : Lookup) (option : List Byte) (optionSize : ℕ) : Prop where
  reads : ∀ i ∈ r.reads, i < optionSize
  found : ∀ ptr ∈ r.found, ptr + 1 < optionSize ∧
    ptr + 2 + (option.getD (ptr + 1) 0).toNat ≤ optionSize

theorem inside_behind (r : Lookup) (reads : List ℕ) (option : List Byte) (optionSize : ℕ) :
    (r.behind reads).Inside option optionSize ↔
      (∀ i ∈ reads, i < optionSize) ∧ r.Inside option optionSize := by
  constructor
  · rintro ⟨hreads, hfound⟩
    rw [Lookup.behind, List.forall_mem_append] at hreads
    exact ⟨hreads.1, hreads.2, hfound⟩
  · rintro ⟨hreads, hrest, hfound⟩
    exact ⟨List.forall_mem_append.2 ⟨hreads, hrest⟩, hfound⟩

/-- The outcome of the loop from `ptr` on, with enough fuel, and whether it stays inside. -/
def Outcome (option : List Byte) (optionSize : ℕ) (code : ℤ) (need ptr : ℕ) (P : Prop) : Prop :=
  ∃ r, (∀ fuel, optionSize - ptr < fuel →
    scanLoop option optionSize code need fuel ptr = some r) ∧ (r.Inside option optionSize ↔ P)

section Turns

variable {option : List Byte} {optionSize : ℕ} {code : ℤ} {need ptr : ℕ} {bytes : List Byte}

/-- One turn, on the bytes from the cursor on. -/
theorem scanLoop_turn (code : ℤ) (need : ℕ) (hbytes : option.drop ptr = bytes)
    (hptr : ptr < optionSize) (fuel : ℕ) :
    scanLoop option optionSize code need (fuel + 1) ptr =
      if (bytes.getD 0 0).toNat = code then
        some { reads := ptr :: (List.range need).map (ptr + 2 + ·), found := some ptr }
      else if bytes.getD 0 0 = dhcpOptPad then
        if bytes.getD 1 0 = dhcpOptEnd then
          some { reads := [ptr, ptr + 1], found := none }
        else
          (scanLoop option optionSize code need fuel (ptr + 3 + (bytes.getD 2 0).toNat)).map
            (Lookup.behind · [ptr, ptr + 1, ptr + 2])
      else if bytes.getD 0 0 = dhcpOptEnd then
        some { reads := [ptr, ptr], found := none }
      else
        (scanLoop option optionSize code need fuel (ptr + 2 + (bytes.getD 1 0).toNat)).map
          (Lookup.behind · [ptr, ptr, ptr + 1]) := by
  subst hbytes
  rw [scanLoop, if_pos hptr]
  simp only [getD_drop, Nat.add_zero]
  by_cases hpad : option.getD ptr 0 = dhcpOptPad
  · simp only [hpad, if_true]
  · simp only [hpad, if_false]

/-- The outcome of a turn that ends the loop. -/
theorem outcome_ends {r : Lookup} {P : Prop}
    (hturn : ∀ fuel, scanLoop option optionSize code need (fuel + 1) ptr = some r)
    (hP : r.Inside option optionSize ↔ P) : Outcome option optionSize code need ptr P := by
  refine ⟨r, fun fuel hfuel => ?_, hP⟩
  obtain ⟨fuel, rfl⟩ := Nat.exists_eq_succ_of_ne_zero (Nat.ne_of_gt (Nat.zero_lt_of_lt hfuel))
  exact hturn fuel

/-- The outcome of a turn after which the loop goes on. -/
theorem outcome_goes_on {next : ℕ} {reads : List ℕ} {P : Prop} (hptr : ptr < optionSize)
    (hnext : ptr < next)
    (hturn : ∀ fuel, scanLoop option optionSize code need (fuel + 1) ptr =
      (scanLoop option optionSize code need fuel next).map (Lookup.behind · reads))
    (hrest : Outcome option optionSize code need next P) :
    Outcome option optionSize code need ptr ((∀ i ∈ reads, i < optionSize) ∧ P) := by
  obtain ⟨r, hr, hP⟩ := hrest
  refine ⟨r.behind reads, fun fuel hfuel => ?_, (inside_behind r reads _ _).trans
    (and_congr_right fun _ => hP)⟩
  obtain ⟨fuel, rfl⟩ := Nat.exists_eq_succ_of_ne_zero (Nat.ne_of_gt (Nat.zero_lt_of_lt hfuel))
  rw [Nat.succ_eq_add_one, hturn, hr fuel (by omega)]
  rfl

theorem Outcome.congr {P Q : Prop} (h : Outcome option optionSize code need ptr P) (hPQ : P ↔ Q) :
    Outcome option optionSize code need ptr Q := by
  obtain ⟨r, hr, hP⟩ := h
  exact ⟨r, hr, hP.trans hPQ⟩

end Turns

section Cursor

variable {area beyond : List Byte} {code : ℤ} {need ptr : ℕ} {tag : Byte} {tail : List Byte}

theorem length_of_drop (hdrop : area.drop ptr = tag :: tail) :
    area.length - ptr = tail.length + 1 := by
  rw [← List.length_drop, hdrop, List.length_cons]

/-- The bytes from the cursor on, with what lies behind the area. -/
theorem drop_append_beyond (hdrop : area.drop ptr = tag :: tail) (beyond : List Byte) :
    (area ++ beyond).drop ptr = tag :: (tail ++ beyond) := by
  have hlen := length_of_drop hdrop
  rw [List.drop_append_of_le_length (by omega), hdrop, List.cons_append]

theorem drop_of_drop (hdrop : area.drop ptr = tag :: tail) {next k : ℕ}
    (hnext : next = ptr + 1 + k) :
    area.drop next = tail.drop k := by
  rw [hnext, Nat.add_assoc, ← List.drop_drop, hdrop, Nat.add_comm 1 k, List.drop_succ_cons]

/-- The option that is found is complete, and so are the bytes that are read of it. -/
theorem inside_found_iff (hdrop : area.drop ptr = tag :: tail) (need : ℕ) :
    Lookup.Inside { reads := ptr :: (List.range need).map (ptr + 2 + ·), found := some ptr }
        (area ++ beyond) area.length ↔
      ∃ length rest, tail = length :: rest ∧ need ≤ rest.length ∧ length.toNat ≤ rest.length := by
  have hlen := length_of_drop hdrop
  have hnext : (area ++ beyond).getD (ptr + 1) 0 = (tail ++ beyond).getD 0 0 := by
    rw [← getD_drop, drop_append_beyond hdrop beyond, List.getD_cons_succ]
  constructor
  · rintro ⟨hreads, hfound⟩
    obtain ⟨hlength, hvalue⟩ := hfound ptr rfl
    cases tail with
    | nil =>
        rw [List.length_nil] at hlen
        omega
    | cons length rest =>
        rw [hnext, List.cons_append, List.getD_cons_zero] at hvalue
        rw [List.length_cons] at hlen
        refine ⟨length, rest, rfl, ?_, by omega⟩
        cases need with
        | zero =>
            exact Nat.zero_le _
        | succ need =>
            -- the last of the bytes that are read
            have hlast : ptr + 2 + need < area.length :=
              hreads _ (List.mem_cons_of_mem _
                (List.mem_map.2 ⟨need, List.mem_range.2 (Nat.lt_succ_self _), rfl⟩))
            omega
  · rintro ⟨length, rest, rfl, hneed, hlength⟩
    rw [List.length_cons] at hlen
    refine ⟨fun i hi => ?_, fun p hp => ?_⟩
    · rcases List.mem_cons.1 hi with rfl | hi
      · omega
      · obtain ⟨k, hk, rfl⟩ := List.mem_map.1 hi
        rw [List.mem_range] at hk
        omega
    · obtain rfl := Option.some.inj hp
      rw [hnext, List.cons_append, List.getD_cons_zero]
      omega

/-- An option that is passed over needs its length. -/
theorem outcome_skip (hdrop : area.drop ptr = tag :: tail) (hcode : (tag.toNat : ℤ) ≠ code)
    (hpad : tag ≠ dhcpOptPad) (hend : tag ≠ dhcpOptEnd)
    (hrest : ∀ next, ptr < next →
      Outcome (area ++ beyond) area.length code need next (Complete code need (area.drop next))) :
    Outcome (area ++ beyond) area.length code need ptr (Complete code need (tag :: tail)) := by
  have hlen := length_of_drop hdrop
  have hptr : ptr < area.length := by omega
  have hturn := scanLoop_turn code need (drop_append_beyond hdrop beyond) hptr
  simp only [List.getD_cons_zero, List.getD_cons_succ, if_neg hcode, if_neg hpad, if_neg hend]
    at hturn
  refine Outcome.congr (outcome_goes_on hptr (by omega) hturn (hrest _ (by omega)))
    (Iff.trans ?_ (complete_skip_iff hcode hpad hend tail).symm)
  simp only [List.forall_mem_cons, List.not_mem_nil, false_imp_iff, implies_true, and_true]
  cases tail with
  | nil =>
      rw [List.length_nil] at hlen
      exact iff_of_false (fun h => by omega) (by simp)
  | cons length rest =>
      rw [List.length_cons] at hlen
      have hreads : ptr < area.length ∧ ptr + 1 < area.length := by omega
      have hnext : area.drop (ptr + 2 + length.toNat) = rest.drop length.toNat := by
        rw [drop_of_drop hdrop (show _ = ptr + 1 + (1 + length.toNat) by omega), ← List.drop_drop]
        rfl
      simp only [List.cons_append, List.getD_cons_zero, hnext, hreads, and_self, true_and,
        List.cons.injEq]
      constructor
      · intro h
        exact ⟨_, _, ⟨rfl, rfl⟩, h⟩
      · rintro ⟨_, _, ⟨rfl, rfl⟩, h⟩
        exact h

/-- A padding byte needs the byte behind it, and then its length. -/
theorem outcome_pad (hdrop : area.drop ptr = dhcpOptPad :: tail)
    (hcode : (dhcpOptPad.toNat : ℤ) ≠ code)
    (hrest : ∀ next, ptr < next →
      Outcome (area ++ beyond) area.length code need next (Complete code need (area.drop next))) :
    Outcome (area ++ beyond) area.length code need ptr
      (Complete code need (dhcpOptPad :: tail)) := by
  have hlen := length_of_drop hdrop
  have hptr : ptr < area.length := by omega
  have hturn := scanLoop_turn code need (drop_append_beyond hdrop beyond) hptr
  simp only [List.getD_cons_zero, List.getD_cons_succ, if_neg hcode, if_true] at hturn
  refine Outcome.congr ?_ (complete_pad_iff hcode tail).symm
  by_cases hend : (tail ++ beyond).getD 0 0 = dhcpOptEnd
  · -- the END that is read may lie behind the area
    simp only [if_pos hend] at hturn
    refine outcome_ends hturn ?_
    cases tail with
    | nil =>
        refine iff_of_false (fun h => ?_) (by simp)
        have hlast := h.reads (ptr + 1) (by simp)
        rw [List.length_nil] at hlen
        omega
    | cons tag tail =>
        rw [List.cons_append, List.getD_cons_zero] at hend
        rw [List.length_cons] at hlen
        refine iff_of_true ⟨?_, by simp⟩ (Or.inl ⟨tail, by rw [hend]⟩)
        simp only [List.forall_mem_cons, List.not_mem_nil, false_imp_iff, implies_true, and_true]
        omega
  · simp only [if_neg hend] at hturn
    refine Outcome.congr (outcome_goes_on hptr (by omega) hturn (hrest _ (by omega))) ?_
    simp only [List.forall_mem_cons, List.not_mem_nil, false_imp_iff, implies_true, and_true]
    -- with fewer than two bytes behind it, a length is read from behind the area
    match tail, hlen, hend, hdrop with
    | [], hlen, _, _ =>
        rw [List.length_nil] at hlen
        exact iff_of_false (fun h => by omega) (by simp)
    | [t], hlen, hend, _ =>
        have ht : t ≠ dhcpOptEnd := hend
        rw [List.length_singleton] at hlen
        exact iff_of_false (fun h => by omega) (by simp [ht])
    | t :: length :: rest, hlen, hend, hdrop =>
        have ht : t ≠ dhcpOptEnd := hend
        rw [List.length_cons, List.length_cons] at hlen
        have hreads : ptr < area.length ∧ ptr + 1 < area.length ∧ ptr + 2 < area.length := by omega
        have hnext : area.drop (ptr + 3 + length.toNat) = rest.drop length.toNat := by
          rw [drop_of_drop hdrop (show _ = ptr + 1 + (2 + length.toNat) by omega),
            ← List.drop_drop]
          rfl
        simp only [List.cons_append, List.getD_cons_zero, List.getD_cons_succ, hnext, hreads,
          and_self, true_and, List.cons.injEq, ht, false_and, exists_false, false_or]
        constructor
        · intro h
          exact ⟨_, _, _, ⟨rfl, rfl, rfl⟩, ht, h⟩
        · rintro ⟨_, _, _, ⟨rfl, rfl, rfl⟩, -, h⟩
          exact h

end Cursor

/-- The loop ends, and stays inside just when the entries are complete. -/
theorem outcome_complete (area beyond : List Byte) (code : ℤ) (need : ℕ) (n ptr : ℕ)
    (hn : area.length - ptr < n) :
    Outcome (area ++ beyond) area.length code need ptr (Complete code need (area.drop ptr)) := by
  -- the cursor moves on in every turn, wherever it gets to
  induction n generalizing ptr with
  | zero =>
      exact absurd hn (Nat.not_lt_zero _)
  | succ n ih =>
      by_cases hptr : ptr < area.length
      · have hrest : ∀ next, ptr < next → Outcome (area ++ beyond) area.length code need next
            (Complete code need (area.drop next)) := fun next hnext => ih next (by omega)
        obtain ⟨tag, tail, hdrop⟩ : ∃ tag tail, area.drop ptr = tag :: tail :=
          List.exists_cons_of_length_pos (by rw [List.length_drop]; omega)
        have hturn := scanLoop_turn code need (drop_append_beyond hdrop beyond) hptr
        rw [hdrop]
        by_cases hcode : (tag.toNat : ℤ) = code
        · refine (outcome_ends (fun fuel => (hturn fuel).trans (if_pos hcode))
            (inside_found_iff hdrop need)).congr ?_
          exact (complete_found_iff hcode tail).symm
        · by_cases hpad : tag = dhcpOptPad
          · subst hpad
            exact outcome_pad hdrop hcode hrest
          · by_cases hend : tag = dhcpOptEnd
            · subst hend
              simp only [List.getD_cons_zero, if_neg hcode, if_neg hpad, if_true] at hturn
              refine outcome_ends hturn (iff_of_true ⟨?_, by simp⟩ (.stop hcode))
              simpa using hptr
            · exact outcome_skip hdrop hcode hpad hend hrest
      · have hnil : area.drop ptr = [] := List.drop_of_length_le (Nat.not_lt.1 hptr)
        have hover : ∀ fuel, scanLoop (area ++ beyond) area.length code need (fuel + 1) ptr =
            some { reads := [], found := none } := fun fuel => if_neg hptr
        rw [hnil]
        exact outcome_ends hover (iff_of_true ⟨by simp, by simp⟩ .done)

/-! ## The lookups -/

/-- The lookup ends, and reads only the option area; an option that is cut off is not found. -/
def StaysInside (lookup : ℕ → DhcpMessage → Option Lookup) (msg : DhcpMessage) : Prop :=
  ∃ r, (∀ fuel, msg.optionSize < fuel → lookup fuel msg = some r) ∧
    r.Inside msg.option msg.optionSize

/-- The bytes of the option area behind the cookie. -/
def entriesOf (msg : DhcpMessage) : List Byte :=
  (msg.option.take msg.optionSize).drop 4

theorem scan_staysInside_iff {msg : DhcpMessage} (hcookie : 4 ≤ msg.optionSize)
    (hsize : msg.optionSize ≤ msg.option.length) (code : ℤ) (need : ℕ) :
    StaysInside (fun fuel msg => scan fuel msg code need) msg ↔
      (memRead msg.option 4 = dhcpOptMagic → Complete code need (entriesOf msg)) := by
  have hfour : ∀ i ∈ [0, 1, 2, 3], i < msg.optionSize := by
    simp only [List.forall_mem_cons, List.not_mem_nil, false_imp_iff, implies_true, and_true]
    omega
  by_cases hmagic : memRead msg.option 4 = dhcpOptMagic
  · have hlen : (msg.option.take msg.optionSize).length = msg.optionSize :=
      List.length_take_of_le hsize
    obtain ⟨r, hr, hP⟩ := outcome_complete (msg.option.take msg.optionSize)
      (msg.option.drop msg.optionSize) code need _ 4 (Nat.lt_succ_self _)
    rw [hlen, List.take_append_drop] at hr hP
    have hscan : ∀ fuel, msg.optionSize < fuel →
        scan fuel msg code need = some (r.behind [0, 1, 2, 3]) := by
      intro fuel hfuel
      rw [scan, if_pos hmagic, hr fuel (by omega)]
      rfl
    rw [forall_prop_of_true hmagic, entriesOf, ← hP]
    -- there is one outcome for all fuel, so that it is the one that stays inside
    constructor
    · rintro ⟨r', hr', hinside⟩
      have heq : r' = r.behind [0, 1, 2, 3] :=
        Option.some.inj ((hr' _ (Nat.lt_succ_self _)).symm.trans (hscan _ (Nat.lt_succ_self _)))
      rw [heq, inside_behind] at hinside
      exact hinside.2
    · intro hinside
      exact ⟨_, hscan, (inside_behind r _ _ _).2 ⟨hfour, hinside⟩⟩
  · refine iff_of_true ⟨_, fun fuel _ => if_neg hmagic, hfour, ?_⟩ fun h => absurd h hmagic
    intro ptr hptr
    cases hptr

/-- What `dhcp_message_unpack` accepts has a cookie's worth of options at least. -/
theorem unpack_option {host : Host} {rawData : List Byte} {rawDataSize : ℕ} {msg : DhcpMessage}
    (hraw : rawDataSize ≤ rawData.length)
    (h : dhcpMessageUnpack host rawData rawDataSize = some msg) :
    4 ≤ msg.optionSize ∧ msg.optionSize ≤ msg.option.length := by
  rw [dhcpMessageUnpack] at h
  by_cases hsize : rawDataSize < 241
  · rw [if_pos hsize] at h
    cases h
  · rw [if_neg hsize] at h
    obtain rfl := Option.some.inj h
    dsimp only
    rw [List.length_drop]
    omega

theorem lookups_stayInside_iff {host : Host} {rawData : List Byte} {rawDataSize : ℕ}
    {msg : DhcpMessage} (hraw : rawDataSize ≤ rawData.length)
    (h : dhcpMessageUnpack host rawData rawDataSize = some msg) :
    (StaysInside scanMessageType msg ↔ (memRead msg.option 4 = dhcpOptMagic →
        Complete dhcpOptDhcpMsgTypeTag.toNat 1 (entriesOf msg))) ∧
      ∀ code, StaysInside (fun fuel msg => scanLong fuel msg code) msg ↔
        (memRead msg.option 4 = dhcpOptMagic → Complete code 4 (entriesOf msg)) := by
  obtain ⟨hcookie, hsize⟩ := unpack_option hraw h
  exact ⟨scan_staysInside_iff hcookie hsize _ 1,
    fun code => scan_staysInside_iff hcookie hsize code 4⟩

/-- A received message with this option area, zero elsewhere. -/
def rawOf (area : List Byte) : List Byte :=
  List.replicate 236 0 ++ area

theorem lookups_stayInside_sample :
    ∃ msg, dhcpMessageUnpack .littleEndian (rawOf [99, 130, 83, 99, 53, 1, 5, 255]) 244 = some msg ∧
      StaysInside scanMessageType msg := by
  have hraw : 244 ≤ (rawOf [99, 130, 83, 99, 53, 1, 5, 255]).length := by
    rw [rawOf, List.length_append, List.length_replicate]
    decide
  refine ⟨_, rfl, (lookups_stayInside_iff hraw rfl).1.2 fun _ => ?_⟩
  exact .found rfl (by decide) (by decide)

/-- The tag is the last byte of the message: the second byte behind it is read. -/
theorem lookups_leave_sample :
    ∃ msg, dhcpMessageUnpack .littleEndian (rawOf [99, 130, 83, 99, 53]) 241 = some msg ∧
      msg.optionSize = 5 ∧ scanMessageType 6 msg = some ⟨[0, 1, 2, 3, 4, 6], some 4⟩ ∧
      ¬ StaysInside scanMessageType msg := by
  refine ⟨_, rfl, rfl, by decide, ?_⟩
  rintro ⟨r, hr, hinside⟩
  have heq : r = ⟨[0, 1, 2, 3, 4, 6], some 4⟩ :=
    Option.some.inj ((hr 6 (by decide)).symm.trans (by decide))
  exact absurd (hinside.reads 6 (by rw [heq]; decide)) (by decide)

end Dhcp
end DtsNet
