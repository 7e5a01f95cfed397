import DtsNet.Dhcp.Codec

/-!
# Options — lookups in the option area

An option area is the magic cookie, then padding bytes and options in any order, then END.  The
walk of the source steps over a padding byte and goes on in the same turn: it does not compare the
byte behind it with the code it looks for, and takes that byte for a tag, whatever it is.  So an
option behind one padding byte is passed over, behind two the walk gets out of step, and behind
three it is in step again.
-/

namespace DtsNet
namespace Dhcp

open Dblk

/-! ## The grammar -/

/-- How many bytes the value of an option with this tag has, for those that are looked up. -/
def optionLength (tag : UInt8) : Option ℕ :=
  if tag = dhcpOptDhcpMsgTypeTag then some 1
  else if tag = dhcpOptIpLeaseTimeTag ∨ tag = dhcpOptServerIdentifierTag then some 4
  else none

/-- A tag-length-value option. -/
structure TlvOption where
  tag : UInt8
  value : List Byte
  tag_ne_pad : tag ≠ dhcpOptPad
  tag_ne_end : tag ≠ dhcpOptEnd
  length_lt : value.length < 256
  length_eq : ∀ n ∈ optionLength tag, value.length = n

inductive Entry
  | pad
  | opt (o : TlvOption)

def Entry.bytes : Entry → List Byte
  | .pad => [dhcpOptPad]
  | .opt o => [o.tag, UInt8.ofNat o.value.length] ++ o.value

def entryBytes (es : List Entry) : List Byte :=
  es.flatMap Entry.bytes

/-- The option area of these entries. -/
def optionArea (es : List Entry) : List Byte :=
  dhcpOptMagic ++ entryBytes es ++ [dhcpOptEnd]

def Entry.valueOf (code : UInt8) : Entry → Option (List Byte)
  | .pad => none
  | .opt o => if o.tag = code then some o.value else none

/-- The value of the first option with this tag. -/
def firstOf (code : UInt8) (es : List Entry) : Option (List Byte) :=
  es.findSome? (Entry.valueOf code)

/-! ## What the walk sees -/

/-- The value of the first option with this tag that does not stand behind a single padding byte,
when three in a row count as none; `pads` of them have been passed. -/
def firstSeen (code : UInt8) : ℕ → List Entry → Option (List Byte)
  | _, [] => none
  | pads, .pad :: es => firstSeen code (pads + 1) es
  | pads, .opt o :: es =>
      if o.tag = code ∧ pads % 3 = 0 then some o.value else firstSeen code 0 es

/-- Up to the option that is seen first, none stands behind two padding bytes, when three in a row
count as none. -/
def Aligned (code : UInt8) : ℕ → List Entry → Prop
  | _, [] => True
  | pads, .pad :: es => Aligned code (pads + 1) es
  | pads, .opt o :: es => pads % 3 ≠ 2 ∧ (o.tag = code ∧ pads % 3 = 0 ∨ Aligned code 0 es)

theorem firstSeen_add_three (code : UInt8) (pads : ℕ) (es : List Entry) :
    firstSeen code (pads + 3) es = firstSeen code pads es := by
  induction es generalizing pads with
  | nil =>
      rfl
  | cons e es ih =>
      cases e with
      | pad =>
          exact ih (pads + 1)
      | opt o =>
          rw [firstSeen, firstSeen, Nat.add_mod_right]

theorem aligned_add_three (code : UInt8) (pads : ℕ) (es : List Entry) :
    Aligned code (pads + 3) es ↔ Aligned code pads es := by
  induction es generalizing pads with
  | nil =>
      exact Iff.rfl
  | cons e es ih =>
      cases e with
      | pad =>
          exact ih (pads + 1)
      | opt o =>
          rw [Aligned, Aligned, Nat.add_mod_right]

/-- Without padding, everything is seen. -/
theorem firstSeen_eq_firstOf {es : List Entry} (hes : ∀ e ∈ es, e ≠ .pad) (code : UInt8) :
    Aligned code 0 es ∧ firstSeen code 0 es = firstOf code es := by
  induction es with
  | nil =>
      exact ⟨trivial, rfl⟩
  | cons e es ih =>
      obtain ⟨he, hes⟩ := List.forall_mem_cons.1 hes
      obtain ⟨haligned, hseen⟩ := ih hes
      cases e with
      | pad =>
          exact absurd rfl he
      | opt o =>
          refine ⟨⟨by decide, Or.inr haligned⟩, ?_⟩
          by_cases htag : o.tag = code
          · simp [firstSeen, firstOf, Entry.valueOf, htag]
          · simpa [firstSeen, firstOf, Entry.valueOf, htag] using hseen

/-! ## The walk -/

section Walk

variable {option : List Byte} {optionSize : ℕ} {code : UInt8}

/-- One turn, on the bytes from the cursor on. -/
theorem dhcpOptionLoop_turn {ptr fuel : ℕ} {bytes : List Byte} (hbytes : option.drop ptr = bytes)
    (hptr : ptr < optionSize) :
    dhcpOptionLoop option optionSize code (fuel + 1) ptr =
      if bytes.getD 0 0 = code then
        some ptr
      else if bytes.getD 0 0 = dhcpOptPad then
        if bytes.getD 1 0 = dhcpOptEnd then
          none
        else
          dhcpOptionLoop option optionSize code fuel (ptr + 3 + (bytes.getD 2 0).toNat)
      else if bytes.getD 0 0 = dhcpOptEnd then
        none
      else
        dhcpOptionLoop option optionSize code fuel (ptr + 2 + (bytes.getD 1 0).toNat) := by
  subst hbytes
  rw [dhcpOptionLoop, if_pos hptr]
  simp only [getD_drop, Nat.add_zero]
  by_cases hcode : option.getD ptr 0 = code
  · rw [if_pos hcode, if_pos hcode]
  · rw [if_neg hcode, if_neg hcode]
    by_cases hpad : option.getD ptr 0 = dhcpOptPad
    · simp only [hpad, if_true]
    · simp only [hpad, if_false]

theorem dhcpOptionLoop_over (fuel : ℕ) {ptr : ℕ} (hptr : optionSize ≤ ptr) :
    dhcpOptionLoop option optionSize code fuel ptr = none := by
  cases fuel with
  | zero =>
      rfl
  | succ fuel =>
      rw [dhcpOptionLoop, if_neg (Nat.not_lt.2 hptr)]

/-- What the walk finds is the option that is seen first, at its place. -/
def Finds (option : List Byte) (found : Option ℕ) (value : Option (List Byte)) : Prop :=
  match value with
  | none => found = none
  | some v => ∃ ptr tail, found = some ptr ∧ option.drop (ptr + 2) = v ++ tail

theorem entryBytes_opt (o : TlvOption) (es : List Entry) (rest : List Byte) :
    entryBytes (.opt o :: es) ++ rest =
      o.tag :: UInt8.ofNat o.value.length :: (o.value ++ (entryBytes es ++ rest)) := by
  simp [entryBytes, Entry.bytes]

theorem entryBytes_pad (es : List Entry) (rest : List Byte) :
    entryBytes (.pad :: es) ++ rest = dhcpOptPad :: (entryBytes es ++ rest) := by
  simp [entryBytes, Entry.bytes]

theorem length_entryBytes_opt (o : TlvOption) (es : List Entry) :
    (entryBytes (.opt o :: es)).length = o.value.length + 2 + (entryBytes es).length := by
  simp [entryBytes, Entry.bytes]
  omega

theorem length_entryBytes_pad (es : List Entry) :
    (entryBytes (.pad :: es)).length = (entryBytes es).length + 1 := by
  simp [entryBytes, Entry.bytes]

theorem toNat_length (o : TlvOption) : (UInt8.ofNat o.value.length).toNat = o.value.length :=
  UInt8.toNat_ofNat_of_lt' o.length_lt

/-- From the start of an entry on. -/
theorem dhcpOptionLoop_entries (hpad : code ≠ dhcpOptPad) (hend : code ≠ dhcpOptEnd)
    (rest : List Byte) (es : List Entry) {ptr fuel : ℕ} (haligned : Aligned code 0 es)
    (hbytes : option.drop ptr = entryBytes es ++ dhcpOptEnd :: rest)
    (hsize : optionSize = ptr + (entryBytes es).length + 1)
    (hfuel : (entryBytes es).length < fuel) :
    Finds option (dhcpOptionLoop option optionSize code fuel ptr) (firstSeen code 0 es) := by
  obtain ⟨fuel, rfl⟩ : ∃ n, fuel = n + 1 :=
    Nat.exists_eq_succ_of_ne_zero (Nat.ne_of_gt (Nat.zero_lt_of_lt hfuel))
  have hptr : ptr < optionSize := by omega
  have hdrop : ∀ k, option.drop (ptr + k) = (entryBytes es ++ dhcpOptEnd :: rest).drop k := by
    intro k
    rw [← hbytes, List.drop_drop]
  have hpadEnd : dhcpOptPad ≠ dhcpOptEnd := by decide
  rw [dhcpOptionLoop_turn hbytes hptr]
  -- an option takes one turn, and a padding byte takes the two bytes behind it along
  match es, haligned with
  | [], _ =>
      simp [entryBytes, hend.symm, hpadEnd.symm, firstSeen, Finds]
  | .opt o :: es, haligned =>
      rw [entryBytes_opt] at hdrop ⊢
      rw [length_entryBytes_opt] at hsize hfuel
      by_cases htag : o.tag = code
      · have hseen : firstSeen code 0 (.opt o :: es) = some o.value := by
          simp [firstSeen, htag]
        rw [hseen, List.getD_cons_zero, if_pos htag]
        exact ⟨ptr, entryBytes es ++ dhcpOptEnd :: rest, rfl, hdrop 2⟩
      · have hseen : firstSeen code 0 (.opt o :: es) = firstSeen code 0 es := by
          simp [firstSeen, htag]
        have hrest : Aligned code 0 es := haligned.2.resolve_left fun h => htag h.1
        have hnext : option.drop (ptr + 2 + o.value.length) =
            entryBytes es ++ dhcpOptEnd :: rest := by
          rw [Nat.add_assoc, hdrop, ← List.drop_drop]
          exact List.drop_left
        rw [hseen, List.getD_cons_zero, if_neg htag, if_neg o.tag_ne_pad, if_neg o.tag_ne_end,
          List.getD_cons_succ, List.getD_cons_zero, toNat_length]
        exact dhcpOptionLoop_entries hpad hend rest es hrest hnext (by omega) (by omega)
  | [.pad], _ =>
      simp [entryBytes, Entry.bytes, hpad.symm, firstSeen, Finds]
  | .pad :: .opt o :: es, haligned =>
      -- the option is passed over, whatever its tag is
      rw [entryBytes_pad, entryBytes_opt] at hdrop ⊢
      rw [length_entryBytes_pad, length_entryBytes_opt] at hsize hfuel
      have hrest : Aligned code 0 es := haligned.2.resolve_left fun h => by simp at h
      have hseen : firstSeen code 0 (.pad :: .opt o :: es) = firstSeen code 0 es := by
        simp [firstSeen]
      have hnext : option.drop (ptr + 3 + o.value.length) =
          entryBytes es ++ dhcpOptEnd :: rest := by
        rw [Nat.add_assoc, hdrop, ← List.drop_drop]
        exact List.drop_left
      rw [hseen, List.getD_cons_zero, if_neg hpad.symm, if_pos rfl, List.getD_cons_succ,
        List.getD_cons_zero, if_neg o.tag_ne_end, List.getD_cons_succ, List.getD_cons_succ,
        List.getD_cons_zero, toNat_length]
      exact dhcpOptionLoop_entries hpad hend rest es hrest hnext (by omega) (by omega)
  | [.pad, .pad], _ =>
      -- END is taken for a length, which leads out of the area
      have hover : optionSize ≤ ptr + 3 + dhcpOptEnd.toNat := by
        rw [hsize]
        exact Nat.le_add_right (ptr + 3) _
      have hnone : dhcpOptionLoop option optionSize code fuel (ptr + 3 + dhcpOptEnd.toNat) = none :=
        dhcpOptionLoop_over fuel hover
      simp [entryBytes, Entry.bytes, hpad.symm, hpadEnd, firstSeen, Finds, hnone]
  | .pad :: .pad :: .opt o :: es, haligned =>
      exact absurd rfl haligned.1
  | .pad :: .pad :: .pad :: es, haligned =>
      -- the second one is taken for a tag, and the third for its length, which is zero
      rw [entryBytes_pad, entryBytes_pad, entryBytes_pad] at hdrop ⊢
      rw [length_entryBytes_pad, length_entryBytes_pad, length_entryBytes_pad] at hsize hfuel
      have hrest : Aligned code 0 es := (aligned_add_three code 0 es).1 haligned
      have hseen : firstSeen code 0 (.pad :: .pad :: .pad :: es) = firstSeen code 0 es :=
        firstSeen_add_three code 0 es
      have hnext : option.drop (ptr + 3) = entryBytes es ++ dhcpOptEnd :: rest := hdrop 3
      rw [hseen, List.getD_cons_zero, if_neg hpad.symm, if_pos rfl, List.getD_cons_succ,
        List.getD_cons_zero, if_neg hpadEnd, List.getD_cons_succ, List.getD_cons_succ,
        List.getD_cons_zero, show dhcpOptPad.toNat = 0 from rfl, Nat.add_zero]
      exact dhcpOptionLoop_entries hpad hend rest es hrest hnext (by omega) (by omega)

end Walk

/-! ## The lookups -/

/-- A message whose option area consists of these entries. -/
structure DhcpMessage.Carries (msg : DhcpMessage) (es : List Entry) : Prop where
  option : ∃ rest, msg.option = optionArea es ++ rest
  optionSize : msg.optionSize = (optionArea es).length

theorem dhcpOptionFind_finds {msg : DhcpMessage} {es : List Entry} (hmsg : msg.Carries es)
    {code : UInt8} (hpad : code ≠ dhcpOptPad) (hend : code ≠ dhcpOptEnd)
    (haligned : Aligned code 0 es) :
    Finds msg.option (dhcpOptionFind msg code) (firstSeen code 0 es) := by
  obtain ⟨⟨rest, hoption⟩, hsize⟩ := hmsg
  have hlen : (optionArea es).length = 4 + (entryBytes es).length + 1 := by
    rw [optionArea, List.length_append, List.length_append]
    rfl
  have hbytes : msg.option.drop 4 = entryBytes es ++ dhcpOptEnd :: rest := by
    rw [hoption, optionArea, List.append_assoc, List.append_assoc]
    rfl
  have hmagic : memRead msg.option 4 = dhcpOptMagic := by
    rw [hoption, optionArea, List.append_assoc, List.append_assoc]
    exact memRead_append_left (Nat.le_refl 4) _
  rw [dhcpOptionFind, if_pos hmagic]
  exact dhcpOptionLoop_entries hpad hend rest es haligned hbytes (by omega) (by omega)

theorem exists_of_firstSeen {code : UInt8} {es : List Entry} {pads : ℕ} {v : List Byte}
    (h : firstSeen code pads es = some v) : ∃ o : TlvOption, o.tag = code ∧ o.value = v := by
  induction es generalizing pads with
  | nil =>
      cases h
  | cons e es ih =>
      cases e with
      | pad =>
          exact ih h
      | opt o =>
          rw [firstSeen] at h
          by_cases htag : o.tag = code ∧ pads % 3 = 0
          · rw [if_pos htag] at h
            exact ⟨o, htag.1, Option.some.inj h⟩
          · rw [if_neg htag] at h
            exact ih h

theorem exists_of_firstOf {code : UInt8} {es : List Entry} {v : List Byte}
    (h : firstOf code es = some v) : ∃ o : TlvOption, o.tag = code ∧ o.value = v := by
  obtain ⟨e, -, he⟩ := List.exists_of_findSome?_eq_some h
  cases e with
  | pad =>
      cases he
  | opt o =>
      rw [Entry.valueOf] at he
      by_cases htag : o.tag = code
      · rw [if_pos htag] at he
        exact ⟨o, htag, Option.some.inj he⟩
      · rw [if_neg htag] at he
        cases he

/-- A value of `n` bytes, read from where it starts. -/
structure ReadsValue {α : Type} (read : List Byte → α) (n : ℕ) : Prop where
  append : ∀ v tail, v.length = n → read (v ++ tail) = read v
  injective : ∀ v w, v.length = n → w.length = n → read v = read w → v = w

theorem readsValue_byte : ReadsValue (fun bytes : List Byte => bytes.getD 0 0) 1 := by
  constructor
  · intro v tail hv
    obtain ⟨b, rfl⟩ := List.length_eq_one_iff.1 hv
    rfl
  · intro v w hv hw h
    obtain ⟨b, rfl⟩ := List.length_eq_one_iff.1 hv
    obtain ⟨c, rfl⟩ := List.length_eq_one_iff.1 hw
    exact congrArg (fun b => [b]) h

theorem readsValue_br32 : ReadsValue br32 4 := by
  constructor
  · intro v tail hv
    rw [← bw32_br32 hv, br32_bw32_append, bw32_br32 hv]
  · intro v w hv hw h
    rw [← bw32_br32 hv, ← bw32_br32 hw, h]

/-- A lookup gives the value of the first option with its tag just when that is the value seen
first. -/
theorem lookup_eq_iff {α : Type} {read : List Byte → α} {n : ℕ} (hread : ReadsValue read n)
    {msg : DhcpMessage} {es : List Entry} (hmsg : msg.Carries es) {code : UInt8}
    (hpad : code ≠ dhcpOptPad) (hend : code ≠ dhcpOptEnd) (hlength : optionLength code = some n)
    (haligned : Aligned code 0 es) :
    (dhcpOptionFind msg code).map (fun ptr => read (msg.option.drop (ptr + 2))) =
        (firstOf code es).map read ↔
      firstSeen code 0 es = firstOf code es := by
  have hlen : ∀ {v : List Byte}, (∃ o : TlvOption, o.tag = code ∧ o.value = v) → v.length = n := by
    rintro v ⟨o, rfl, rfl⟩
    exact o.length_eq n hlength
  have hfinds := dhcpOptionFind_finds hmsg hpad hend haligned
  have hseen : (dhcpOptionFind msg code).map (fun ptr => read (msg.option.drop (ptr + 2))) =
      (firstSeen code 0 es).map read := by
    cases hfirst : firstSeen code 0 es with
    | none =>
        rw [hfirst] at hfinds
        rw [show dhcpOptionFind msg code = none from hfinds]
        rfl
    | some v =>
        rw [hfirst] at hfinds
        obtain ⟨ptr, tail, hptr, hdrop⟩ := hfinds
        rw [hptr, Option.map_some, hdrop, hread.append v tail (hlen (exists_of_firstSeen hfirst))]
        rfl
  rw [hseen]
  -- values of that length are read as the same only if they are the same
  refine ⟨fun h => ?_, fun h => by rw [h]⟩
  cases hfirst : firstSeen code 0 es with
  | none =>
      rw [hfirst] at h
      exact (Option.map_eq_none_iff.1 h.symm).symm
  | some v =>
      rw [hfirst] at h
      obtain ⟨w, hw, hvw⟩ := Option.map_eq_some_iff.1 h.symm
      have heq := hread.injective w v (hlen (exists_of_firstOf hw))
        (hlen (exists_of_firstSeen hfirst)) hvw
      rw [hw, heq]

/-- Each of the three lookups, on an option area and without the cookie. -/
theorem dhcpOption_lookups {msg : DhcpMessage} {es : List Entry} (hmsg : msg.Carries es) :
    (Aligned dhcpOptDhcpMsgTypeTag 0 es →
        (dhcpOptionMessageType msg =
            (firstOf dhcpOptDhcpMsgTypeTag es).map (fun value => value.getD 0 0) ↔
          firstSeen dhcpOptDhcpMsgTypeTag 0 es = firstOf dhcpOptDhcpMsgTypeTag es)) ∧
      (Aligned dhcpOptIpLeaseTimeTag 0 es →
        (dhcpOptionIpLeaseTime msg = (firstOf dhcpOptIpLeaseTimeTag es).map br32 ↔
          firstSeen dhcpOptIpLeaseTimeTag 0 es = firstOf dhcpOptIpLeaseTimeTag es)) ∧
      (Aligned dhcpOptServerIdentifierTag 0 es →
        (dhcpOptionServerIdentifier msg = (firstOf dhcpOptServerIdentifierTag es).map br32 ↔
          firstSeen dhcpOptServerIdentifierTag 0 es = firstOf dhcpOptServerIdentifierTag es)) ∧
      ∀ other : DhcpMessage, memRead other.option 4 ≠ dhcpOptMagic →
        dhcpOptionMessageType other = none ∧ dhcpOptionIpLeaseTime other = none ∧
          dhcpOptionServerIdentifier other = none := by
  refine ⟨fun haligned => ?_, fun haligned => ?_, fun haligned => ?_, fun other hother => ?_⟩
  · rw [← lookup_eq_iff readsValue_byte hmsg (by decide) (by decide) rfl haligned]
    simp only [dhcpOptionMessageType, getD_drop, Nat.add_zero]
  · exact lookup_eq_iff readsValue_br32 hmsg (by decide) (by decide) rfl haligned
  · exact lookup_eq_iff readsValue_br32 hmsg (by decide) (by decide) rfl haligned
  · have hnone : ∀ code, dhcpOptionFind other code = none := fun code => if_neg hother
    simp [dhcpOptionMessageType, dhcpOptionIpLeaseTime, dhcpOptionServerIdentifier,
      dhcpOptionLong, hnone]

/-- The option that says that the message is an ACK. -/
def ackOption : TlvOption :=
  { tag := dhcpOptDhcpMsgTypeTag
    value := [dhcpMsgTypeAck]
    tag_ne_pad := by decide
    tag_ne_end := by decide
    length_lt := by decide
    length_eq := by simp [optionLength] }

/-- A message with these entries. -/
def messageOf (es : List Entry) : DhcpMessage :=
  { dhcpMessageInit with
    op := bootReply
    option := optionArea es
    optionSize := (optionArea es).length }

theorem messageOf_carries (es : List Entry) : (messageOf es).Carries es :=
  { option := ⟨[], (List.append_nil _).symm⟩
    optionSize := rfl }

/-- Three padding bytes, then the option. -/
theorem dhcpOption_lookups_sample :
    dhcpOptionMessageType (messageOf [.pad, .pad, .pad, .opt ackOption]) = some dhcpMsgTypeAck :=
  ((dhcpOption_lookups (messageOf_carries [.pad, .pad, .pad, .opt ackOption])).1
    ⟨by decide, Or.inl ⟨rfl, rfl⟩⟩).2 rfl

/-- Behind one padding byte, the option is passed over. -/
theorem dhcpOption_passed_over_sample :
    (messageOf [.pad, .opt ackOption]).Carries [.pad, .opt ackOption] ∧
      firstOf dhcpOptDhcpMsgTypeTag [.pad, .opt ackOption] = some [dhcpMsgTypeAck] ∧
      dhcpOptionMessageType (messageOf [.pad, .opt ackOption]) = none :=
  ⟨messageOf_carries _, rfl, by decide⟩

end Dhcp
end DtsNet
