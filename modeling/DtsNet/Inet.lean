import Mathlib.Data.List.TakeWhile
import DtsNet.Dhcp.Codec
import DtsNet.Socket.Api

/-!
# Inet — addresses in dotted notation

`inet_addr` goes from dot to dot with `strchr`, and `nacv` makes an address of what it returns.
Where there is no further dot, the loop increments the null pointer and reads on from there.
-/

namespace DtsNet
namespace Inet

open Ip Dblk
open Dhcp (Host)
open Socket (SockaddrIn nacv)

/-! ## `atoi` and `strchr` -/

def dot : Byte := 46

def isSpace (c : Byte) : Bool :=
  c == 32 || (9 ≤ c && c ≤ 13)

def isDigit (c : Byte) : Bool :=
  48 ≤ c && c ≤ 57

def isSign (c : Byte) : Bool :=
  c == 43 || c == 45

def digitsValue (digits : List Byte) : ℕ :=
  digits.foldl (fun v c => 10 * v + (c.toNat - 48)) 0

/-- The sign behind white space, if there is one. -/
def signOf (text : List Byte) : List Byte :=
  ((text.dropWhile isSpace).take 1).filter isSign

/-- The digits behind white space and sign. -/
def digitsOf (text : List Byte) : List Byte :=
  ((text.dropWhile isSpace).drop (signOf text).length).takeWhile isDigit

/-- The number at the start of a text. -/
def number (text : List Byte) : ℤ :=
  if signOf text = [45] then -(digitsValue (digitsOf text)) else digitsValue (digitsOf text)

/-- The `int`s of the C library. -/
structure AtoiLib where
  bits : ℕ
  toInt : ℤ → ℤ
  /-- What `atoi` gives for a number that no `int` holds is left open. -/
  toInt_eq : ∀ v, -2 ^ (bits - 1) ≤ v → v < 2 ^ (bits - 1) → toInt v = v

def atoi (lib : AtoiLib) (text : List Byte) : ℤ :=
  lib.toInt (number text)

/-- The characters that `atoi` looks at, with the one that ends the number. -/
def atoiReads (text : List Byte) : ℕ :=
  (text.takeWhile isSpace).length + (signOf text).length + (digitsOf text).length + 1

/-- Where `strchr` stops: at the character, or at the terminator. -/
def strchrStop (text : List Byte) (c : Byte) : ℕ :=
  (text.takeWhile fun d => d != c && d != 0).length

def strchr (text : List Byte) (c : Byte) : Option ℕ :=
  if text.getD (strchrStop text c) 0 = c then some (strchrStop text c) else none

/-! ## `inet_addr` -/

/-- A `const char *`. -/
inductive CharPtr
  | null
  /-- So many characters behind the start of the string. -/
  | inside (i : ℕ)
  /-- What comes of incrementing the null pointer, and so many characters behind. -/
  | stray (i : ℕ)
  deriving DecidableEq, Repr

def CharPtr.add : CharPtr → ℕ → CharPtr
  | .null, 0 => .null
  | .null, k + 1 => .stray k
  | .inside i, k => .inside (i + k)
  | .stray i, k => .stray (i + k)

/-- The memory from the start of the string on, and that behind the null pointer. -/
structure Memory where
  string : List Byte
  stray : List Byte

def Memory.text (m : Memory) : CharPtr → List Byte
  | .null => []
  | .inside i => m.string.drop i
  | .stray i => m.stray.drop i

/-- What one round reads. -/
def roundReads (text : List Byte) (str : CharPtr) : List CharPtr :=
  (List.range (atoiReads text)).map str.add ++ (List.range (strchrStop text dot + 1)).map str.add

/-- `str = strchr(str, '.')`. -/
def strchrPtr (text : List Byte) (str : CharPtr) : CharPtr :=
  match strchr text dot with
  | some k => str.add k
  | none => .null

/-- The loop with `n` rounds left: the bytes of `hl`, and the characters read. -/
def inetAddrLoop (lib : AtoiLib) (m : Memory) :
    ℕ → ℕ → CharPtr → List Byte → List Byte × List CharPtr
  | 0, _, _, hl => (hl, [])
  | n + 1, i, str, hl =>
      if str = .null then
        (hl, [])
      else
        let text := m.text str
        let r := inetAddrLoop lib m n (i + 1) ((strchrPtr text str).add 1)
          (hl.set i (UInt8.ofInt (atoi lib text)))
        (r.1, roundReads text str ++ r.2)

/-- `hl` is written byte by byte, and passed on to `htonl` as a word. -/
def inetAddr (lib : AtoiLib) (host : Host) (m : Memory) : UInt32 × List CharPtr :=
  let r := inetAddrLoop lib m 4 0 (.inside 0) [0, 0, 0, 0]
  (host.htonl (host.load32 r.1), r.2)

/-- A `sockaddr_in` whose `s_addr` is set to this word. -/
def sockaddrIn (host : Host) (sAddr : UInt32) (sinPort : UInt16) : SockaddrIn :=
  let bytes := host.store32 sAddr
  { sAddr := ⟨bytes.getD 0 0, bytes.getD 1 0, bytes.getD 2 0, bytes.getD 3 0⟩
    sinPort := sinPort }

/-! ## Scanning a part of a string -/

section Scan

variable {α : Type} {p : α → Bool} {c : α}

theorem takeWhile_append_cons (hc : p c = false) (part rest : List α) :
    (part ++ c :: rest).takeWhile p = part.takeWhile p := by
  rw [List.takeWhile_append, List.takeWhile_cons_of_neg (by simp [hc])]
  split
  · next hall =>
      rw [List.append_nil]
      exact ((List.takeWhile_prefix p).eq_of_length hall).symm
  · rfl

theorem dropWhile_append_cons (hc : p c = false) (part rest : List α) :
    (part ++ c :: rest).dropWhile p = part.dropWhile p ++ c :: rest := by
  rw [List.dropWhile_append, List.dropWhile_cons_of_neg (by simp [hc])]
  split
  · next hnil =>
      rw [List.isEmpty_iff.1 hnil, List.nil_append]
  · rfl

end Scan

/-- A character that ends a part: it is of no use to a number. -/
structure Ends (c : Byte) : Prop where
  space : isSpace c = false
  sign : isSign c = false
  digit : isDigit c = false

theorem ends_dot : Ends dot := ⟨by decide, by decide, by decide⟩

theorem ends_zero : Ends 0 := ⟨by decide, by decide, by decide⟩

theorem length_signOf_le (text : List Byte) :
    (signOf text).length ≤ (text.dropWhile isSpace).length :=
  Nat.le_trans (List.length_filter_le _ _) (List.length_take_le' 1 _)

section Part

variable {c : Byte}

theorem signOf_append (hc : Ends c) (part rest : List Byte) :
    signOf (part ++ c :: rest) = signOf part := by
  rw [signOf, dropWhile_append_cons hc.space, signOf]
  cases part.dropWhile isSpace with
  | nil =>
      simp [hc.sign]
  | cons d part =>
      rfl

theorem digitsOf_append (hc : Ends c) (part rest : List Byte) :
    digitsOf (part ++ c :: rest) = digitsOf part := by
  rw [digitsOf, dropWhile_append_cons hc.space, signOf_append hc,
    List.drop_append_of_le_length (length_signOf_le part), takeWhile_append_cons hc.digit, digitsOf]

/-- The number at the start does not depend on what follows the part. -/
theorem atoi_append (hc : Ends c) (lib : AtoiLib) (part rest : List Byte) :
    atoi lib (part ++ c :: rest) = atoi lib part := by
  rw [atoi, number, signOf_append hc, digitsOf_append hc, ← number, ← atoi]

theorem atoiReads_append (hc : Ends c) (part rest : List Byte) :
    atoiReads (part ++ c :: rest) ≤ part.length + 1 := by
  have hsplit : (part.takeWhile isSpace).length + (part.dropWhile isSpace).length =
      part.length := by
    rw [← List.length_append, List.takeWhile_append_dropWhile]
  have hsign := length_signOf_le part
  have hdigits : (digitsOf part).length ≤
      (part.dropWhile isSpace).length - (signOf part).length := by
    rw [← List.length_drop]
    exact (List.takeWhile_prefix _).length_le
  rw [atoiReads, takeWhile_append_cons hc.space, signOf_append hc, digitsOf_append hc]
  omega

/-- A part has neither a dot nor the terminator in it. -/
def IsPart (part : List Byte) : Prop :=
  ∀ d ∈ part, d ≠ dot ∧ d ≠ 0

theorem strchrStop_append {part : List Byte} (hpart : IsPart part) (hc : c = dot ∨ c = 0)
    (rest : List Byte) : strchrStop (part ++ c :: rest) dot = part.length := by
  have hstop : (c != dot && c != 0) = false := by
    rcases hc with rfl | rfl <;> decide
  rw [strchrStop, takeWhile_append_cons (p := fun d => d != dot && d != 0) hstop,
    List.takeWhile_eq_self_iff.2]
  intro d hd
  simp [hpart d hd]

theorem strchr_dot {part : List Byte} (hpart : IsPart part) (rest : List Byte) :
    strchr (part ++ dot :: rest) dot = some part.length := by
  have hstop := strchrStop_append hpart (Or.inl rfl) rest
  rw [strchr, hstop, if_pos]
  simp

theorem strchr_zero {part : List Byte} (hpart : IsPart part) (rest : List Byte) :
    strchr (part ++ 0 :: rest) dot = none := by
  have hstop := strchrStop_append hpart (Or.inr rfl) rest
  rw [strchr, hstop, if_neg]
  simp [dot]

end Part

/-! ## The loop -/

/-- The byte that is written for a part. -/
def octetOf (lib : AtoiLib) (part : List Byte) : Byte :=
  UInt8.ofInt (atoi lib part)

/-- The octet for a place: the number at the start of the part, or zero if there is none. -/
def octet (lib : AtoiLib) (str : List Byte) (k : ℕ) : Byte :=
  match (str.splitOn dot)[k]? with
  | some part => octetOf lib part
  | none => 0

/-- The string without the terminator, and what there is in memory besides. -/
def Memory.of (str beyond stray : List Byte) : Memory :=
  { string := str ++ 0 :: beyond, stray := stray }

section Loop

variable {lib : AtoiLib} {beyond stray : List Byte}

/-- A string either is one part, or has a dot behind the first part. -/
theorem part_cases {str : List Byte} (hstr : ∀ c ∈ str, c ≠ 0) :
    IsPart str ∧ str.splitOn dot = [str] ∨
      ∃ part rest, str = part ++ dot :: rest ∧ IsPart part ∧
        str.splitOn dot = part :: rest.splitOn dot := by
  by_cases hdot : dot ∈ str
  · obtain ⟨part, rest, rfl, hpart⟩ := List.eq_append_cons_of_mem hdot
    refine Or.inr ⟨part, rest, rfl, fun d hd => ⟨?_, hstr d (by simp [hd])⟩, ?_⟩
    · rintro rfl
      exact hpart hd
    · exact List.splitOn_append_cons_self_of_not_mem hpart rest
  · refine Or.inl ⟨fun d hd => ⟨?_, hstr d hd⟩, List.splitOn_eq_singleton hdot⟩
    rintro rfl
    exact hdot hd

theorem text_inside (pre str beyond stray : List Byte) :
    (Memory.of (pre ++ str) beyond stray).text (.inside pre.length) = str ++ 0 :: beyond := by
  simp [Memory.of, Memory.text]

/-- What a round reads of a part, and of the character that ends it. -/
theorem roundReads_part {part : List Byte} (hpart : IsPart part) {c : Byte} (hc : c = dot ∨ c = 0)
    (rest : List Byte) (i : ℕ) :
    ∀ p ∈ roundReads (part ++ c :: rest) (.inside i), ∃ j ≤ i + part.length, p = .inside j := by
  have hends : Ends c := by
    rcases hc with rfl | rfl
    · exact ends_dot
    · exact ends_zero
  have hatoi := atoiReads_append hends part rest
  intro p hp
  rw [roundReads, strchrStop_append hpart hc, List.mem_append, List.mem_map, List.mem_map] at hp
  rcases hp with ⟨k, hk, rfl⟩ | ⟨k, hk, rfl⟩
  · have hlt := List.mem_range.1 hk
    exact ⟨i + k, by omega, rfl⟩
  · have hlt := List.mem_range.1 hk
    exact ⟨i + k, by omega, rfl⟩

/-- The round for a part that ends with a dot. -/
theorem inetAddrLoop_dot {part : List Byte} (hpart : IsPart part) (pre rest : List Byte) (n i : ℕ)
    (hl : List Byte) :
    inetAddrLoop lib (Memory.of (pre ++ (part ++ dot :: rest)) beyond stray) (n + 1) i
        (.inside pre.length) hl =
      let r := inetAddrLoop lib (Memory.of (pre ++ part ++ [dot] ++ rest) beyond stray) n (i + 1)
        (.inside (pre ++ part ++ [dot]).length) (hl.set i (octetOf lib part))
      (r.1, roundReads (part ++ dot :: (rest ++ 0 :: beyond)) (.inside pre.length) ++ r.2) := by
  have hnotNull : CharPtr.inside pre.length ≠ .null := by simp
  have htext : part ++ dot :: rest ++ 0 :: beyond = part ++ dot :: (rest ++ 0 :: beyond) := by simp
  have hnext : (strchrPtr (part ++ dot :: (rest ++ 0 :: beyond)) (.inside pre.length)).add 1 =
      .inside (pre ++ part ++ [dot]).length := by
    rw [strchrPtr, strchr_dot hpart]
    simp [CharPtr.add, Nat.add_assoc]
  have hmem : pre ++ (part ++ dot :: rest) = pre ++ part ++ [dot] ++ rest := by simp
  rw [inetAddrLoop, if_neg hnotNull, text_inside, htext, hmem]
  dsimp only
  rw [hnext, atoi_append ends_dot, octetOf]

/-- The round for the part that the string ends with. -/
theorem inetAddrLoop_last {str : List Byte} (hstr : IsPart str) (pre : List Byte) (n i : ℕ)
    (hl : List Byte) :
    inetAddrLoop lib (Memory.of (pre ++ str) beyond stray) (n + 1) i (.inside pre.length) hl =
      let r := inetAddrLoop lib (Memory.of (pre ++ str) beyond stray) n (i + 1) (.stray 0)
        (hl.set i (octetOf lib str))
      (r.1, roundReads (str ++ 0 :: beyond) (.inside pre.length) ++ r.2) := by
  have hnotNull : CharPtr.inside pre.length ≠ .null := by simp
  have hnext : (strchrPtr (str ++ 0 :: beyond) (.inside pre.length)).add 1 = .stray 0 := by
    rw [strchrPtr, strchr_zero hstr]
    rfl
  rw [inetAddrLoop, if_neg hnotNull, text_inside]
  dsimp only
  rw [hnext, atoi_append ends_zero, octetOf]

/-- As long as there are parts for the rounds left, every round takes one of them. -/
theorem inetAddrLoop_parts {n : ℕ} (pre done : List Byte) {str : List Byte}
    (hstr : ∀ c ∈ str, c ≠ 0) (hn : n ≤ (str.splitOn dot).length) :
    (inetAddrLoop lib (Memory.of (pre ++ str) beyond stray) n done.length (.inside pre.length)
        (done ++ List.replicate n 0)).1 = done ++ ((str.splitOn dot).take n).map (octetOf lib) ∧
      ∀ p ∈ (inetAddrLoop lib (Memory.of (pre ++ str) beyond stray) n done.length
          (.inside pre.length) (done ++ List.replicate n 0)).2,
        ∃ i ≤ pre.length + str.length, p = .inside i := by
  induction n generalizing pre str done with
  | zero =>
      simp [inetAddrLoop]
  | succ n ih =>
      have hset : ∀ x : Byte, (done ++ List.replicate (n + 1) 0).set done.length x =
          (done ++ [x]) ++ List.replicate n 0 := by
        intro x
        simp [List.replicate_succ]
      rcases part_cases hstr with ⟨hpart, hsplit⟩ | ⟨part, rest, rfl, hpart, hsplit⟩
      · -- the last part is for the last round
        have hzero : n = 0 := by
          rw [hsplit, List.length_singleton] at hn
          omega
        subst hzero
        rw [inetAddrLoop_last hpart, hset, hsplit]
        refine ⟨by simp [inetAddrLoop], ?_⟩
        simp only [inetAddrLoop, List.append_nil]
        exact roundReads_part hpart (Or.inr rfl) beyond pre.length
      · -- the part and its dot are behind the pointer now, its octet is in `done`
        have hlen : (done ++ [octetOf lib part]).length = done.length + 1 := by simp
        have hrest : ∀ c ∈ rest, c ≠ 0 := fun c hc => hstr c (by simp [hc])
        have hle : n ≤ (rest.splitOn dot).length := by
          rw [hsplit, List.length_cons] at hn
          omega
        obtain ⟨hoctets, hreads⟩ := ih (pre ++ part ++ [dot]) (done ++ [octetOf lib part])
          hrest hle
        rw [inetAddrLoop_dot hpart, hset, ← hlen, hsplit]
        refine ⟨by rw [hoctets]; simp, ?_⟩
        intro p hp
        rcases List.mem_append.1 hp with hp | hp
        · obtain ⟨j, hj, rfl⟩ := roundReads_part hpart (Or.inl rfl) _ pre.length p hp
          exact ⟨j, by simp only [List.length_append, List.length_cons]; omega, rfl⟩
        · obtain ⟨j, hj, rfl⟩ := hreads p hp
          refine ⟨j, ?_, rfl⟩
          simp only [List.length_append, List.length_cons, List.length_nil] at hj ⊢
          omega

/-- With more rounds than parts, the pointer leaves the string. -/
theorem inetAddrLoop_strays {n i : ℕ} (pre : List Byte) {str hl : List Byte}
    (hstr : ∀ c ∈ str, c ≠ 0) (hn : (str.splitOn dot).length < n) :
    .stray 0 ∈ (inetAddrLoop lib (Memory.of (pre ++ str) beyond stray) n i (.inside pre.length)
      hl).2 := by
  induction n generalizing pre str i hl with
  | zero =>
      omega
  | succ n ih =>
      rcases part_cases hstr with ⟨hpart, hsplit⟩ | ⟨part, rest, rfl, hpart, hsplit⟩
      · -- `strchr` finds nothing, and there is another round
        rw [hsplit, List.length_singleton] at hn
        obtain ⟨n, rfl⟩ := Nat.exists_eq_add_of_lt (Nat.lt_of_succ_lt_succ hn)
        have hnotNull : CharPtr.stray 0 ≠ .null := by simp
        rw [inetAddrLoop_last hpart, Nat.zero_add, inetAddrLoop, if_neg hnotNull]
        refine List.mem_append_right _ (List.mem_append_left _ (List.mem_append_left _ ?_))
        refine List.mem_map.2 ⟨0, ?_, rfl⟩
        rw [List.mem_range, atoiReads]
        omega
      · rw [inetAddrLoop_dot hpart]
        refine List.mem_append_right _ (ih _ (fun c hc => hstr c (by simp [hc])) ?_)
        rw [hsplit, List.length_cons] at hn
        omega

end Loop

/-! ## The address -/

/-- What is to be expected of `inet_addr` and `nacv` for a string. -/
structure AddressRight (lib : AtoiLib) (host : Host) (str beyond stray : List Byte) : Prop where
  /-- Only the string and its terminator are read. -/
  inside : ∀ p ∈ (inetAddr lib host (Memory.of str beyond stray)).2, ∃ i ≤ str.length, p = .inside i
  octets : ∀ port,
    (nacv (sockaddrIn host (inetAddr lib host (Memory.of str beyond stray)).1 port)).addr =
      ⟨octet lib str 0, octet lib str 1, octet lib str 2, octet lib str 3⟩

/-- Whatever the byte order, the word that is stored has the bytes of `hl` in the network's. -/
theorem nacv_addr (host : Host) (h0 h1 h2 h3 : Byte) (port : UInt16) :
    (nacv (sockaddrIn host (host.htonl (host.load32 [h0, h1, h2, h3])) port)).addr =
      match host with
      | .littleEndian => ⟨h0, h1, h2, h3⟩
      | .bigEndian => ⟨h3, h2, h1, h0⟩ := by
  have hstore : host.store32 (host.htonl (host.load32 [h0, h1, h2, h3])) =
      bw32 (host.load32 [h0, h1, h2, h3]) := Dhcp.store32_htonl host _
  cases host with
  | littleEndian =>
      have hbytes : bw32 (Host.littleEndian.load32 [h0, h1, h2, h3]) = [h3, h2, h1, h0] :=
        bw32_br32 rfl
      simp [nacv, sockaddrIn, hstore, hbytes]
  | bigEndian =>
      have hbytes : bw32 (Host.bigEndian.load32 [h0, h1, h2, h3]) = [h0, h1, h2, h3] :=
        bw32_br32 rfl
      simp [nacv, sockaddrIn, hstore, hbytes]

theorem length_splitOn_dot (str : List Byte) :
    (str.splitOn dot).length = str.count dot + 1 := by
  induction str with
  | nil =>
      rfl
  | cons c str ih =>
      rw [List.splitOn_cons_eq_if_modifyHead]
      split
      · next hc =>
          have hdot : c = dot := by simpa using hc
          rw [hdot, List.length_cons, ih, List.count_cons_self]
      · next hc =>
          have hdot : dot ≠ c := by
            rintro rfl
            simp at hc
          rw [List.length_modifyHead, ih, List.count_cons_of_ne hdot.symm]

theorem four_le_length_splitOn_iff (str : List Byte) :
    4 ≤ (str.splitOn dot).length ↔ 3 ≤ str.count dot := by
  rw [length_splitOn_dot]
  exact Nat.succ_le_succ_iff

theorem take_splitOn {lib : AtoiLib} {str : List Byte} (h : 4 ≤ (str.splitOn dot).length) :
    ((str.splitOn dot).take 4).map (octetOf lib) =
      [octet lib str 0, octet lib str 1, octet lib str 2, octet lib str 3] := by
  simp only [octet]
  generalize str.splitOn dot = parts at h ⊢
  match parts, h with
  | a :: b :: c :: d :: rest, _ => rfl

def AtoiLib.Holds (lib : AtoiLib) (v : ℤ) : Prop :=
  -2 ^ (lib.bits - 1) ≤ v ∧ v < 2 ^ (lib.bits - 1)

theorem toNat_octet {lib : AtoiLib} {str part : List Byte} {k : ℕ}
    (hpart : (str.splitOn dot)[k]? = some part) (hnumber : lib.Holds (number part)) :
    ((octet lib str k).toNat : ℤ) = number part % 256 := by
  have hoctet : octet lib str k = UInt8.ofInt (number part) := by
    rw [octet, hpart]
    exact congrArg UInt8.ofInt (lib.toInt_eq _ hnumber.1 hnumber.2)
  have hrange : 0 ≤ number part % 256 ∧ number part % 256 < 256 :=
    ⟨Int.emod_nonneg _ (by decide), Int.emod_lt_of_pos _ (by decide)⟩
  rw [hoctet, UInt8.ofInt, UInt8.toNat_ofNat']
  omega

section Address

variable {lib : AtoiLib} {host : Host} {str beyond stray : List Byte}

theorem inetAddr_reads (hstr : ∀ c ∈ str, c ≠ 0) (hdots : 3 ≤ str.count dot) :
    ∀ p ∈ (inetAddr lib host (Memory.of str beyond stray)).2, ∃ i ≤ str.length, p = .inside i := by
  have hfour := (four_le_length_splitOn_iff str).2 hdots
  intro p hp
  obtain ⟨i, hi, rfl⟩ := (inetAddrLoop_parts [] [] hstr hfour).2 p hp
  exact ⟨i, by simpa using hi, rfl⟩

theorem nacv_inetAddr (hstr : ∀ c ∈ str, c ≠ 0) (hdots : 3 ≤ str.count dot) (port : UInt16) :
    (nacv (sockaddrIn host (inetAddr lib host (Memory.of str beyond stray)).1 port)).addr =
      match host with
      | .littleEndian => ⟨octet lib str 0, octet lib str 1, octet lib str 2, octet lib str 3⟩
      | .bigEndian => ⟨octet lib str 3, octet lib str 2, octet lib str 1, octet lib str 0⟩ := by
  have hfour := (four_le_length_splitOn_iff str).2 hdots
  have hbytes : (inetAddrLoop lib (Memory.of str beyond stray) 4 0 (.inside 0) [0, 0, 0, 0]).1 =
      [octet lib str 0, octet lib str 1, octet lib str 2, octet lib str 3] := by
    rw [← take_splitOn hfour]
    exact (inetAddrLoop_parts [] [] hstr hfour).1
  rw [inetAddr]
  dsimp only
  rw [hbytes]
  exact nacv_addr host _ _ _ _ port

theorem inetAddr_strays (hstr : ∀ c ∈ str, c ≠ 0) (hdots : str.count dot < 3) :
    .stray 0 ∈ (inetAddr lib host (Memory.of str beyond stray)).2 := by
  refine inetAddrLoop_strays [] hstr (not_le.1 fun hfour => ?_)
  exact Nat.not_le.2 hdots ((four_le_length_splitOn_iff str).1 hfour)

end Address

/-- The address of a string is right just when the string has three dots at least and, on a
big-endian host, the octets read the same from behind.  The octets are the numbers modulo 256, as
far as an `int` holds them. -/
theorem addressRight_iff (lib : AtoiLib) (host : Host) {str : List Byte} (hstr : ∀ c ∈ str, c ≠ 0)
    (beyond stray : List Byte) :
    (AddressRight lib host str beyond stray ↔ 3 ≤ str.count dot ∧
      (host = .littleEndian ∨
        octet lib str 0 = octet lib str 3 ∧ octet lib str 1 = octet lib str 2)) ∧
      ∀ k part, (str.splitOn dot)[k]? = some part → lib.Holds (number part) →
        ((octet lib str k).toNat : ℤ) = number part % 256 := by
  refine ⟨⟨fun h => ?_, ?_⟩, fun k part => toNat_octet⟩
  · -- a character behind the null pointer is not one of the string
    have hdots : 3 ≤ str.count dot := by
      by_contra hfew
      obtain ⟨i, -, hi⟩ := h.inside _ (inetAddr_strays hstr (not_le.1 hfew))
      cases hi
    -- both octets in the middle, and both at the ends, have changed places on a big-endian host
    have haddr := (nacv_inetAddr hstr hdots 0).symm.trans (h.octets 0)
    cases host with
    | littleEndian =>
        exact ⟨hdots, Or.inl rfl⟩
    | bigEndian =>
        simp only [V4.mk.injEq] at haddr
        exact ⟨hdots, Or.inr ⟨haddr.2.2.2, haddr.2.2.1⟩⟩
  · rintro ⟨hdots, hhost⟩
    refine ⟨inetAddr_reads hstr hdots, fun port => ?_⟩
    rw [nacv_inetAddr hstr hdots]
    cases host with
    | littleEndian =>
        rfl
    | bigEndian =>
        rcases hhost with hhost | ⟨h03, h12⟩
        · cases hhost
        · simp [h03, h12]

/-- An `int` of 32 bits; beyond it, `atoi` might give anything. -/
def int32 : AtoiLib :=
  { bits := 32, toInt := id, toInt_eq := fun _ _ _ => rfl }

theorem addressRight_sample :
    AddressRight int32 .littleEndian [49, 48, 46, 48, 46, 48, 46, 50] [7] [8] :=
  (addressRight_iff int32 .littleEndian (by simp) [7] [8]).1.2 ⟨by decide, Or.inl rfl⟩

/-- Of `10.0`, the third number is looked for behind the null pointer; on a big-endian host,
`10.0.0.2` becomes `2.0.0.10`. -/
theorem addressRight_fails :
    ¬ AddressRight int32 .littleEndian [49, 48, 46, 48] [] [] ∧
      ¬ AddressRight int32 .bigEndian [49, 48, 46, 48, 46, 48, 46, 50] [] [] := by
  constructor
  · intro h
    have hread : CharPtr.stray 0 ∈
        (inetAddr int32 .littleEndian (Memory.of [49, 48, 46, 48] [] [])).2 := by decide
    obtain ⟨i, -, hi⟩ := h.inside _ hread
    cases hi
  · intro h
    have hoctets := h.octets 0
    revert hoctets
    decide

end Inet
end DtsNet
