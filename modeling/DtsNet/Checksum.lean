import DtsNet.Endian
import DtsNet.Library.OnesComplement

/-!
# Checksum — the Internet checksum

`checksum` for one buffer, `checksum_accmulate` and `checksum_complete` for a buffer in pieces.
The loops read whole 16-bit words: of an odd number of bytes the last word takes in the byte
behind the buffer.
-/

namespace DtsNet

open Dblk OnesComplement

/-! ## The loops -/

/-- Adds `n` words to an accumulator of `w` bits. -/
def accumulateLoop (w : ℕ) : ℕ → List Byte → ℕ → ℕ
  | 0, _, acc => acc
  | n + 1, data, acc => accumulateLoop w n (data.drop 2) ((acc + (br16 data).toNat) % 2 ^ w)

/-- The number of rounds of `for (int i = 0; i < size; i+=2)`. -/
def wordCount (size : ℕ) : ℕ :=
  (size + 1) / 2

/-- `while (acc >> 16)`, for at most `fuel` rounds. -/
def foldLoop : ℕ → ℕ → ℕ
  | 0, acc => acc
  | fuel + 1, acc =>
      if acc >>> 16 = 0 then acc else foldLoop fuel ((acc &&& 0xFFFF) + (acc >>> 16))

/-- A round makes the accumulator smaller, so that as many rounds as its value are enough. -/
def foldCarries (acc : ℕ) : ℕ :=
  foldLoop acc acc

def checksum (data : List Byte) (size : ℕ) : UInt16 :=
  ~~~ UInt16.ofNat (foldCarries (accumulateLoop 32 (wordCount size) data 0))

def checksumAccmulate (acc : ℕ) (data : List Byte) (size : ℕ) : ℕ :=
  accumulateLoop 64 (wordCount size) data acc

def checksumComplete (acc : ℕ) : UInt16 :=
  ~~~ UInt16.ofNat (foldCarries acc)

/-! ## The sum of the words of a buffer -/

/-- The bytes taken as big-endian words, the last one padded with zero. -/
def wordSum : List Byte → ℕ
  | [] => 0
  | [a] => a.toNat * 256
  | a :: b :: data => a.toNat * 256 + b.toNat + wordSum data

@[simp] theorem wordSum_nil : wordSum [] = 0 := rfl

@[simp] theorem wordSum_cons_cons (a b : Byte) (data : List Byte) :
    wordSum (a :: b :: data) = a.toNat * 256 + b.toNat + wordSum data := rfl

theorem wordSum_bw16 (x : UInt16) : wordSum (bw16 x) = x.toNat := by
  have h := toNat_br16 (bw16 x)
  rw [show br16 (bw16 x) = x from by simpa using br16_bw16_append x []] at h
  simpa [bw16] using h.symm

/-- Pieces of an even number of bytes are summed up one by one. -/
theorem wordSum_append {data : List Byte} (heven : data.length % 2 = 0) (rest : List Byte) :
    wordSum (data ++ rest) = wordSum data + wordSum rest := by
  induction data using wordSum.induct with
  | case1 =>
      simp
  | case2 a =>
      simp at heven
  | case3 a b data ih =>
      have heven' : data.length % 2 = 0 := by
        simp only [List.length_cons] at heven
        omega
      simp [ih heven', Nat.add_assoc]

/-- A byte behind an odd number of them is the low half of the last word. -/
theorem wordSum_append_byte {data : List Byte} (hodd : data.length % 2 = 1) (b : Byte) :
    wordSum (data ++ [b]) = wordSum data + b.toNat := by
  induction data using wordSum.induct with
  | case1 =>
      simp at hodd
  | case2 a =>
      simp [wordSum]
  | case3 a c data ih =>
      have hodd' : data.length % 2 = 1 := by
        simp only [List.length_cons] at hodd
        omega
      simp [ih hodd', Nat.add_assoc]

/-- The last word of an odd number of bytes is padded with zero anyway. -/
theorem wordSum_append_zero {data : List Byte} (hodd : data.length % 2 = 1) :
    wordSum (data ++ [0]) = wordSum data :=
  wordSum_append_byte hodd 0

theorem wordSum_le (data : List Byte) : wordSum data ≤ 65535 * wordCount data.length := by
  induction data using wordSum.induct with
  | case1 =>
      simp
  | case2 a =>
      have ha := a.toNat_lt
      simp only [wordSum, wordCount, List.length_singleton]
      omega
  | case3 a b data ih =>
      have ha := a.toNat_lt
      have hb := b.toNat_lt
      simp only [wordSum_cons_cons, wordCount, List.length_cons] at ih ⊢
      have hcount : (data.length + 1 + 1 + 1) / 2 = (data.length + 1) / 2 + 1 := by omega
      rw [hcount]
      omega

/-! ## What the loops compute -/

theorem memRead_succ_succ (data : List Byte) (n : ℕ) :
    memRead data (n + 2) = data.getD 0 0 :: data.getD 1 0 :: memRead (data.drop 2) n := by
  cases data with
  | nil =>
      simp [memRead, List.takeD]
  | cons a data =>
      cases data <;> simp [memRead, List.takeD]

theorem accumulateLoop_eq {w n : ℕ} {data : List Byte} {acc : ℕ}
    (h : acc + wordSum (memRead data (2 * n)) < 2 ^ w) :
    accumulateLoop w n data acc = acc + wordSum (memRead data (2 * n)) := by
  induction n generalizing data acc with
  | zero =>
      simp [accumulateLoop, memRead]
  | succ n ih =>
      have hsum : wordSum (memRead data (2 * (n + 1))) =
          (br16 data).toNat + wordSum (memRead (data.drop 2) (2 * n)) := by
        rw [Nat.mul_succ, memRead_succ_succ, wordSum_cons_cons, toNat_br16]
      rw [hsum, ← Nat.add_assoc] at h
      have hlt : acc + (br16 data).toNat < 2 ^ w := Nat.lt_of_le_of_lt (Nat.le_add_right _ _) h
      rw [accumulateLoop, Nat.mod_eq_of_lt hlt, ih h, hsum, Nat.add_assoc]

theorem foldLoop_eq {fuel acc : ℕ} (h : acc ≤ fuel) : foldLoop fuel acc = norm 65535 acc := by
  induction fuel generalizing acc with
  | zero =>
      have hacc : acc = 0 := by omega
      simp [hacc, foldLoop]
  | succ fuel ih =>
      have hshift : acc >>> 16 = acc / 65536 := Nat.shiftRight_eq_div_pow acc 16
      have hand : acc &&& 65535 = acc % 65536 := Nat.and_two_pow_sub_one_eq_mod acc 16
      rw [foldLoop, hshift, hand]
      split
      · next hzero =>
          have hle : acc ≤ 65535 := by omega
          exact (norm_of_le hle).symm
      · next hcarry =>
          rw [ih (by omega)]
          exact norm_carry acc

theorem foldCarries_eq (acc : ℕ) : foldCarries acc = norm 65535 acc :=
  foldLoop_eq (Nat.le_refl acc)

theorem toNat_checksumComplete (acc : ℕ) :
    (checksumComplete acc).toNat = 65535 - norm 65535 acc := by
  have hle : norm 65535 acc ≤ 65535 := norm_le (by decide) acc
  have hsize : UInt16.size = 65536 := rfl
  rw [checksumComplete, foldCarries_eq, UInt16.toNat_not, UInt16.toNat_ofNat', hsize]
  omega

/-- A word is the checksum of a sum exactly if it completes the reduced sum to all ones. -/
theorem eq_checksumComplete_iff {x : UInt16} {acc : ℕ} :
    x = checksumComplete acc ↔ x.toNat + norm 65535 acc = 65535 := by
  have hle : norm 65535 acc ≤ 65535 := norm_le (by decide) acc
  rw [← UInt16.toNat_inj, toNat_checksumComplete]
  omega

/-- The words of `size` bytes, with the byte behind an odd number of them. -/
def coveredBytes (data : List Byte) (size : ℕ) : List Byte :=
  memRead data (2 * wordCount size)

theorem coveredBytes_of_even {data : List Byte} (heven : data.length % 2 = 0) :
    coveredBytes data data.length = data := by
  have hcount : 2 * wordCount data.length = data.length := by
    simp only [wordCount]
    omega
  rw [coveredBytes, hcount, memRead_of_length rfl]

/-- A piece of an even number of bytes is covered as it is. -/
theorem coveredBytes_append {data : List Byte} (heven : data.length % 2 = 0) (rest : List Byte)
    (n : ℕ) : coveredBytes (data ++ rest) (data.length + n) = data ++ coveredBytes rest n := by
  have hcount : 2 * wordCount (data.length + n) = data.length + 2 * wordCount n := by
    simp only [wordCount]
    omega
  rw [coveredBytes, hcount, memRead_append_right (Nat.le_add_right _ _), Nat.add_sub_cancel_left]
  rfl

/-- A word at an even place adds its value to the sum. -/
theorem wordSum_coveredBytes_word {pre : List Byte} (heven : pre.length % 2 = 0) (x : UInt16)
    (post : List Byte) (n : ℕ) :
    wordSum (coveredBytes (pre ++ bw16 x ++ post) (pre.length + 2 + n)) =
      wordSum pre + x.toNat + wordSum (coveredBytes post n) := by
  have hlen : (pre ++ bw16 x).length = pre.length + 2 := by simp
  have heven' : (pre ++ bw16 x).length % 2 = 0 := by
    rw [hlen]
    omega
  rw [← hlen, coveredBytes_append heven', wordSum_append heven', wordSum_append heven,
    wordSum_bw16]

theorem wordSum_coveredBytes_le (data : List Byte) (size : ℕ) :
    wordSum (coveredBytes data size) ≤ 65535 * wordCount size := by
  have h := wordSum_le (coveredBytes data size)
  have hcount : wordCount (coveredBytes data size).length = wordCount size := by
    simp only [coveredBytes, length_memRead, wordCount]
    omega
  rwa [hcount] at h

theorem memRead_succ (mem : List Byte) (n : ℕ) :
    memRead mem (n + 1) = memRead mem n ++ [mem.getD n 0] := by
  induction n generalizing mem with
  | zero =>
      cases mem <;> simp [memRead, List.takeD]
  | succ n ih =>
      cases mem with
      | nil =>
          have h := ih []
          simpa [memRead, List.takeD] using h
      | cons a mem =>
          have h := ih mem
          simpa [memRead, List.takeD] using h

/-- Where the byte behind an odd number of bytes is zero, only the bytes themselves count. -/
theorem coveredBytes_eq_of_zero {mem : List Byte} {n : ℕ}
    (hzero : n % 2 = 1 → mem.getD n 0 = 0) :
    coveredBytes mem n = memRead mem n ++ List.replicate (n % 2) 0 := by
  rcases Nat.mod_two_eq_zero_or_one n with heven | hodd
  · have hcount : 2 * wordCount n = n := by
      simp only [wordCount]
      omega
    rw [coveredBytes, hcount, heven]
    simp
  · have hcount : 2 * wordCount n = n + 1 := by
      simp only [wordCount]
      omega
    rw [coveredBytes, hcount, memRead_succ, hzero hodd, hodd]
    rfl

theorem wordSum_coveredBytes_of_zero {mem : List Byte} {n : ℕ}
    (hzero : n % 2 = 1 → mem.getD n 0 = 0) :
    wordSum (coveredBytes mem n) = wordSum (memRead mem n) := by
  rw [coveredBytes_eq_of_zero hzero]
  rcases Nat.mod_two_eq_zero_or_one n with heven | hodd
  · rw [heven, List.replicate_zero, List.append_nil]
  · rw [hodd]
    exact wordSum_append_zero (by rw [length_memRead, hodd])

/-- For up to 65535 bytes the 32-bit sum does not overflow. -/
theorem checksum_eq {data : List Byte} {size : ℕ} (hsize : size ≤ 65535) :
    checksum data size = checksumComplete (wordSum (coveredBytes data size)) := by
  have hle := wordSum_coveredBytes_le data size
  have hlt : 0 + wordSum (coveredBytes data size) < 2 ^ 32 := by
    have hcount : wordCount size ≤ 32768 := by
      simp only [wordCount]
      omega
    omega
  rw [checksum, accumulateLoop_eq hlt, Nat.zero_add]
  rfl

theorem checksumAccmulate_eq {data : List Byte} {size acc : ℕ} (hsize : size ≤ 65535)
    (hacc : acc < 2 ^ 32) :
    checksumAccmulate acc data size = acc + wordSum (coveredBytes data size) := by
  have hle := wordSum_coveredBytes_le data size
  refine accumulateLoop_eq ?_
  have hcount : wordCount size ≤ 32768 := by
    simp only [wordCount]
    omega
  simp only [coveredBytes] at hle
  omega

/-- Another word at an even place changes the sum by the difference of the two. -/
theorem wordSum_coveredBytes_write {mem : List Byte} {i size : ℕ} (heven : i % 2 = 0)
    (hi : i + 2 ≤ size) (hsize : size ≤ mem.length) (x : UInt16) :
    wordSum (coveredBytes (memWriteAt mem i (bw16 x)) size) + (br16 (mem.drop i)).toNat =
      wordSum (coveredBytes mem size) + x.toNat := by
  obtain ⟨n, rfl⟩ := Nat.exists_eq_add_of_le hi
  have hlen : (mem.take i).length = i := by
    rw [List.length_take]
    omega
  have hword : ∀ y : UInt16,
      wordSum (coveredBytes (mem.take i ++ bw16 y ++ mem.drop (i + 2)) (i + 2 + n)) =
        wordSum (mem.take i) + y.toNat + wordSum (coveredBytes (mem.drop (i + 2)) n) := by
    intro y
    have h := wordSum_coveredBytes_word (by rw [hlen]; exact heven : (mem.take i).length % 2 = 0) y
      (mem.drop (i + 2)) n
    rwa [hlen] at h
  have hold : wordSum (coveredBytes mem (i + 2 + n)) =
      wordSum (mem.take i) + (br16 (mem.drop i)).toNat +
        wordSum (coveredBytes (mem.drop (i + 2)) n) := by
    rw [← hword, ← split_word (by omega)]
  rw [memWriteAt_word (by omega), hword, hold]
  omega

/-- Memory whose zero field, at an even place, is filled with its checksum verifies. -/
theorem checksum_filled {pre post : List Byte} {n size : ℕ} (hpre : pre.length % 2 = 0)
    (hlen : pre.length + 2 + n = size) (hsize : size ≤ 65535) :
    checksum (pre ++ bw16 (checksum (pre ++ [0, 0] ++ post) size) ++ post) size = 0 := by
  have hsum : ∀ x : UInt16, wordSum (coveredBytes (pre ++ bw16 x ++ post) size) =
      wordSum pre + wordSum (coveredBytes post n) + x.toNat := by
    intro x
    rw [← hlen, wordSum_coveredBytes_word hpre]
    omega
  let total := wordSum pre + wordSum (coveredBytes post n)
  have hzero : checksum (pre ++ [0, 0] ++ post) size = checksumComplete total := by
    have hbw : bw16 0 = [0, 0] := by decide
    rw [← hbw, checksum_eq hsize, hsum 0]
    rfl
  apply UInt16.toNat_inj.1
  calc
    (checksum (pre ++ bw16 (checksum (pre ++ [0, 0] ++ post) size) ++ post) size).toNat
        = (checksumComplete (total + (checksumComplete total).toNat)).toNat := by
          rw [hzero, checksum_eq hsize, hsum]
    _ = 65535 - norm 65535 (total + (65535 - norm 65535 total)) := by
          rw [toNat_checksumComplete, toNat_checksumComplete]
    _ = (0 : UInt16).toNat := by
          rw [norm_add_complement (by decide)]
          rfl

end DtsNet
