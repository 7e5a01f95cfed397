import Mathlib.Data.List.GetD
import DtsNet.Checksum

/-!
# Reference — the Internet checksum, word by word

The checksum as it is meant: words are added in one's complement arithmetic, the last one padded
with zero, and the sum is complemented.  The loops add up all words first and put the carries back
afterwards, which is the same; of an odd number of bytes, however, they take the byte behind the
buffer for the padding.
-/

namespace DtsNet

open Dblk OnesComplement

/-! ## The checksum as it is meant -/

/-- The big-endian words of a buffer, the last one padded with zero. -/
def words : List Byte → List ℕ
  | [] => []
  | [a] => [a.toNat * 256]
  | a :: b :: data => (a.toNat * 256 + b.toNat) :: words data

/-- The one's complement of the one's complement sum. -/
def internetChecksum (data : List Byte) : UInt16 :=
  ~~~ UInt16.ofNat ((words data).foldl (addWord 65535) 0)

theorem words_le (data : List Byte) : ∀ w ∈ words data, w ≤ 65535 := by
  induction data using words.induct with
  | case1 =>
      simp [words]
  | case2 a =>
      have ha := a.toNat_lt
      simp only [words, List.mem_singleton, forall_eq]
      omega
  | case3 a b data ih =>
      have ha := a.toNat_lt
      have hb := b.toNat_lt
      simp only [words, List.mem_cons, forall_eq_or_imp]
      exact ⟨by omega, ih⟩

theorem sum_words (data : List Byte) : (words data).sum = wordSum data := by
  induction data using words.induct with
  | case1 =>
      rfl
  | case2 a =>
      simp [words, wordSum]
  | case3 a b data ih =>
      simp [words, ih]

/-- The carries may as well be put back at the end. -/
theorem internetChecksum_eq (data : List Byte) :
    internetChecksum data = checksumComplete (wordSum data) := by
  have hfold : (words data).foldl (addWord 65535) 0 = norm 65535 (0 + (words data).sum) :=
    foldl_addWord (by decide) (words_le data) 0
  rw [internetChecksum, hfold, Nat.zero_add, sum_words, checksumComplete, foldCarries_eq]

theorem checksumComplete_eq_iff {acc acc' : ℕ} :
    checksumComplete acc = checksumComplete acc' ↔ norm 65535 acc = norm 65535 acc' := by
  have hle : norm 65535 acc ≤ 65535 := norm_le (by decide) acc
  have hle' : norm 65535 acc' ≤ 65535 := norm_le (by decide) acc'
  rw [← UInt16.toNat_inj, toNat_checksumComplete, toNat_checksumComplete]
  omega

/-! ## The byte behind the buffer -/

/-- What the last word takes in besides the buffer. -/
def behind (data beyond : List Byte) : ℕ :=
  if data.length % 2 = 0 then 0 else (beyond.getD 0 0).toNat

theorem behind_lt (data beyond : List Byte) : behind data beyond < 65535 := by
  have hbyte := (beyond.getD 0 0).toNat_lt
  unfold behind
  split <;> omega

theorem behind_eq_zero_iff (data beyond : List Byte) :
    behind data beyond = 0 ↔ data.length % 2 = 0 ∨ beyond.getD 0 0 = 0 := by
  unfold behind
  split
  · next heven =>
      simp [heven]
  · next hodd =>
      simp [hodd, ← UInt8.toNat_inj]

theorem wordSum_coveredBytes_behind (data beyond : List Byte) :
    wordSum (coveredBytes (data ++ beyond) data.length) = wordSum data + behind data beyond := by
  have hread : memRead (data ++ beyond) data.length = data := memRead_append_of_length rfl beyond
  rcases Nat.mod_two_eq_zero_or_one data.length with heven | hodd
  · have hcount : 2 * wordCount data.length = data.length := by
      simp only [wordCount]
      omega
    rw [coveredBytes, hcount, hread, behind, if_pos heven, Nat.add_zero]
  · -- the loop makes one more turn for the last byte, and reads two
    have hcount : 2 * wordCount data.length = data.length + 1 := by
      simp only [wordCount]
      omega
    have hbyte : (data ++ beyond).getD data.length 0 = beyond.getD 0 0 := by
      rw [List.getD_append_right _ _ _ _ (Nat.le_refl _), Nat.sub_self]
    rw [coveredBytes, hcount, memRead_succ, hread, hbyte, wordSum_append_byte hodd, behind,
      if_neg (by omega)]

/-- Either way, the byte behind is added to the sum of the buffer. -/
theorem checksum_behind {data : List Byte} (hsize : data.length ≤ 65535) (beyond : List Byte) :
    checksum (data ++ beyond) data.length =
        checksumComplete (wordSum data + behind data beyond) ∧
      checksumComplete (checksumAccmulate 0 (data ++ beyond) data.length) =
        checksumComplete (wordSum data + behind data beyond) := by
  constructor
  · rw [checksum_eq hsize, wordSum_coveredBytes_behind]
  · rw [checksumAccmulate_eq hsize (by decide), Nat.zero_add, wordSum_coveredBytes_behind]

/-! ## The property -/

/-- The checksum of the buffer with this memory behind it, in one go and by way of the
accumulator. -/
structure ChecksumOk (data beyond : List Byte) : Prop where
  once : checksum (data ++ beyond) data.length = internetChecksum data
  accumulated : checksumComplete (checksumAccmulate 0 (data ++ beyond) data.length) =
    internetChecksum data

/-- The memory behind the buffer does not matter. -/
structure IgnoresBehind (data : List Byte) : Prop where
  once : ∀ beyond beyond', checksum (data ++ beyond) data.length =
    checksum (data ++ beyond') data.length
  accumulated : ∀ beyond beyond',
    checksumComplete (checksumAccmulate 0 (data ++ beyond) data.length) =
      checksumComplete (checksumAccmulate 0 (data ++ beyond') data.length)

theorem checksumOk_iff_behind {data : List Byte} (hsize : data.length ≤ 65535)
    (beyond : List Byte) : ChecksumOk data beyond ↔ behind data beyond = 0 := by
  rcases checksum_behind hsize beyond with ⟨honce, haccumulated⟩
  have hzero : checksumComplete (wordSum data + behind data beyond) = internetChecksum data ↔
      behind data beyond = 0 := by
    rw [internetChecksum_eq, checksumComplete_eq_iff]
    exact norm_add_eq_iff (behind_lt data beyond) _
  constructor
  · intro h
    exact hzero.1 (honce.symm.trans h.once)
  · intro h
    exact ⟨honce.trans (hzero.2 h), haccumulated.trans (hzero.2 h)⟩

theorem checksumOk_nil {data : List Byte} (hsize : data.length ≤ 65535) : ChecksumOk data [] :=
  (checksumOk_iff_behind hsize []).2 ((behind_eq_zero_iff data []).2 (Or.inr rfl))

/-- Up to 65535 bytes: the checksum is right just when their number is even or the byte behind them
is zero, and it does not depend on what is behind them just when their number is even. -/
theorem checksumOk_iff {data : List Byte} (hsize : data.length ≤ 65535) :
    (∀ beyond, ChecksumOk data beyond ↔ data.length % 2 = 0 ∨ beyond.getD 0 0 = 0) ∧
      (IgnoresBehind data ↔ data.length % 2 = 0) := by
  have hok : ∀ beyond, ChecksumOk data beyond ↔ data.length % 2 = 0 ∨ beyond.getD 0 0 = 0 :=
    fun beyond => (checksumOk_iff_behind hsize beyond).trans (behind_eq_zero_iff data beyond)
  refine ⟨hok, fun h => ?_, fun heven => ?_⟩
  · -- a zero behind the buffer gives the right checksum, so that a one would have to as well
    have hone : ChecksumOk data [1] :=
      { once := (h.once [1] []).trans (checksumOk_nil hsize).once
        accumulated := (h.accumulated [1] []).trans (checksumOk_nil hsize).accumulated }
    exact ((hok [1]).1 hone).resolve_right (by decide)
  · have hall : ∀ beyond, ChecksumOk data beyond := fun beyond => (hok beyond).2 (Or.inl heven)
    exact ⟨fun beyond beyond' => (hall beyond).once.trans (hall beyond').once.symm,
      fun beyond beyond' => (hall beyond).accumulated.trans (hall beyond').accumulated.symm⟩

theorem checksumOk_sample : ChecksumOk [0x45, 0, 0xFF, 0xFF] [7] ∧ ChecksumOk [0x45, 0, 9] [0, 7] :=
  ⟨((checksumOk_iff (by decide)).1 [7]).2 (by decide),
    ((checksumOk_iff (by decide)).1 [0, 7]).2 (by decide)⟩

/-- Of three bytes, the checksum takes in the fourth. -/
theorem checksum_reads_behind :
    ¬ ChecksumOk [0x45, 0, 9] [7] ∧ ¬ IgnoresBehind [0x45, 0, 9] := by
  constructor
  · intro h
    have honce := h.once
    revert honce
    decide
  · intro h
    have honce := h.once [7] [0]
    revert honce
    decide

end DtsNet
