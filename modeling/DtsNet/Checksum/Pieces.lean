import DtsNet.Checksum.Reference
import DtsNet.Library.History

/-!
# Pieces — the checksum of a buffer that is cut into pieces

TCP and UDP add up the pseudo header, the header and the payload one after the other, the receiver
sums the whole segment.  As long as the pieces are of even length, neither the cuts nor the order
of the pieces matter, and a field that is filled with the result makes the whole verify.
-/

namespace DtsNet

open Dblk OnesComplement History

/-! ## The loops and their widths -/

/-- No round of the loop carries out of an accumulator of `w` bits. -/
def Fits (w : ℕ) : ℕ → List Byte → ℕ → Prop
  | 0, _, _ => True
  | n + 1, data, acc =>
      acc + (br16 data).toNat < 2 ^ w ∧ Fits w n (data.drop 2) ((acc + (br16 data).toNat) % 2 ^ w)

/-- The loop `while (acc >> 16)` ends, whatever it starts with. -/
structure FoldsUp (acc : ℕ) : Prop where
  /-- A round makes the accumulator smaller, so that it stays within its bits. -/
  smaller : acc >>> 16 ≠ 0 → (acc &&& 0xFFFF) + (acc >>> 16) < acc
  /-- The loop is left through its condition. -/
  ended : foldCarries acc >>> 16 = 0
  /-- There is nothing to do in further rounds. -/
  rounds : ∀ fuel, acc ≤ fuel → foldLoop fuel acc = foldCarries acc

/-! ## Pieces -/

/-- A piece of a buffer, and the memory that it is followed by. -/
structure BufferPiece where
  data : List Byte
  beyond : List Byte
  deriving DecidableEq, Repr

/-- `checksum_accmulate` of one piece after the other. -/
def accumulatePieces (acc : ℕ) (pieces : List BufferPiece) : ℕ :=
  pieces.foldl (fun acc p => checksumAccmulate acc (p.data ++ p.beyond) p.data.length) acc

/-- The buffer is cut into these pieces, each of even length. -/
structure CutInto (buffer : List Byte) (pieces : List BufferPiece) : Prop where
  whole : (pieces.map BufferPiece.data).flatten = buffer
  even : ∀ p ∈ pieces, p.data.length % 2 = 0

/-- What the `size` bytes at `mem` give when they are summed up in pieces, in this order. -/
structure SumsUp (mem : List Byte) (size : ℕ) (order : List BufferPiece) : Prop where
  same : checksumComplete (accumulatePieces 0 order) = checksum mem size
  fits : Each (fun before p =>
    Fits 64 (wordCount p.data.length) (p.data ++ p.beyond) (accumulatePieces 0 before)) order
  /-- A zero field at an even place is filled with the result. -/
  verifies : ∀ i, i % 2 = 0 → i + 2 ≤ size → br16 (mem.drop i) = 0 →
    checksum (memWriteAt mem i (bw16 (checksumComplete (accumulatePieces 0 order)))) size = 0

theorem fits_of_lt {w n : ℕ} {data : List Byte} {acc : ℕ}
    (h : acc + wordSum (memRead data (2 * n)) < 2 ^ w) : Fits w n data acc := by
  induction n generalizing data acc with
  | zero =>
      trivial
  | succ n ih =>
      have hsum : wordSum (memRead data (2 * (n + 1))) =
          (br16 data).toNat + wordSum (memRead (data.drop 2) (2 * n)) := by
        rw [Nat.mul_succ, memRead_succ_succ, wordSum_cons_cons, toNat_br16]
      rw [hsum, ← Nat.add_assoc] at h
      have hlt : acc + (br16 data).toNat < 2 ^ w := Nat.lt_of_le_of_lt (Nat.le_add_right _ _) h
      refine ⟨hlt, ih ?_⟩
      rwa [Nat.mod_eq_of_lt hlt]

theorem foldsUp (acc : ℕ) : FoldsUp acc := by
  have hshift : ∀ n : ℕ, n >>> 16 = n / 65536 := fun n => Nat.shiftRight_eq_div_pow n 16
  have hand : acc &&& 65535 = acc % 65536 := Nat.and_two_pow_sub_one_eq_mod acc 16
  have hle : norm 65535 acc ≤ 65535 := norm_le (by decide) acc
  refine ⟨?_, ?_, ?_⟩
  · rw [hshift, hand]
    intro hcarry
    omega
  · rw [hshift, foldCarries_eq]
    omega
  · intro fuel hfuel
    rw [foldLoop_eq hfuel, foldCarries_eq]

/-! ## What the pieces sum up to -/

/-- A piece of even length is summed up without what follows it. -/
theorem wordSum_memRead_piece {p : BufferPiece} (heven : p.data.length % 2 = 0) :
    wordSum (memRead (p.data ++ p.beyond) (2 * wordCount p.data.length)) = wordSum p.data := by
  have hcount : p.data.length = 2 * wordCount p.data.length := by
    simp only [wordCount]
    omega
  rw [memRead_append_of_length hcount]

/-- The sum of the words of all pieces. -/
def piecesSum (pieces : List BufferPiece) : ℕ :=
  (pieces.map fun p => wordSum p.data).sum

@[simp] theorem piecesSum_cons (p : BufferPiece) (pieces : List BufferPiece) :
    piecesSum (p :: pieces) = wordSum p.data + piecesSum pieces := List.sum_cons

theorem piecesSum_append (pieces pieces' : List BufferPiece) :
    piecesSum (pieces ++ pieces') = piecesSum pieces + piecesSum pieces' := by
  simp [piecesSum]

theorem piecesSum_perm {pieces order : List BufferPiece} (h : order.Perm pieces) :
    piecesSum order = piecesSum pieces :=
  (h.map fun p : BufferPiece => wordSum p.data).sum_nat

theorem accumulatePieces_eq {order : List BufferPiece} (heven : ∀ p ∈ order, p.data.length % 2 = 0)
    {acc : ℕ} (h : acc + piecesSum order < 2 ^ 64) :
    accumulatePieces acc order = acc + piecesSum order := by
  induction order generalizing acc with
  | nil =>
      rfl
  | cons p order ih =>
      have hp := wordSum_memRead_piece (heven p List.mem_cons_self)
      rw [piecesSum_cons, ← Nat.add_assoc] at h
      have hpiece : checksumAccmulate acc (p.data ++ p.beyond) p.data.length =
          acc + wordSum p.data := by
        rw [checksumAccmulate, accumulateLoop_eq (by rw [hp]; omega), hp]
      calc
        accumulatePieces acc (p :: order)
            = accumulatePieces (checksumAccmulate acc (p.data ++ p.beyond) p.data.length) order :=
              rfl
        _ = acc + wordSum p.data + piecesSum order := by
              rw [hpiece, ih (fun q hq => heven q (List.mem_cons_of_mem p hq)) h]
        _ = acc + piecesSum (p :: order) := by rw [piecesSum_cons, Nat.add_assoc]

theorem CutInto.wordSum {buffer : List Byte} {pieces : List BufferPiece}
    (h : CutInto buffer pieces) : piecesSum pieces = DtsNet.wordSum buffer := by
  obtain ⟨rfl, heven⟩ := h
  induction pieces with
  | nil =>
      rfl
  | cons p pieces ih =>
      rw [piecesSum_cons, ih fun q hq => heven q (List.mem_cons_of_mem p hq), List.map_cons,
        List.flatten_cons, wordSum_append (heven p List.mem_cons_self)]

/-! ## The pieces and the whole -/

/-- A zero field at an even place is filled with the checksum. -/
theorem checksum_memWriteAt {mem : List Byte} {i size : ℕ} (heven : i % 2 = 0) (hi : i + 2 ≤ size)
    (hmem : size ≤ mem.length) (hsize : size ≤ 65535) (hzero : br16 (mem.drop i) = 0) :
    checksum (memWriteAt mem i (bw16 (checksum mem size))) size = 0 := by
  have hlen : (mem.take i).length = i := by
    rw [List.length_take]
    omega
  have hfield : bw16 0 = [0, 0] := by decide
  have hsplit : mem.take i ++ [0, 0] ++ mem.drop (i + 2) = mem := by
    rw [← hfield, ← hzero]
    exact (split_word (by omega)).symm
  have hfilled : checksum (mem.take i ++ bw16 (checksum (mem.take i ++ [0, 0] ++ mem.drop (i + 2))
      size) ++ mem.drop (i + 2)) size = 0 :=
    checksum_filled (n := size - i - 2) (by rw [hlen]; exact heven) (by omega) hsize
  rw [hsplit] at hfilled
  rwa [memWriteAt_word (by omega)]

theorem CutInto.sumsUp {mem : List Byte} {size : ℕ} (heven : size % 2 = 0) (hsize : size ≤ 65534)
    (hmem : size ≤ mem.length) {pieces order : List BufferPiece}
    (hcut : CutInto (mem.take size) pieces) (horder : order.Perm pieces) : SumsUp mem size order := by
  have hlen : (mem.take size).length = size := by
    rw [List.length_take]
    omega
  have hsum : piecesSum order = DtsNet.wordSum (mem.take size) := by
    rw [piecesSum_perm horder, hcut.wordSum]
  have hbound : piecesSum order < 2 ^ 32 := by
    have hle := wordSum_le (mem.take size)
    simp only [hlen, wordCount] at hle
    omega
  have hpieces : ∀ p ∈ order, p.data.length % 2 = 0 := fun p hp => hcut.even p (horder.mem_iff.1 hp)
  have hcovered : coveredBytes mem size = mem.take size := by
    have hcount : 2 * wordCount size = size := by
      simp only [wordCount]
      omega
    rw [coveredBytes, hcount, memRead_eq_take hmem]
  have hsame : checksumComplete (accumulatePieces 0 order) = checksum mem size := by
    rw [accumulatePieces_eq hpieces (by omega), checksum_eq (by omega), hcovered, hsum,
      Nat.zero_add]
  refine ⟨hsame, ?_, ?_⟩
  · -- what lies before a piece, and the piece, are a part of the whole sum
    rintro before p after rfl
    rw [piecesSum_append, piecesSum_cons] at hbound
    refine fits_of_lt ?_
    rw [wordSum_memRead_piece (hpieces p (by simp)),
      accumulatePieces_eq (fun q hq => hpieces q (List.mem_append_left _ hq)) (by omega)]
    omega
  · intro i hi hle hzero
    rw [hsame]
    exact checksum_memWriteAt hi hle hmem (by omega) hzero

/-- A buffer of even length, up to 65534: the loops add without overflow and fold for every
accumulator, and the pieces of even length that it is cut into, taken in any order, give the
checksum of the whole, which makes a zero field verify. -/
theorem checksum_pieces {mem : List Byte} {size : ℕ} (heven : size % 2 = 0) (hsize : size ≤ 65534)
    (hmem : size ≤ mem.length) :
    (∀ acc, FoldsUp acc) ∧ Fits 32 (wordCount size) mem 0 ∧
      ∀ pieces order, CutInto (mem.take size) pieces → order.Perm pieces →
        SumsUp mem size order := by
  refine ⟨foldsUp, fits_of_lt ?_, fun pieces order => CutInto.sumsUp heven hsize hmem⟩
  have hle : wordSum (memRead mem (2 * wordCount size)) ≤ 65535 * wordCount size :=
    wordSum_coveredBytes_le mem size
  simp only [wordCount] at hle ⊢
  omega

theorem checksum_pieces_sample :
    SumsUp [0x45, 0, 0, 0, 0xFF, 0xFF] 6
      [⟨[0, 0, 0xFF, 0xFF], [1]⟩, ⟨[], [2]⟩, ⟨[0x45, 0], [3]⟩] :=
  (checksum_pieces (by decide) (by decide) (by decide)).2.2
    [⟨[0x45, 0], [3]⟩, ⟨[], [2]⟩, ⟨[0, 0, 0xFF, 0xFF], [1]⟩] _
    ⟨by decide, by decide⟩ (by decide)

end DtsNet
