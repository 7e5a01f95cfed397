import DtsNet.Dblk

/-!
# Endian — big-endian words in memory

`br16`, `bw16`, `br32` and `bw32`, and what one reads of what the other wrote.  As in `Dblk`,
memory is the list of bytes from the pointer on, and what lies behind it reads as zero.
-/

namespace DtsNet

/-- `(data[0] << 8) | data[1]`. -/
def br16 (data : List Byte) : UInt16 :=
  ((data.getD 0 0).toUInt16 <<< 8) ||| (data.getD 1 0).toUInt16

/-- The two bytes that `bw16` writes. -/
def bw16 (data : UInt16) : List Byte :=
  [((data >>> 8) &&& 0xFF).toUInt8, (data &&& 0xFF).toUInt8]

/-- `(data[0] << 24) | (data[1] << 16) | (data[2] << 8) | data[3]`. -/
def br32 (data : List Byte) : UInt32 :=
  ((data.getD 0 0).toUInt32 <<< 24) ||| ((data.getD 1 0).toUInt32 <<< 16) |||
    ((data.getD 2 0).toUInt32 <<< 8) ||| (data.getD 3 0).toUInt32

/-- The four bytes that `bw32` writes. -/
def bw32 (data : UInt32) : List Byte :=
  [((data >>> 24) &&& 0xFF).toUInt8, ((data >>> 16) &&& 0xFF).toUInt8,
    ((data >>> 8) &&& 0xFF).toUInt8, (data &&& 0xFF).toUInt8]

/-- `memcpy(mem + i, bs, |bs|)`. -/
def memWriteAt (mem : List Byte) (i : ℕ) (bs : List Byte) : List Byte :=
  mem.take i ++ Dblk.memWrite (mem.drop i) bs

theorem memWriteAt_append {pre old post bs : List Byte} (h : bs.length = old.length) :
    memWriteAt (pre ++ old ++ post) pre.length bs = pre ++ bs ++ post := by
  simp [memWriteAt, Dblk.memWrite, h]

theorem memWriteAt_length (pre rest bs : List Byte) :
    memWriteAt (pre ++ rest) pre.length bs = pre ++ bs ++ rest.drop bs.length := by
  simp [memWriteAt, Dblk.memWrite]

/-- Behind what was written nothing changes. -/
theorem drop_memWriteAt {mem bs : List Byte} {i k : ℕ} (hi : i ≤ mem.length)
    (hk : i + bs.length ≤ k) : (memWriteAt mem i bs).drop k = mem.drop k := by
  rcases Nat.exists_eq_add_of_le hk with ⟨j, rfl⟩
  have hlen : (mem.take i ++ bs).length = i + bs.length := by
    simp only [List.length_append, List.length_take]
    omega
  rw [memWriteAt, Dblk.memWrite, ← List.append_assoc, ← List.drop_drop, List.drop_left' hlen,
    List.drop_drop, List.drop_drop, Nat.add_assoc]

@[simp] theorem length_bw16 (x : UInt16) : (bw16 x).length = 2 := rfl

theorem toNat_br16 (data : List Byte) :
    (br16 data).toNat = (data.getD 0 0).toNat * 256 + (data.getD 1 0).toNat := by
  have ha := (data.getD 0 0).toNat_lt
  have hb : (data.getD 1 0).toNat < 2 ^ 8 := (data.getD 1 0).toNat_lt
  have hshift : ((data.getD 0 0).toUInt16 <<< 8).toNat = (data.getD 0 0).toNat <<< 8 := by
    simp only [UInt16.toNat_shiftLeft, UInt8.toNat_toUInt16, Nat.shiftLeft_eq]
    have h8 : (8 : UInt16).toNat % 16 = 8 := rfl
    rw [h8]
    omega
  rw [br16, UInt16.toNat_or, hshift, UInt8.toNat_toUInt16, ← Nat.shiftLeft_add_eq_or_of_lt hb,
    Nat.shiftLeft_eq]

theorem br16_eq_iff {data : List Byte} {x : UInt16} :
    br16 data = x ↔ (data.getD 0 0).toNat * 256 + (data.getD 1 0).toNat = x.toNat := by
  rw [← toNat_br16, UInt16.toNat_inj]

theorem toNat_bw16 (x : UInt16) :
    (bw16 x).map UInt8.toNat = [x.toNat / 256, x.toNat % 256] := by
  have hx : x.toNat < 65536 := x.toNat_lt
  have hand : ∀ n : ℕ, n &&& 255 = n % 256 := fun n => Nat.and_two_pow_sub_one_eq_mod n 8
  have h8 : (8 : UInt16).toNat % 16 = 8 := rfl
  have h255 : (255 : UInt16).toNat = 255 := rfl
  simp only [bw16, List.map_cons, List.map_nil, UInt16.toNat_toUInt8, UInt16.toNat_and,
    UInt16.toNat_shiftRight, h8, h255, hand, Nat.shiftRight_eq_div_pow]
  congr 1
  · omega
  · congr 1
    omega

@[simp] theorem br16_bw16_append (x : UInt16) (rest : List Byte) : br16 (bw16 x ++ rest) = x := by
  have h := toNat_bw16 x
  simp only [bw16, List.map_cons, List.map_nil, List.cons.injEq, and_true] at h
  rw [br16_eq_iff]
  simp only [bw16, List.cons_append, List.nil_append, List.getD_cons_zero, List.getD_cons_succ]
  omega

/-- What was read is written back. -/
theorem bw16_br16 {data : List Byte} (h : 2 ≤ data.length) : bw16 (br16 data) = data.take 2 := by
  match data, h with
  | a :: b :: rest, _ =>
      have ha := a.toNat_lt
      have hb := b.toNat_lt
      have hread : (br16 (a :: b :: rest)).toNat = a.toNat * 256 + b.toNat :=
        toNat_br16 (a :: b :: rest)
      have hbytes := toNat_bw16 (br16 (a :: b :: rest))
      rw [hread] at hbytes
      have hmap : (bw16 (br16 (a :: b :: rest))).map UInt8.toNat = [a, b].map UInt8.toNat := by
        rw [hbytes]
        simp only [List.map_cons, List.map_nil, List.cons.injEq, and_true]
        omega
      exact List.map_injective_iff.2 (fun x y hxy => UInt8.toNat_inj.1 hxy) hmap

section Word

variable {mem : List Byte} {i : ℕ}

/-- Memory around the word at a place. -/
theorem split_word (h : i + 2 ≤ mem.length) :
    mem = mem.take i ++ bw16 (br16 (mem.drop i)) ++ mem.drop (i + 2) := by
  have hword : bw16 (br16 (mem.drop i)) = (mem.drop i).take 2 :=
    bw16_br16 (by rw [List.length_drop]; omega)
  rw [hword, ← List.drop_drop, List.append_assoc, List.take_append_drop, List.take_append_drop]

theorem memWriteAt_word (h : i + 2 ≤ mem.length) (x : UInt16) :
    memWriteAt mem i (bw16 x) = mem.take i ++ bw16 x ++ mem.drop (i + 2) := by
  have hlen : (mem.take i).length = i := by
    rw [List.length_take]
    omega
  calc
    memWriteAt mem i (bw16 x)
        = memWriteAt (mem.take i ++ bw16 (br16 (mem.drop i)) ++ mem.drop (i + 2))
            (mem.take i).length (bw16 x) := by
          rw [← split_word h, hlen]
    _ = mem.take i ++ bw16 x ++ mem.drop (i + 2) := memWriteAt_append rfl

end Word

theorem toNat_br32 (data : List Byte) :
    (br32 data).toNat = (data.getD 0 0).toNat * 16777216 + (data.getD 1 0).toNat * 65536 +
      (data.getD 2 0).toNat * 256 + (data.getD 3 0).toNat := by
  have ha := (data.getD 0 0).toNat_lt
  have hb := (data.getD 1 0).toNat_lt
  have hc := (data.getD 2 0).toNat_lt
  have hd : (data.getD 3 0).toNat < 2 ^ 8 := (data.getD 3 0).toNat_lt
  -- every byte is shifted into a place that the bytes behind it leave free
  have hshift : ∀ (a : Byte) (s : UInt32) (k m : ℕ), s.toNat % 32 = k → m = 2 ^ k →
      m ≤ 16777216 → (a.toUInt32 <<< s).toNat = a.toNat * m := by
    intro a s k m hs hm hle
    have hlt := a.toNat_lt
    have hmul : a.toNat * m < 2 ^ 32 := by
      calc
        a.toNat * m ≤ 255 * 16777216 := Nat.mul_le_mul (by omega) hle
        _ < 2 ^ 32 := by decide
    rw [UInt32.toNat_shiftLeft, UInt8.toNat_toUInt32, hs, Nat.shiftLeft_eq, ← hm,
      Nat.mod_eq_of_lt hmul]
  have hor : ∀ x y k m : ℕ, m = 2 ^ k → y < m → x * m ||| y = x * m + y := by
    intro x y k m hm hy
    rw [hm] at hy ⊢
    rw [← Nat.shiftLeft_eq, Nat.shiftLeft_add_eq_or_of_lt hy]
  let a := (data.getD 0 0).toNat
  let b := (data.getD 1 0).toNat
  let c := (data.getD 2 0).toNat
  let d := (data.getD 3 0).toNat
  have h₁ : a * 16777216 ||| b * 65536 = (a * 256 + b) * 65536 := by
    rw [hor a _ 24 16777216 (by decide) (by omega)]
    omega
  have h₂ : (a * 256 + b) * 65536 ||| c * 256 = ((a * 256 + b) * 256 + c) * 256 := by
    rw [hor _ _ 16 65536 (by decide) (by omega)]
    omega
  have h₃ : ((a * 256 + b) * 256 + c) * 256 ||| d = ((a * 256 + b) * 256 + c) * 256 + d :=
    hor _ _ 8 256 (by decide) hd
  rw [br32, UInt32.toNat_or, UInt32.toNat_or, UInt32.toNat_or,
    hshift _ 24 24 16777216 rfl (by decide) (by decide),
    hshift _ 16 16 65536 rfl (by decide) (by decide),
    hshift _ 8 8 256 rfl (by decide) (by decide), UInt8.toNat_toUInt32, h₁, h₂, h₃]
  omega

theorem toNat_bw32 (x : UInt32) :
    (bw32 x).map UInt8.toNat =
      [x.toNat / 16777216, x.toNat / 65536 % 256, x.toNat / 256 % 256, x.toNat % 256] := by
  have hx : x.toNat < 4294967296 := x.toNat_lt
  have hand : ∀ n : ℕ, n &&& 255 = n % 256 := fun n => Nat.and_two_pow_sub_one_eq_mod n 8
  have h24 : (24 : UInt32).toNat % 32 = 24 := rfl
  have h16 : (16 : UInt32).toNat % 32 = 16 := rfl
  have h8 : (8 : UInt32).toNat % 32 = 8 := rfl
  have h255 : (255 : UInt32).toNat = 255 := rfl
  simp only [bw32, List.map_cons, List.map_nil, UInt32.toNat_toUInt8, UInt32.toNat_and,
    UInt32.toNat_shiftRight, h24, h16, h8, h255, hand, Nat.shiftRight_eq_div_pow, List.cons.injEq,
    and_true]
  omega

@[simp] theorem br32_bw32_append (x : UInt32) (rest : List Byte) : br32 (bw32 x ++ rest) = x := by
  have hx : x.toNat < 4294967296 := x.toNat_lt
  have h := toNat_bw32 x
  simp only [bw32, List.map_cons, List.map_nil, List.cons.injEq, and_true] at h
  rw [← UInt32.toNat_inj, toNat_br32]
  simp only [bw32, List.cons_append, List.nil_append, List.getD_cons_zero, List.getD_cons_succ]
  omega

/-- What was read is written back. -/
theorem bw32_br32 {data : List Byte} (h : data.length = 4) : bw32 (br32 data) = data := by
  match data, h with
  | [a, b, c, d], _ =>
      have ha := a.toNat_lt
      have hb := b.toNat_lt
      have hc := c.toNat_lt
      have hd := d.toNat_lt
      have hread : (br32 [a, b, c, d]).toNat =
          a.toNat * 16777216 + b.toNat * 65536 + c.toNat * 256 + d.toNat := toNat_br32 [a, b, c, d]
      have hmap : (bw32 (br32 [a, b, c, d])).map UInt8.toNat = [a, b, c, d].map UInt8.toNat := by
        rw [toNat_bw32, hread]
        simp only [List.map_cons, List.map_nil, List.cons.injEq, and_true]
        omega
      exact List.map_injective_iff.2 (fun x y hxy => UInt8.toNat_inj.1 hxy) hmap

end DtsNet
