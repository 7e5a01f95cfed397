import DtsNet.Endian

/-!
# Arp — address resolution packets

`arp_pack` and `arp_unpack`.  The addresses of a packet are pointers; here each is the memory it
points to.
-/

namespace DtsNet
namespace Arp

open Dblk

def arpOpReq : UInt16 := 1
def arpOpRpl : UInt16 := 2

structure ArpPacket where
  hrd : UInt16
  pro : UInt16
  hln : UInt8
  pln : UInt8
  op : UInt16
  sha : List Byte
  spa : List Byte
  tha : List Byte
  tpa : List Byte
  deriving DecidableEq, Repr

/-- `8+pkt->hln*2+pkt->pln*2`. -/
def arpSize (pkt : ArpPacket) : ℕ :=
  8 + pkt.hln.toNat * 2 + pkt.pln.toNat * 2

/-- The bytes written to a buffer of `data_size` bytes: none if they do not fit. -/
def arpPack (pkt : ArpPacket) (dataSize : ℕ) : List Byte :=
  if dataSize < arpSize pkt then
    []
  else
    bw16 pkt.hrd ++ bw16 pkt.pro ++ [pkt.hln, pkt.pln] ++ bw16 pkt.op ++
      memRead pkt.sha pkt.hln.toNat ++ memRead pkt.spa pkt.pln.toNat ++
      memRead pkt.tha pkt.hln.toNat ++ memRead pkt.tpa pkt.pln.toNat

def arpUnpack (data : List Byte) (dataSize : ℕ) : Option ArpPacket :=
  if dataSize < 8 then
    none
  else
    let hln := data.getD 4 0
    let pln := data.getD 5 0
    let sha := data.drop 8
    let spa := sha.drop hln.toNat
    let tha := spa.drop pln.toNat
    let pkt :=
      { hrd := br16 data
        pro := br16 (data.drop 2)
        hln := hln
        pln := pln
        op := br16 (data.drop 6)
        sha := sha
        spa := spa
        tha := tha
        tpa := tha.drop hln.toNat }
    if dataSize < arpSize pkt then none else some pkt

/-! ## A packed packet on the wire -/

/-- A packet whose addresses have the lengths that it states. -/
structure ArpPacket.WellFormed (pkt : ArpPacket) : Prop where
  sha : pkt.sha.length = pkt.hln.toNat
  spa : pkt.spa.length = pkt.pln.toNat
  tha : pkt.tha.length = pkt.hln.toNat
  tpa : pkt.tpa.length = pkt.pln.toNat

/-- The packet with the bytes of its addresses that are packed. -/
def ArpPacket.trim (pkt : ArpPacket) : ArpPacket :=
  { pkt with
    sha := memRead pkt.sha pkt.hln.toNat
    spa := memRead pkt.spa pkt.pln.toNat
    tha := memRead pkt.tha pkt.hln.toNat
    tpa := memRead pkt.tpa pkt.pln.toNat }

theorem arpPack_trim (pkt : ArpPacket) (dataSize : ℕ) :
    arpPack pkt.trim dataSize = arpPack pkt dataSize := by
  have hread : ∀ (mem : List Byte) (n : ℕ), memRead (memRead mem n) n = memRead mem n :=
    fun mem n => memRead_of_length (length_memRead mem n)
  simp only [arpPack, ArpPacket.trim, hread]
  rfl

theorem arpPack_eq {pkt : ArpPacket} (hpkt : pkt.WellFormed) {dataSize : ℕ}
    (hsize : arpSize pkt ≤ dataSize) :
    arpPack pkt dataSize =
      bw16 pkt.hrd ++ (bw16 pkt.pro ++ ([pkt.hln, pkt.pln] ++ (bw16 pkt.op ++
        (pkt.sha ++ (pkt.spa ++ (pkt.tha ++ pkt.tpa)))))) := by
  rw [arpPack, if_neg (Nat.not_lt.2 hsize), memRead_of_length hpkt.sha, memRead_of_length hpkt.spa,
    memRead_of_length hpkt.tha, memRead_of_length hpkt.tpa]
  simp only [List.append_assoc]

theorem length_arpPack {pkt : ArpPacket} (hpkt : pkt.WellFormed) {dataSize : ℕ}
    (hsize : arpSize pkt ≤ dataSize) : (arpPack pkt dataSize).length = arpSize pkt := by
  rw [arpPack_eq hpkt hsize]
  simp only [List.length_append, length_bw16, hpkt.sha, hpkt.spa, hpkt.tha, hpkt.tpa,
    List.length_cons, List.length_nil, arpSize]
  omega

/-- What was packed is read back, each address with all the memory behind it. -/
theorem arpUnpack_arpPack {pkt : ArpPacket} (hpkt : pkt.WellFormed) {dataSize size : ℕ}
    (hsize : arpSize pkt ≤ dataSize) (hread : arpSize pkt ≤ size) (rest : List Byte) :
    arpUnpack (arpPack pkt dataSize ++ rest) size =
      some
        { pkt with
          sha := pkt.sha ++ (pkt.spa ++ (pkt.tha ++ (pkt.tpa ++ rest)))
          spa := pkt.spa ++ (pkt.tha ++ (pkt.tpa ++ rest))
          tha := pkt.tha ++ (pkt.tpa ++ rest)
          tpa := pkt.tpa ++ rest } := by
  have hmin : ¬ size < 8 := by
    simp only [arpSize] at hread
    omega
  let sha := pkt.sha ++ (pkt.spa ++ (pkt.tha ++ (pkt.tpa ++ rest)))
  have hmem : arpPack pkt dataSize ++ rest =
      bw16 pkt.hrd ++ (bw16 pkt.pro ++ ([pkt.hln, pkt.pln] ++ (bw16 pkt.op ++ sha))) := by
    rw [arpPack_eq hpkt hsize]
    simp [sha]
  have h2 : (bw16 pkt.hrd ++ (bw16 pkt.pro ++ ([pkt.hln, pkt.pln] ++
      (bw16 pkt.op ++ sha)))).drop 2 =
        bw16 pkt.pro ++ ([pkt.hln, pkt.pln] ++ (bw16 pkt.op ++ sha)) := rfl
  have h4 : (bw16 pkt.hrd ++ (bw16 pkt.pro ++ ([pkt.hln, pkt.pln] ++
      (bw16 pkt.op ++ sha)))).getD 4 0 = pkt.hln := rfl
  have h5 : (bw16 pkt.hrd ++ (bw16 pkt.pro ++ ([pkt.hln, pkt.pln] ++
      (bw16 pkt.op ++ sha)))).getD 5 0 = pkt.pln := rfl
  have h6 : (bw16 pkt.hrd ++ (bw16 pkt.pro ++ ([pkt.hln, pkt.pln] ++
      (bw16 pkt.op ++ sha)))).drop 6 = bw16 pkt.op ++ sha := rfl
  have h8 : (bw16 pkt.hrd ++ (bw16 pkt.pro ++ ([pkt.hln, pkt.pln] ++
      (bw16 pkt.op ++ sha)))).drop 8 = sha := rfl
  have hspa : sha.drop pkt.hln.toNat = pkt.spa ++ (pkt.tha ++ (pkt.tpa ++ rest)) :=
    List.drop_left' hpkt.sha
  have htha : (pkt.spa ++ (pkt.tha ++ (pkt.tpa ++ rest))).drop pkt.pln.toNat =
      pkt.tha ++ (pkt.tpa ++ rest) := List.drop_left' hpkt.spa
  have htpa : (pkt.tha ++ (pkt.tpa ++ rest)).drop pkt.hln.toNat = pkt.tpa ++ rest :=
    List.drop_left' hpkt.tha
  have hfits : ∀ pkt' : ArpPacket, pkt'.hln = pkt.hln → pkt'.pln = pkt.pln →
      ¬ size < arpSize pkt' := by
    intro pkt' hhln hpln
    simp only [arpSize, hhln, hpln] at hread ⊢
    omega
  rw [arpUnpack, if_neg hmin, hmem]
  simp only [h2, h4, h5, h6, h8, hspa, htha, htpa, br16_bw16_append]
  exact if_neg (hfits _ rfl rfl)

/-! ## The codec in both directions -/

/-- The return value of `arp_pack`: `data_size`, one byte, which takes on the size. -/
def arpPackSize (pkt : ArpPacket) (dataSize : UInt8) : ℕ :=
  if dataSize.toNat < arpSize pkt then 0 else (UInt8.ofNat (arpSize pkt)).toNat

/-- The size fits the byte where it fits the buffer. -/
theorem arpPackSize_eq {pkt : ArpPacket} {dataSize : UInt8} (hsize : arpSize pkt ≤ dataSize.toNat) :
    arpPackSize pkt dataSize = arpSize pkt := by
  have hlt := dataSize.toNat_lt
  rw [arpPackSize, if_neg (Nat.not_lt.2 hsize)]
  exact UInt8.toNat_ofNat_of_lt' (show arpSize pkt < 256 by omega)

/-- The four addresses point into the string, one behind the other, and none reaches past its
end. -/
structure SlicesInside (data : List Byte) (pkt : ArpPacket) : Prop where
  sha : pkt.sha = data.drop 8
  spa : pkt.spa = data.drop (8 + pkt.hln.toNat)
  tha : pkt.tha = data.drop (8 + pkt.hln.toNat + pkt.pln.toNat)
  tpa : pkt.tpa = data.drop (8 + pkt.hln.toNat + pkt.pln.toNat + pkt.hln.toNat)
  inside : 8 + pkt.hln.toNat + pkt.pln.toNat + pkt.hln.toNat + pkt.pln.toNat ≤ data.length

theorem arpUnpack_some {data : List Byte} {dataSize : ℕ} {pkt : ArpPacket}
    (h : arpUnpack data dataSize = some pkt) :
    arpSize pkt ≤ dataSize ∧ pkt.hrd = br16 data ∧ pkt.pro = br16 (data.drop 2) ∧
      pkt.hln = data.getD 4 0 ∧ pkt.pln = data.getD 5 0 ∧ pkt.op = br16 (data.drop 6) ∧
      pkt.sha = data.drop 8 ∧ pkt.spa = pkt.sha.drop pkt.hln.toNat ∧
      pkt.tha = pkt.spa.drop pkt.pln.toNat ∧ pkt.tpa = pkt.tha.drop pkt.hln.toNat := by
  unfold arpUnpack at h
  split at h
  · simp at h
  · dsimp only at h
    split at h
    · simp at h
    · next hfits =>
        simp only [Option.some.injEq] at h
        subst h
        exact ⟨Nat.not_lt.1 hfits, rfl, rfl, rfl, rfl, rfl, rfl, rfl, rfl, rfl⟩

theorem slicesInside_of_unpack {data : List Byte} {pkt : ArpPacket}
    (h : arpUnpack data data.length = some pkt) : SlicesInside data pkt := by
  obtain ⟨hsize, -, -, -, -, -, hsha, hspa, htha, htpa⟩ := arpUnpack_some h
  have hspa' : pkt.spa = data.drop (8 + pkt.hln.toNat) := by
    rw [hspa, hsha, List.drop_drop]
  have htha' : pkt.tha = data.drop (8 + pkt.hln.toNat + pkt.pln.toNat) := by
    rw [htha, hspa', List.drop_drop]
  have htpa' : pkt.tpa = data.drop (8 + pkt.hln.toNat + pkt.pln.toNat + pkt.hln.toNat) := by
    rw [htpa, htha', List.drop_drop]
  refine ⟨hsha, hspa', htha', htpa', ?_⟩
  simp only [arpSize] at hsize
  omega

/-- Two neighbouring pieces of a string. -/
theorem take_drop_append (data : List Byte) (i n m : ℕ) :
    (data.drop i).take n ++ (data.drop (i + n)).take m = (data.drop i).take (n + m) := by
  rw [List.take_add, List.drop_drop]

/-- The packet that was unpacked is packed to the bytes that it was unpacked from. -/
theorem arpPack_arpUnpack {data : List Byte} {pkt : ArpPacket}
    (h : arpUnpack data data.length = some pkt) {dataSize : ℕ} (hsize : arpSize pkt ≤ dataSize) :
    arpPack pkt dataSize = data.take (arpSize pkt) := by
  obtain ⟨-, hhrd, hpro, hhln, hpln, hop, -⟩ := arpUnpack_some h
  obtain ⟨hsha, hspa, htha, htpa, hinside⟩ := slicesInside_of_unpack h
  let hl := pkt.hln.toNat
  let pl := pkt.pln.toNat
  have hread : ∀ i n : ℕ, i + n ≤ data.length →
      memRead (data.drop i) n = (data.drop i).take n := by
    intro i n hin
    exact memRead_eq_take (by rw [List.length_drop]; omega)
  have hword : ∀ i : ℕ, i + 2 ≤ data.length →
      bw16 (br16 (data.drop i)) = (data.drop i).take 2 := by
    intro i hi
    exact bw16_br16 (by rw [List.length_drop]; omega)
  have hlengths : [pkt.hln, pkt.pln] = (data.drop 4).take 2 := by
    have h4 := getD_drop data 4 0
    have h5 := getD_drop data 4 1
    rw [hhln, hpln, ← h4, ← h5]
    match hd : data.drop 4, (by rw [List.length_drop]; omega : 2 ≤ (data.drop 4).length) with
    | _ :: _ :: _, _ =>
        rfl
  have h0 : bw16 pkt.hrd = (data.drop 0).take 2 := by
    rw [hhrd]
    exact hword 0 (by omega)
  -- the pieces of the fixed part, and those of the addresses, lie side by side
  have hfixed : (data.drop 0).take 2 ++ (data.drop 2).take 2 ++ (data.drop 4).take 2 ++
      (data.drop 6).take 2 = (data.drop 0).take 8 := by
    rw [take_drop_append data 0 2 2, take_drop_append data 0 4 2, take_drop_append data 0 6 2]
  have haddresses : (data.drop 8).take hl ++ (data.drop (8 + hl)).take pl ++
      (data.drop (8 + hl + pl)).take hl ++ (data.drop (8 + hl + pl + hl)).take pl =
        (data.drop 8).take (hl + pl + hl + pl) := by
    rw [take_drop_append, Nat.add_assoc 8, take_drop_append, Nat.add_assoc 8, take_drop_append]
  have htotal : 8 + (hl + pl + hl + pl) = arpSize pkt := by
    simp only [arpSize, hl, pl]
    omega
  rw [arpPack, if_neg (Nat.not_lt.2 hsize), hsha, hspa, htha, htpa, h0, hpro, hword 2 (by omega),
    hlengths, hop, hword 6 (by omega), hread _ _ (by omega), hread _ _ (by omega),
    hread _ _ (by omega), hread _ _ (by omega)]
  calc
    _ = (data.drop 0).take 8 ++ ((data.drop 8).take hl ++ (data.drop (8 + hl)).take pl ++
          (data.drop (8 + hl + pl)).take hl ++ (data.drop (8 + hl + pl + hl)).take pl) := by
        rw [← hfixed]
        simp only [List.append_assoc, hl, pl]
    _ = data.take (arpSize pkt) := by
        rw [haddresses, take_drop_append data 0 8, htotal, List.drop_zero]

/-- The codec undoes itself: a packet that fits is packed to its size and read back with every field
and address, one that does not fit is not written at all; and a string that is accepted holds the
four addresses and is what its packet is packed to. -/
theorem arpCodec :
    (∀ (pkt : ArpPacket) (dataSize : UInt8), pkt.WellFormed → arpSize pkt ≤ dataSize.toNat →
      arpPackSize pkt dataSize = arpSize pkt ∧
      (arpPack pkt dataSize.toNat).length = arpSize pkt ∧
      ∃ read, arpUnpack (arpPack pkt dataSize.toNat) (arpPackSize pkt dataSize) = some read ∧
        read.trim = pkt) ∧
    (∀ (pkt : ArpPacket) (dataSize : UInt8), dataSize.toNat < arpSize pkt →
      arpPackSize pkt dataSize = 0 ∧ arpPack pkt dataSize.toNat = []) ∧
    (∀ (data : List Byte) (pkt : ArpPacket), data.length ≤ 255 →
      arpUnpack data (UInt8.ofNat data.length).toNat = some pkt →
      SlicesInside data pkt ∧
      ∀ dataSize : UInt8, arpSize pkt ≤ dataSize.toNat →
        arpPackSize pkt dataSize = arpSize pkt ∧
        arpPack pkt dataSize.toNat = data.take (arpSize pkt)) := by
  refine ⟨?_, ?_, ?_⟩
  · intro pkt dataSize hpkt hsize
    have hread := arpUnpack_arpPack hpkt hsize (Nat.le_refl (arpSize pkt)) []
    rw [List.append_nil] at hread
    rw [arpPackSize_eq hsize]
    refine ⟨rfl, length_arpPack hpkt hsize, _, hread, ?_⟩
    simp only [ArpPacket.trim, memRead_append_of_length hpkt.sha, memRead_append_of_length hpkt.spa,
      memRead_append_of_length hpkt.tha, memRead_append_of_length hpkt.tpa]
  · intro pkt dataSize hsize
    exact ⟨if_pos hsize, if_pos hsize⟩
  · intro data pkt hlen h
    have hsize : (UInt8.ofNat data.length).toNat = data.length :=
      UInt8.toNat_ofNat_of_lt' (show data.length < 256 by omega)
    rw [hsize] at h
    exact ⟨slicesInside_of_unpack h,
      fun dataSize hfits => ⟨arpPackSize_eq hfits, arpPack_arpUnpack h hfits⟩⟩

/-- A request for an address on the Ethernet. -/
def samplePacket : ArpPacket :=
  { hrd := 1, pro := 0x0800, hln := 6, pln := 4, op := arpOpReq, sha := [2, 0, 0, 0, 0, 1],
    spa := [192, 168, 1, 1], tha := [0, 0, 0, 0, 0, 0], tpa := [192, 168, 1, 2] }

theorem arpCodec_sample :
    (∃ read, arpUnpack (arpPack samplePacket 32) 28 = some read ∧ read.trim = samplePacket ∧
      arpPack read 28 = (arpPack samplePacket 32).take (arpSize read)) ∧
    arpPackSize samplePacket 27 = 0 := by
  obtain ⟨hfits, hshort, hback⟩ := arpCodec
  obtain ⟨-, -, read, hread, htrim⟩ := hfits samplePacket 32 ⟨rfl, rfl, rfl, rfl⟩ (by decide)
  have hsize : arpPackSize samplePacket 32 = 28 := by decide
  have hlen : (UInt8.ofNat (arpPack samplePacket 32).length).toNat = 28 := by decide +kernel
  have h32 : (32 : UInt8).toNat = 32 := rfl
  rw [hsize, h32] at hread
  have hread' : arpUnpack (arpPack samplePacket 32)
      (UInt8.ofNat (arpPack samplePacket 32).length).toNat = some read := by
    rw [hlen]
    exact hread
  have hpacked := (hback (arpPack samplePacket 32) read (by decide +kernel) hread').2 28
    (arpUnpack_some hread).1
  exact ⟨⟨read, hread, htrim, hpacked.2⟩, (hshort samplePacket 27 (by decide)).1⟩

end Arp
end DtsNet
