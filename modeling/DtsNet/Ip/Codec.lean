import DtsNet.Ip.Input

/-!
# Codec — what `ip_header_unpack` makes of a packed header

`ip_header_pack` accepts as many bytes of options as the buffer holds, aligns the size only then,
and writes the size into four bits.  `ip_header_unpack` reads the word of the flags and the fragment
offset into the identification and sets neither of the two.
-/

namespace DtsNet
namespace Ip

open Dblk

/-! ## The first byte -/

/-- The version and the size in words are read back from the first byte, if four bits hold the
size. -/
theorem firstByte_read {words : ℕ} (h : words < 16) :
    BitVec.ofNat 4 ((UInt8.ofNat (words ||| (4 : BitVec 4).toNat <<< 4) &&& 0xF0) >>> 4).toNat = 4 ∧
      (BitVec.ofNat 4 (UInt8.ofNat (words ||| (4 : BitVec 4).toNat <<< 4) &&& 0x0F).toNat).toNat =
        words := by
  have hall : ∀ n : Fin 16,
      BitVec.ofNat 4 ((UInt8.ofNat (n.val ||| (4 : BitVec 4).toNat <<< 4) &&& 0xF0) >>> 4).toNat =
          4 ∧
        (BitVec.ofNat 4
          (UInt8.ofNat (n.val ||| (4 : BitVec 4).toNat <<< 4) &&& 0x0F).toNat).toNat = n.val := by
    decide
  exact hall ⟨words, h⟩

/-! ## Reading a header with options -/

/-- The fields that were read are those of a header of `size` bytes. -/
structure SameFields (hdr : Header) (size : ℕ) (read : Header) : Prop where
  version : read.version = hdr.version
  ihl : read.ihl.toNat = size / 4
  typeOfService : read.typeOfService = hdr.typeOfService
  totalLength : read.totalLength = hdr.totalLength
  identification : read.identification = hdr.identification
  flags : read.flags = hdr.flags
  fragmentOffset : read.fragmentOffset = hdr.fragmentOffset
  timeToLive : read.timeToLive = hdr.timeToLive
  protocol : read.protocol = hdr.protocol
  checksum : read.checksum = hdr.checksum
  src : read.src.addr = hdr.src.addr
  dest : read.dest.addr = hdr.dest.addr

/-- What is really read: the word of the flags as the identification, and the flags and the offset
as they were before. -/
def misread (hdr before : Header) : Header :=
  { hdr with
    identification := flagsWord hdr
    flags := before.flags
    fragmentOffset := before.fragmentOffset }

theorem sameFields_misread_iff {hdr before read : Header} {size : ℕ}
    (h : SameFields (misread hdr before) size read) :
    SameFields hdr size read ↔
      hdr.identification = flagsWord hdr ∧ before.flags = hdr.flags ∧
        before.fragmentOffset = hdr.fragmentOffset := by
  constructor
  · intro hsame
    exact ⟨hsame.identification.symm.trans h.identification,
      h.flags.symm.trans hsame.flags, h.fragmentOffset.symm.trans hsame.fragmentOffset⟩
  · rintro ⟨hident, hflags, hoffset⟩
    exact
      { h with
        identification := h.identification.trans hident.symm
        flags := h.flags.trans hflags
        fragmentOffset := h.fragmentOffset.trans hoffset }

/-- A packed header of at most 60 bytes is read, whatever follows it. -/
theorem ipHeaderUnpack_packed {hdr : Header} (hver : hdr.version = 4) {size : ℕ}
    (hlow : 20 ≤ size) (hhigh : size ≤ 60) (hmod : size % 4 = 0) (sum : UInt16)
    (options payload : List Byte) (before : Header) :
    ∃ read, ipHeaderUnpack before
        (headerFront hdr size ++ bw16 sum ++
          (hdr.src.addr.bytes ++ hdr.dest.addr.bytes ++ options) ++ payload)
        (size + payload.length) = some read ∧
      SameFields (misread { hdr with checksum := sum } before) size read := by
  let mem := headerFront hdr size ++ (bw16 sum ++
    (hdr.src.addr.bytes ++ (hdr.dest.addr.bytes ++ (options ++ payload))))
  have hmem : headerFront hdr size ++ bw16 sum ++
      (hdr.src.addr.bytes ++ hdr.dest.addr.bytes ++ options) ++ payload = mem := by
    simp only [mem, List.append_assoc]
  have hfirst : mem.getD 0 0 = UInt8.ofNat (size / 4 ||| (4 : BitVec 4).toNat <<< 4) := by
    rw [← hver]
    rfl
  obtain ⟨hversion, hihl⟩ := firstByte_read (by omega : size / 4 < 16)
  have htotal : br16 (mem.drop 2) = hdr.totalLength := br16_drop_two hdr size _
  have hsix : br16 (mem.drop 6) = flagsWord hdr := br16_drop_six hdr size _
  have hsum : br16 (mem.drop 10) = sum := br16_bw16_append sum _
  have hsrc : V4.ofMem (mem.drop 12) = hdr.src.addr := rfl
  have hdest : V4.ofMem (mem.drop 16) = hdr.dest.addr := rfl
  have hnot : ¬ size + payload.length < 20 := by omega
  have hnot' : ¬ size + payload.length < size / 4 * 4 := by omega
  rw [hmem]
  simp only [ipHeaderUnpack, hfirst, hversion, hihl, if_neg hnot, if_neg hnot', htotal, hsix, hsum,
    hsrc, hdest, if_true]
  refine ⟨_, rfl, ?_⟩
  -- the fields of the options are not among those compared
  split <;>
    exact ⟨hver.symm, hihl, rfl, rfl, rfl, rfl, rfl, rfl, rfl, rfl, rfl, rfl⟩

/-! ## The packed header -/

/-- The bytes of a packed header for version 4, with the options behind the addresses. -/
theorem ipHeaderPack_bytes {hdr : Header} (hver : hdr.version = 4) {bufSize : ℕ}
    (h : hdr.optionSize.toNat + 20 ≤ bufSize) :
    ∃ (sum : UInt16) (options : List Byte),
      let size := headerSize hdr.optionSize.toNat
      let packed := { withHeaderSize hdr with checksum := sum }
      options.length = size - 20 ∧
      ipHeaderPack hdr bufSize =
        (packed, headerFront packed size ++ bw16 sum ++
          (packed.src.addr.bytes ++ packed.dest.addr.bytes ++ options)) := by
  obtain ⟨sum, -, hpack⟩ := ipHeaderPack_eq h
  obtain ⟨-, hlow, -⟩ := headerSize_spec hdr.optionSize.toNat
  let size := headerSize hdr.optionSize.toNat
  let addresses := hdr.src.addr.bytes ++ hdr.dest.addr.bytes
  have hlen : addresses.length = 8 := rfl
  have hsize : 20 ≤ size := by
    simp only [size]
    omega
  have hrest : memRead (headerRest hdr) (size - 12) =
      addresses ++ memRead (memRead hdr.options hdr.optionSize.toNat) (size - 12 - 8) := by
    rw [headerRest, addressBytes, if_pos hver, memRead_append_right (by rw [hlen]; omega), hlen]
  refine ⟨sum, memRead (memRead hdr.options hdr.optionSize.toNat) (size - 12 - 8), ?_, ?_⟩
  · rw [length_memRead]
    omega
  · refine hpack.trans ?_
    rw [hrest]
    rfl

/-- The size of a packed header is the one returned. -/
theorem length_ipHeaderPack {hdr : Header} (hver : hdr.version = 4) {bufSize : ℕ}
    (h : hdr.optionSize.toNat + 20 ≤ bufSize) :
    (ipHeaderPack hdr bufSize).2.length = headerSize hdr.optionSize.toNat := by
  obtain ⟨sum, options, hoptions, hpack⟩ := ipHeaderPack_bytes hver h
  have hlow := (headerSize_spec hdr.optionSize.toNat).2.1
  rw [hpack]
  simp only [List.length_append, length_headerFront, length_bw16, V4.length_bytes, hoptions]
  omega

/-- The header that `ip_header_pack` leaves is undone: its size is sound, it verifies, and
`ip_header_unpack` reads every field back into a record that held `before`. -/
structure Undone (hdr : Header) (bufSize : ℕ) (before : Header) (payload : List Byte) : Prop where
  size_mod : (ipHeaderPack hdr bufSize).2.length % 4 = 0
  size_low : 20 ≤ (ipHeaderPack hdr bufSize).2.length
  size_high : (ipHeaderPack hdr bufSize).2.length ≤ 60
  size_fits : (ipHeaderPack hdr bufSize).2.length ≤ bufSize
  verifies : checksum (ipHeaderPack hdr bufSize).2 (ipHeaderPack hdr bufSize).2.length = 0
  decoded : ∃ read, ipHeaderUnpack before ((ipHeaderPack hdr bufSize).2 ++ payload)
      ((ipHeaderPack hdr bufSize).2.length + payload.length) = some read ∧
    SameFields (ipHeaderPack hdr bufSize).1 (ipHeaderPack hdr bufSize).2.length read

/-- The fields of the packed header are read, but for the three of the second word. -/
theorem misread_ipHeaderPack {hdr : Header} (hver : hdr.version = 4) {bufSize : ℕ}
    (h : hdr.optionSize.toNat + 20 ≤ bufSize) (hoptions : hdr.optionSize.toNat ≤ 40)
    (before : Header) (payload : List Byte) :
    ∃ read, ipHeaderUnpack before ((ipHeaderPack hdr bufSize).2 ++ payload)
        ((ipHeaderPack hdr bufSize).2.length + payload.length) = some read ∧
      SameFields (misread (ipHeaderPack hdr bufSize).1 before)
        (ipHeaderPack hdr bufSize).2.length read := by
  have hlen := length_ipHeaderPack hver h
  obtain ⟨sum, options, -, hpack⟩ := ipHeaderPack_bytes hver h
  obtain ⟨hmod, hlow, hhigh⟩ := headerSize_spec hdr.optionSize.toNat
  let packed : Header := { withHeaderSize hdr with checksum := sum }
  have hver' : packed.version = 4 := hver
  have hread := ipHeaderUnpack_packed hver' (by omega) (by omega) hmod sum options payload before
  rw [hlen, hpack]
  exact hread

/-- What was packed is undone if and only if the options are at most 40 bytes, the aligned header
fits the buffer, the identification happens to be the word of the flags and the fragment offset, and
the record read into already held these flags and this offset. -/
theorem undone_iff {hdr : Header} (hver : hdr.version = 4) {bufSize : ℕ}
    (h : hdr.optionSize.toNat + 20 ≤ bufSize) (before : Header) (payload : List Byte) :
    Undone hdr bufSize before payload ↔
      hdr.optionSize.toNat ≤ 40 ∧ headerSize hdr.optionSize.toNat ≤ bufSize ∧
        hdr.identification = flagsWord hdr ∧ before.flags = hdr.flags ∧
        before.fragmentOffset = hdr.fragmentOffset := by
  have hlen := length_ipHeaderPack hver h
  obtain ⟨hmod, hlow, hhigh⟩ := headerSize_spec hdr.optionSize.toNat
  have hkept : ∀ read, SameFields (misread (ipHeaderPack hdr bufSize).1 before)
        (ipHeaderPack hdr bufSize).2.length read →
      (SameFields (ipHeaderPack hdr bufSize).1 (ipHeaderPack hdr bufSize).2.length read ↔
        hdr.identification = flagsWord hdr ∧ before.flags = hdr.flags ∧
          before.fragmentOffset = hdr.fragmentOffset) := by
    intro read hread
    rw [sameFields_misread_iff hread]
    -- packing touches none of the three fields
    obtain ⟨sum, options, -, hpack⟩ := ipHeaderPack_bytes hver h
    rw [hpack]
    rfl
  constructor
  · intro hundone
    have hhigh60 := hundone.size_high
    have hfits := hundone.size_fits
    rw [hlen] at hhigh60 hfits
    have hoptions : hdr.optionSize.toNat ≤ 40 := by omega
    obtain ⟨read, hread, hsame⟩ := hundone.decoded
    obtain ⟨read', hread', hmis⟩ := misread_ipHeaderPack hver h hoptions before payload
    have heq : read' = read := Option.some.inj (hread'.symm.trans hread)
    rw [heq] at hmis
    exact ⟨hoptions, hfits, (hkept read hmis).1 hsame⟩
  · rintro ⟨hoptions, hfits, hfields⟩
    obtain ⟨read, hread, hmis⟩ := misread_ipHeaderPack hver h hoptions before payload
    exact
      { size_mod := by rw [hlen]; exact hmod
        size_low := by omega
        size_high := by omega
        size_fits := by rw [hlen]; exact hfits
        verifies := checksum_ipHeaderPack h
        decoded := ⟨read, hread, (hkept read hmis).2 hfields⟩ }

/-- A header with an identification of 7 and 9 bytes of options. -/
def identifiedHeader : Header :=
  { Header.zero with
    version := 4
    identification := 7
    optionSize := 9 }

theorem undone_iff_sample :
    Undone { identifiedHeader with identification := 0 } 32 Header.zero [1, 2, 3] :=
  (undone_iff (by decide) (by decide) Header.zero [1, 2, 3]).2 (by decide)

/-- The identification is lost, and options of 41 bytes make a header of more than 60 bytes. -/
theorem undone_fails_sample :
    ¬ ∀ (hdr : Header) (bufSize : ℕ) (before : Header) (payload : List Byte), hdr.version = 4 →
      0 < (ipHeaderPack hdr bufSize).2.length → Undone hdr bufSize before payload := by
  intro h
  have hundone := h identifiedHeader 64 Header.zero [] (by decide) (by decide +kernel)
  obtain ⟨read, hread, hsame⟩ := hundone.decoded
  have hlost : ∀ r, ipHeaderUnpack Header.zero ((ipHeaderPack identifiedHeader 64).2 ++ [])
      ((ipHeaderPack identifiedHeader 64).2.length + ([] : List Byte).length) = some r →
      r.identification = 0 := by
    intro r hr
    have hval : (ipHeaderUnpack Header.zero ((ipHeaderPack identifiedHeader 64).2 ++ [])
        ((ipHeaderPack identifiedHeader 64).2.length + ([] : List Byte).length)).map
          Header.identification = some 0 := by
      decide +kernel
    rw [hr] at hval
    exact Option.some.inj hval
  have hident := hsame.identification
  rw [hlost read hread] at hident
  revert hident
  decide +kernel

end Ip
end DtsNet
