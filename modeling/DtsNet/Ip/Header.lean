import DtsNet.Checksum
import DtsNet.Ip

/-!
# Header — the IP header

`ip_header_pack` and `ip_header_unpack`, and the fields of a header on the wire.
-/

namespace DtsNet
namespace Ip

open Dblk

/-! ## The header record -/

/-- An `ip_header_t`, with the widths of its bit fields; `options` is the memory behind the options
pointer. -/
structure Header where
  version : BitVec 4
  ihl : BitVec 4
  typeOfService : UInt8
  totalLength : UInt16
  identification : UInt16
  flags : BitVec 3
  fragmentOffset : BitVec 13
  timeToLive : UInt8
  protocol : UInt8
  checksum : UInt16
  src : IpAddr
  dest : IpAddr
  options : List Byte
  optionSize : UInt8
  deriving DecidableEq, Repr

def V4.bytes (a : V4) : List Byte :=
  [a.a1, a.a2, a.a3, a.a4]

/-- The address in the first four bytes of the memory. -/
def V4.ofMem (mem : List Byte) : V4 :=
  ⟨mem.getD 0 0, mem.getD 1 0, mem.getD 2 0, mem.getD 3 0⟩

@[simp] theorem V4.length_bytes (a : V4) : a.bytes.length = 4 := rfl

@[simp] theorem V4.ofMem_bytes (a : V4) (rest : List Byte) : V4.ofMem (a.bytes ++ rest) = a := rfl

/-! ## `ip_header_pack` -/

/-- The header size for so many bytes of options, 32-bit aligned. -/
def headerSize (optionSize : ℕ) : ℕ :=
  let size := optionSize + 20
  if size &&& 0x03 ≠ 0 then size - (size &&& 0x03) + 4 else size

/-- The addresses are written for version 4 only, and the options follow at once. -/
def addressBytes (hdr : Header) : List Byte :=
  if hdr.version = 4 then hdr.src.addr.bytes ++ hdr.dest.addr.bytes else []

/-- The fields before the checksum. -/
def headerFront (hdr : Header) (size : ℕ) : List Byte :=
  [UInt8.ofNat (size / 4 ||| hdr.version.toNat <<< 4), hdr.typeOfService] ++
    bw16 hdr.totalLength ++ bw16 hdr.identification ++
    bw16 (UInt16.ofNat (hdr.flags.toNat <<< 13 ||| hdr.fragmentOffset.toNat)) ++
    [hdr.timeToLive, hdr.protocol]

/-- The fields behind the checksum. -/
def headerRest (hdr : Header) : List Byte :=
  addressBytes hdr ++ memRead hdr.options hdr.optionSize.toNat

/-- The fields as they are written, into memory that was cleared for `size` bytes. -/
def headerBytes (hdr : Header) (size : ℕ) : List Byte :=
  memRead (headerFront hdr size ++ bw16 hdr.checksum ++ headerRest hdr) size

/-- The header as it is left, and the bytes written into a buffer of `bufSize` bytes: none if they
do not fit.  `total_length` contains the length of the data, and gets the header size added. -/
def ipHeaderPack (hdr : Header) (bufSize : ℕ) : Header × List Byte :=
  if bufSize < hdr.optionSize.toNat + 20 then
    (hdr, [])
  else
    let size := headerSize hdr.optionSize.toNat
    let hdr :=
      { hdr with
        totalLength := hdr.totalLength + UInt16.ofNat size
        checksum := 0 }
    let data := headerBytes hdr size
    let hdr := { hdr with checksum := checksum data size }
    (hdr, memWriteAt data 10 (bw16 hdr.checksum))

/-! ## `ip_header_unpack` -/

/-- Reads the header of `size` bytes of raw data into `hdr`; the fields it does not set keep what
they held. -/
def ipHeaderUnpack (hdr : Header) (data : List Byte) (size : ℕ) : Option Header :=
  let version := BitVec.ofNat 4 (((data.getD 0 0) &&& 0xF0) >>> 4).toNat
  let ihl := BitVec.ofNat 4 ((data.getD 0 0) &&& 0x0F).toNat
  if size < 20 then
    none
  else if size < ihl.toNat * 4 then
    none
  else
    let hdr :=
      { hdr with
        version := version
        ihl := ihl
        typeOfService := data.getD 1 0
        totalLength := br16 (data.drop 2)
        identification := br16 (data.drop 4) }
    let hdr :=
      { hdr with
        identification := br16 (data.drop 6)
        timeToLive := data.getD 8 0
        protocol := data.getD 9 0
        checksum := br16 (data.drop 10) }
    let hdr :=
      { hdr with
        src := { hdr.src with version := UInt8.ofNat hdr.version.toNat }
        dest := { hdr.dest with version := UInt8.ofNat hdr.version.toNat } }
    let hdr :=
      if hdr.version = 4 then
        { hdr with
          src := { hdr.src with addr := V4.ofMem (data.drop 12) }
          dest := { hdr.dest with addr := V4.ofMem (data.drop 16) } }
      else
        hdr
    some (if size = 20 then { hdr with options := [], optionSize := 0 } else hdr)

/-! ## The size of a packed header -/

theorem headerSize_spec (n : ℕ) : headerSize n % 4 = 0 ∧ n + 20 ≤ headerSize n ∧
    headerSize n < n + 24 := by
  have hand : ∀ k : ℕ, k &&& 3 = k % 4 := fun k => Nat.and_two_pow_sub_one_eq_mod k 2
  simp only [headerSize, hand]
  split <;> omega

@[simp] theorem headerSize_zero : headerSize 0 = 20 := rfl

@[simp] theorem length_headerFront (hdr : Header) (size : ℕ) :
    (headerFront hdr size).length = 10 := rfl

theorem headerBytes_eq (hdr : Header) {size : ℕ} (h : 12 ≤ size) :
    headerBytes hdr size =
      headerFront hdr size ++ bw16 hdr.checksum ++ memRead (headerRest hdr) (size - 12) := by
  have hlen : (headerFront hdr size ++ bw16 hdr.checksum).length = 12 := rfl
  rw [headerBytes, memRead_append_right (by rw [hlen]; exact h), hlen]

/-- The header with the total length that is written. -/
def withHeaderSize (hdr : Header) : Header :=
  { hdr with totalLength := hdr.totalLength + UInt16.ofNat (headerSize hdr.optionSize.toNat) }

/-- The packed header: the checksum is that of the other fields, with zero in its place. -/
theorem ipHeaderPack_eq {hdr : Header} {bufSize : ℕ} (h : hdr.optionSize.toNat + 20 ≤ bufSize) :
    ∃ sum : UInt16,
      let size := headerSize hdr.optionSize.toNat
      let front := headerFront (withHeaderSize hdr) size
      let rest := memRead (headerRest hdr) (size - 12)
      sum = checksum (front ++ [0, 0] ++ rest) size ∧
      ipHeaderPack hdr bufSize =
        ({ withHeaderSize hdr with checksum := sum }, front ++ bw16 sum ++ rest) := by
  have hsize := (headerSize_spec hdr.optionSize.toNat).2.1
  have hbuf : ¬ bufSize < hdr.optionSize.toNat + 20 := by omega
  have hzero : bw16 0 = [0, 0] := by decide
  have hdata : headerBytes { withHeaderSize hdr with checksum := 0 }
      (headerSize hdr.optionSize.toNat) =
        headerFront (withHeaderSize hdr) (headerSize hdr.optionSize.toNat) ++ [0, 0] ++
          memRead (headerRest hdr) (headerSize hdr.optionSize.toNat - 12) := by
    rw [← hzero]
    exact headerBytes_eq _ (by omega)
  have hpack : ∀ data,
      headerBytes { withHeaderSize hdr with checksum := 0 }
        (headerSize hdr.optionSize.toNat) = data →
      ipHeaderPack hdr bufSize =
        ({ withHeaderSize hdr with checksum := checksum data (headerSize hdr.optionSize.toNat) },
          memWriteAt data 10 (bw16 (checksum data (headerSize hdr.optionSize.toNat)))) := by
    rintro data rfl
    rw [ipHeaderPack, if_neg hbuf]
    rfl
  refine ⟨_, rfl, (hpack _ hdata).trans ?_⟩
  exact congrArg (Prod.mk _) (memWriteAt_append rfl)

/-- A packed header verifies. -/
theorem checksum_ipHeaderPack {hdr : Header} {bufSize : ℕ}
    (h : hdr.optionSize.toNat + 20 ≤ bufSize) :
    checksum (ipHeaderPack hdr bufSize).2 (ipHeaderPack hdr bufSize).2.length = 0 := by
  obtain ⟨sum, hsum, hpack⟩ := ipHeaderPack_eq h
  obtain ⟨hmod, hlow, hhigh⟩ := headerSize_spec hdr.optionSize.toNat
  have hopt := hdr.optionSize.toNat_lt
  simp only [hpack]
  have hlen : (headerFront (withHeaderSize hdr) (headerSize hdr.optionSize.toNat) ++ bw16 sum ++
      memRead (headerRest hdr) (headerSize hdr.optionSize.toNat - 12)).length =
        headerSize hdr.optionSize.toNat := by
    simp only [List.length_append, length_headerFront, length_bw16, length_memRead]
    omega
  rw [hlen, hsum]
  refine checksum_filled (n := headerSize hdr.optionSize.toNat - 12) ?_ ?_ ?_
  · rw [length_headerFront]
  · rw [length_headerFront]
    omega
  · omega

/-! ## Reading a packed header -/

/-- The word of the flags and the fragment offset. -/
def flagsWord (hdr : Header) : UInt16 :=
  UInt16.ofNat (hdr.flags.toNat <<< 13 ||| hdr.fragmentOffset.toNat)

theorem toNat_flagsWord (hdr : Header) :
    (flagsWord hdr).toNat = hdr.flags.toNat * 8192 + hdr.fragmentOffset.toNat := by
  have hflags : hdr.flags.toNat < 8 := hdr.flags.isLt
  have hoff : hdr.fragmentOffset.toNat < 2 ^ 13 := hdr.fragmentOffset.isLt
  have hor : hdr.flags.toNat <<< 13 ||| hdr.fragmentOffset.toNat =
      hdr.flags.toNat * 8192 + hdr.fragmentOffset.toNat := by
    rw [← Nat.shiftLeft_add_eq_or_of_lt hoff, Nat.shiftLeft_eq]
  rw [flagsWord, hor]
  exact UInt16.toNat_ofNat_of_lt' (show _ < 65536 by omega)

section Fields

variable (hdr : Header) (size : ℕ) (rest : List Byte)

theorem br16_drop_two : br16 ((headerFront hdr size ++ rest).drop 2) = hdr.totalLength :=
  br16_bw16_append hdr.totalLength
    (bw16 hdr.identification ++ bw16 (flagsWord hdr) ++ [hdr.timeToLive, hdr.protocol] ++ rest)

theorem br16_drop_four : br16 ((headerFront hdr size ++ rest).drop 4) = hdr.identification :=
  br16_bw16_append hdr.identification
    (bw16 (flagsWord hdr) ++ [hdr.timeToLive, hdr.protocol] ++ rest)

theorem br16_drop_six : br16 ((headerFront hdr size ++ rest).drop 6) = flagsWord hdr :=
  br16_bw16_append (flagsWord hdr) ([hdr.timeToLive, hdr.protocol] ++ rest)

end Fields

end Ip
end DtsNet
