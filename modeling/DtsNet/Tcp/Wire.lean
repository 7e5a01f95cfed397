import DtsNet.Tcp.Segment
import DtsNet.Udp.Datagram

/-!
# Wire — TCP segments in memory

`tcp_pack` and `tcp_unpack` on the bytes.  What the rest of the model records of a packed segment,
its fields, is what these two carry over the wire, if the payload fits a datagram and the byte
behind a payload of odd size is the same on both sides.  `tcp_unpack` takes the place of the
payload from the header and does not compare it with the size of the segment.
-/

namespace DtsNet
namespace Tcp

open Ip Dblk

/-! ## `tcp_unpack` -/

/-- A `tcp_segment_t` that was received.  The two nodes that are laid over the raw data are given by
the memory they point to and their 16-bit sizes. -/
structure TcpSegment where
  srcPort : UInt16
  destPort : UInt16
  seq : UInt32
  ack : UInt32
  dataOffset : UInt16
  flags : UInt16
  win : UInt16
  checksum : UInt16
  urgentPtr : UInt16
  options : List Byte
  optionsSize : UInt16
  payload : List Byte
  payloadSize : UInt16
  deriving DecidableEq, Repr

/-- `data_offset`, from the upper four bits of byte 12. -/
def readDataOffset (rawData : List Byte) : UInt16 :=
  (br16 (rawData.drop 12) &&& 0xF000) >>> 12

/-- The segment's checksum is the one of its bytes and the pseudo header. -/
def checksumMatches (src dest : V4) (protocol : UInt8) (rawData : List Byte) (size : UInt16) :
    Bool :=
  let sum := checksumAccmulate 0 (Udp.pseudoHeaderPack src dest protocol size) 12
  let sum := checksumAccmulate sum (memWriteAt rawData 16 (bw16 0)) size.toNat
  br16 (rawData.drop 16) == checksumComplete sum

/-- `rawData` is the memory at the data pointer of the node, and `size` its size.  The nodes for
options and payload point into the memory whose checksum field has been cleared. -/
def tcpUnpack (src dest : V4) (protocol : UInt8) (rawData : List Byte) (size : UInt16) :
    Option TcpSegment :=
  if 20 ≤ size.toNat then
    let dataOffset := readDataOffset rawData
    let cleared := memWriteAt rawData 16 (bw16 0)
    let seg :=
      { srcPort := br16 rawData
        destPort := br16 (rawData.drop 2)
        seq := br32 (rawData.drop 4)
        ack := br32 (rawData.drop 8)
        dataOffset := dataOffset
        flags := br16 (rawData.drop 12) &&& 0x0FFF
        win := br16 (rawData.drop 14)
        checksum := br16 (rawData.drop 16)
        urgentPtr := br16 (rawData.drop 18)
        options := cleared.drop 20
        optionsSize := dataOffset * 4 - 20
        payload := cleared.drop (dataOffset * 4).toNat
        payloadSize := size - dataOffset * 4 }
    if checksumMatches src dest protocol rawData size then some seg else none
  else
    none

/-- The segment as the handlers see it. -/
def TcpSegment.received (seg : TcpSegment) (src : IpAddr) : Received :=
  { srcPort := seg.srcPort
    destPort := seg.destPort
    seq := seg.seq
    ack := seg.ack
    dataOffset := seg.dataOffset
    flags := seg.flags
    win := seg.win
    urgentPtr := seg.urgentPtr
    payload := memRead seg.payload seg.payloadSize.toNat
    src := src
    beyond := seg.payload.drop seg.payloadSize.toNat }

/-! ## Where options and payload lie -/

/-- The bytes `[i, j)` of a string. -/
def bytesBetween (string : List Byte) (i j : ℕ) : List Byte :=
  (string.take j).drop i

/-- Header, options and payload lie in the string one behind the other, and no length that the
handlers use is larger than the string. -/
structure WellLaidOut (string : List Byte) (seg : TcpSegment) : Prop where
  header : 20 ≤ 4 * seg.dataOffset.toNat
  offset : 4 * seg.dataOffset.toNat ≤ string.length
  options : memRead seg.options seg.optionsSize.toNat =
    bytesBetween string 20 (4 * seg.dataOffset.toNat)
  payload : memRead seg.payload seg.payloadSize.toNat =
    bytesBetween string (4 * seg.dataOffset.toNat) string.length
  length : ∀ src, tcpSegmentLength (seg.received src).toSegment ≤ string.length

/-- The header that byte 12 speaks of is at least the fixed one, and the string holds it. -/
def HeaderFits (rawData : List Byte) (size : UInt16) : Prop :=
  20 ≤ 4 * (readDataOffset rawData).toNat ∧ 4 * (readDataOffset rawData).toNat ≤ size.toNat

instance (rawData : List Byte) (size : UInt16) : Decidable (HeaderFits rawData size) :=
  inferInstanceAs (Decidable (_ ∧ _))

theorem tcpUnpack_eq_some_iff {src dest : V4} {protocol : UInt8} {rawData : List Byte}
    {size : UInt16} :
    (∃ seg, tcpUnpack src dest protocol rawData size = some seg) ↔
      20 ≤ size.toNat ∧ checksumMatches src dest protocol rawData size = true := by
  by_cases hsize : 20 ≤ size.toNat
  · cases h : checksumMatches src dest protocol rawData size <;> simp [tcpUnpack, hsize, h]
  · simp [tcpUnpack, hsize]

section Layout

variable {rawData string behind : List Byte} {size : UInt16}

theorem toNat_readDataOffset_lt (rawData : List Byte) : (readDataOffset rawData).toNat < 16 := by
  have hle : br16 (rawData.drop 12) &&& 0xF000 ≤ 0xF000 := UInt16.and_le_right
  have h12 : (12 : UInt16).toNat % 16 = 12 := rfl
  have hmask : (0xF000 : UInt16).toNat = 61440 := rfl
  rw [UInt16.le_iff_toNat_le, hmask] at hle
  rw [readDataOffset, UInt16.toNat_shiftRight, h12, Nat.shiftRight_eq_div_pow]
  omega

theorem toNat_readDataOffset_mul (rawData : List Byte) :
    (readDataOffset rawData * 4).toNat = 4 * (readDataOffset rawData).toNat := by
  have hlt := toNat_readDataOffset_lt rawData
  have h4 : (4 : UInt16).toNat = 4 := rfl
  rw [UInt16.toNat_mul, h4]
  omega

/-- Reading inside the string does not see what lies behind it, nor the cleared checksum. -/
theorem memRead_cleared {i n : ℕ} (hi : 18 ≤ i) (hn : i + n ≤ string.length) :
    memRead ((memWriteAt (string ++ behind) 16 (bw16 0)).drop i) n =
      bytesBetween string i (i + n) := by
  have hlen : n ≤ ((string ++ behind).drop i).length := by
    simp only [List.length_drop, List.length_append]
    omega
  rw [drop_memWriteAt (by simp only [List.length_append]; omega) (by rw [length_bw16]; omega),
    memRead_eq_take hlen, bytesBetween, List.drop_append_of_le_length (by omega),
    List.take_append_of_le_length (by simp only [List.length_drop]; omega), List.drop_take,
    Nat.add_sub_cancel_left]

theorem wellLaidOut_iff_headerFits {src dest : V4} {protocol : UInt8} {seg : TcpSegment}
    (hsize : string.length = size.toNat)
    (h : tcpUnpack src dest protocol (string ++ behind) size = some seg) :
    WellLaidOut string seg ↔ HeaderFits (string ++ behind) size := by
  have hok := tcpUnpack_eq_some_iff.1 ⟨seg, h⟩
  simp only [tcpUnpack, hok.1, hok.2, if_true, Option.some.injEq] at h
  have hoffset : seg.dataOffset = readDataOffset (string ++ behind) := by
    rw [← h]
  have hmul := toNat_readDataOffset_mul (string ++ behind)
  constructor
  · intro hlaid
    have hheader := hlaid.header
    have hfits := hlaid.offset
    rw [hoffset] at hheader hfits
    exact ⟨hheader, by omega⟩
  · rintro ⟨hheader, hfits⟩
    have hle : readDataOffset (string ++ behind) * 4 ≤ size := by
      rw [UInt16.le_iff_toNat_le]
      omega
    have hoptions : (readDataOffset (string ++ behind) * 4 - 20).toNat =
        4 * (readDataOffset (string ++ behind)).toNat - 20 := by
      have h20 : (20 : UInt16).toNat = 20 := rfl
      have hge : (20 : UInt16) ≤ readDataOffset (string ++ behind) * 4 := by
        rw [UInt16.le_iff_toNat_le]
        omega
      rw [UInt16.toNat_sub_of_le _ _ hge, h20, hmul]
    have hpayload : (size - readDataOffset (string ++ behind) * 4).toNat =
        string.length - 4 * (readDataOffset (string ++ behind)).toNat := by
      rw [UInt16.toNat_sub_of_le _ _ hle, hmul, hsize]
    subst h
    refine ⟨hheader, by rw [hsize]; exact hfits, ?_, ?_, ?_⟩
    · have hend : 20 + (4 * (readDataOffset (string ++ behind)).toNat - 20) =
          4 * (readDataOffset (string ++ behind)).toNat := by
        omega
      rw [hoptions, memRead_cleared (by omega) (by omega), hend]
    · have hend : 4 * (readDataOffset (string ++ behind)).toNat +
          (string.length - 4 * (readDataOffset (string ++ behind)).toNat) = string.length := by
        omega
      rw [hpayload, hmul, memRead_cleared (by omega) (by omega), hend]
    · intro src
      simp only [tcpSegmentLength, TcpSegment.received, length_memRead, hpayload]
      split <;> split <;> omega

end Layout

/-- For every string and every pseudo header: if `tcp_unpack` accepts the string, it is well laid
out, exactly if the header that byte 12 speaks of fits whenever the checks of the code pass. -/
theorem accepted_wellLaidOut_iff {src dest : V4} {protocol : UInt8} {string behind : List Byte}
    {size : UInt16} (hsize : string.length = size.toNat) :
    (∀ seg, tcpUnpack src dest protocol (string ++ behind) size = some seg →
        WellLaidOut string seg) ↔
      (20 ≤ size.toNat → checksumMatches src dest protocol (string ++ behind) size = true →
        HeaderFits (string ++ behind) size) := by
  constructor
  · intro h hlen hsum
    rcases tcpUnpack_eq_some_iff.2 ⟨hlen, hsum⟩ with ⟨seg, hseg⟩
    exact (wellLaidOut_iff_headerFits hsize hseg).1 (h seg hseg)
  · intro h seg hseg
    rcases tcpUnpack_eq_some_iff.1 ⟨seg, hseg⟩ with ⟨hlen, hsum⟩
    exact (wellLaidOut_iff_headerFits hsize hseg).2 (h hlen hsum)

/-- A bare acknowledgment, 20 bytes from 192.168.1.2 to 192.168.1.1, whose byte 12 is given. -/
def sampleString (offset : Byte) (checksum : UInt16) : List Byte :=
  bw16 80 ++ bw16 5000 ++ bw32 701 ++ bw32 101 ++ [offset, 0x10] ++ bw16 1500 ++ bw16 checksum ++
    bw16 0

theorem accepted_wellLaidOut_iff_sample :
    ∃ seg, tcpUnpack ⟨192, 168, 1, 2⟩ ⟨192, 168, 1, 1⟩ 6 (sampleString 0x50 4011 ++ []) 20 =
        some seg ∧ WellLaidOut (sampleString 0x50 4011) seg := by
  have hsize : (sampleString 0x50 4011).length = (20 : UInt16).toNat := by decide
  have hfits : HeaderFits (sampleString 0x50 4011 ++ []) 20 := by decide
  have hlaid : ∀ seg, tcpUnpack ⟨192, 168, 1, 2⟩ ⟨192, 168, 1, 1⟩ 6 (sampleString 0x50 4011 ++ []) 20 =
      some seg → WellLaidOut (sampleString 0x50 4011) seg :=
    (accepted_wellLaidOut_iff hsize).2 fun _ _ => hfits
  exact ⟨_, rfl, hlaid _ rfl⟩

/-- The same with an offset of 60 bytes and the checksum for it is accepted, with a payload of 65496
bytes. -/
theorem accepted_not_wellLaidOut_sample :
    ∃ seg, tcpUnpack ⟨192, 168, 1, 2⟩ ⟨192, 168, 1, 1⟩ 6 (sampleString 0xF0 28586 ++ []) 20 =
        some seg ∧ seg.payloadSize = 65496 ∧ ¬ WellLaidOut (sampleString 0xF0 28586) seg := by
  refine ⟨_, rfl, by decide, ?_⟩
  intro h
  exact absurd h.offset (by decide)

/-! ## `tcp_pack` -/

def tcpHeader (seg : Segment) (checksum : UInt16) : List Byte :=
  bw16 seg.srcPort ++ bw16 seg.destPort ++ bw32 seg.seq ++ bw32 seg.ack ++
    bw16 ((seg.dataOffset <<< 12) ||| seg.flags) ++ bw16 seg.win ++ bw16 checksum ++
    bw16 seg.urgentPtr

/-- `size` field of the node that holds the payload. -/
def payloadSize (seg : Segment) : UInt16 :=
  UInt16.ofNat seg.payload.length

/-- The 20 bytes that `tcp_pack` writes to the header buffer of a segment without options; `behind`
is what lies in memory behind the payload. -/
def tcpPackHeader (src dest : V4) (protocol : UInt8) (seg : Segment) (behind : List Byte) :
    List Byte :=
  let header := tcpHeader seg 0
  let length := 20 + payloadSize seg
  let sum := checksumAccmulate 0 (Udp.pseudoHeaderPack src dest protocol length) 12
  let sum := checksumAccmulate sum header 20
  let sum := checksumAccmulate sum (seg.payload ++ behind) (payloadSize seg).toNat
  memWriteAt header 16 (bw16 (checksumComplete sum))

section OffsetWord

variable {offset flags : UInt16}

/-- The word of the data offset and the flags. -/
theorem toNat_offsetWord (hoffset : offset.toNat ≤ 15) (h : flags < 0x1000) :
    ((offset <<< 12) ||| flags).toNat = offset.toNat * 4096 + flags.toNat := by
  have hlt : flags.toNat < 2 ^ 12 := UInt16.lt_iff_toNat_lt.1 h
  have h12 : (12 : UInt16).toNat % 16 = 12 := rfl
  have hshift : (offset <<< 12).toNat = offset.toNat <<< 12 := by
    rw [UInt16.toNat_shiftLeft, h12, Nat.shiftLeft_eq]
    omega
  rw [UInt16.toNat_or, hshift, ← Nat.shiftLeft_add_eq_or_of_lt hlt, Nat.shiftLeft_eq]

theorem offset_of_offsetWord (hoffset : offset.toNat ≤ 15) (h : flags < 0x1000) :
    (((offset <<< 12) ||| flags) &&& 0xF000) >>> 12 = offset := by
  have hlt : flags.toNat < 4096 := UInt16.lt_iff_toNat_lt.1 h
  have hmask : (0xF000 : UInt16).toNat >>> 12 = 15 := rfl
  have h12 : (12 : UInt16).toNat % 16 = 12 := rfl
  have hand : ∀ n : ℕ, n &&& 15 = n % 16 := fun n => Nat.and_two_pow_sub_one_eq_mod n 4
  rw [← UInt16.toNat_inj, UInt16.toNat_shiftRight, UInt16.toNat_and, h12,
    Nat.shiftRight_and_distrib, hmask, hand, toNat_offsetWord hoffset h,
    Nat.shiftRight_eq_div_pow]
  omega

theorem flags_of_offsetWord (hoffset : offset.toNat ≤ 15) (h : flags < 0x1000) :
    ((offset <<< 12) ||| flags) &&& 0x0FFF = flags := by
  have hlt : flags.toNat < 4096 := UInt16.lt_iff_toNat_lt.1 h
  have hmask : (0x0FFF : UInt16).toNat = 4095 := rfl
  have hand : ∀ n : ℕ, n &&& 4095 = n % 4096 := fun n => Nat.and_two_pow_sub_one_eq_mod n 12
  rw [← UInt16.toNat_inj, UInt16.toNat_and, hmask, hand, toNat_offsetWord hoffset h]
  omega

end OffsetWord

theorem toNat_payloadSize {seg : Segment} (h : seg.payload.length ≤ 65515) :
    (payloadSize seg).toNat = seg.payload.length :=
  UInt16.toNat_ofNat_of_lt' (show _ < 65536 by omega)

section Pack

variable (src dest : V4) (protocol : UInt8) (seg : Segment)

/-- The sum over the pieces of a segment without its checksum. -/
def segmentSum (behind : List Byte) : ℕ :=
  wordSum (Udp.pseudoHeaderPack src dest protocol (20 + payloadSize seg)) +
    wordSum (tcpHeader seg 0) +
    wordSum (coveredBytes (seg.payload ++ behind) (payloadSize seg).toNat)

theorem length_tcpHeader (checksum : UInt16) : (tcpHeader seg checksum).length = 20 := rfl

theorem wordSum_tcpHeader_le (checksum : UInt16) : wordSum (tcpHeader seg checksum) ≤ 65535 * 10 := by
  have h := wordSum_le (tcpHeader seg checksum)
  rw [length_tcpHeader, wordCount] at h
  omega

theorem coveredBytes_tcpHeader (checksum : UInt16) :
    coveredBytes (tcpHeader seg checksum) 20 = tcpHeader seg checksum :=
  coveredBytes_of_even (by rw [length_tcpHeader])

theorem toNat_payloadSize_le : (payloadSize seg).toNat ≤ 65535 :=
  Nat.le_of_lt_succ (payloadSize seg).toNat_lt

theorem accmulate_pseudoHeader (length : UInt16) :
    checksumAccmulate 0 (Udp.pseudoHeaderPack src dest protocol length) 12 =
      wordSum (Udp.pseudoHeaderPack src dest protocol length) := by
  rw [checksumAccmulate_eq (by omega) (by omega), Udp.coveredBytes_pseudoHeader, Nat.zero_add]

theorem tcpPackHeader_eq (behind : List Byte) :
    tcpPackHeader src dest protocol seg behind =
      tcpHeader seg (checksumComplete (segmentSum src dest protocol seg behind)) := by
  have hpsd := Udp.wordSum_pseudoHeader_le src dest protocol (20 + payloadSize seg)
  have hhdr := wordSum_tcpHeader_le seg 0
  have hsum : checksumAccmulate
      (checksumAccmulate
        (checksumAccmulate 0 (Udp.pseudoHeaderPack src dest protocol (20 + payloadSize seg)) 12)
        (tcpHeader seg 0) 20)
      (seg.payload ++ behind) (payloadSize seg).toNat = segmentSum src dest protocol seg behind := by
    have hfront : checksumAccmulate
        (checksumAccmulate 0 (Udp.pseudoHeaderPack src dest protocol (20 + payloadSize seg)) 12)
        (tcpHeader seg 0) 20 =
          wordSum (Udp.pseudoHeaderPack src dest protocol (20 + payloadSize seg)) +
            wordSum (tcpHeader seg 0) := by
      rw [accmulate_pseudoHeader, checksumAccmulate_eq (by omega) (by omega),
        coveredBytes_tcpHeader]
    rw [hfront, checksumAccmulate_eq (toNat_payloadSize_le seg) (by omega)]
    rfl
  rw [tcpPackHeader, hsum]
  rfl

/-! ## What was packed is accepted -/

/-- The receiver sums up header and payload in one piece. -/
theorem accmulate_tcpHeader_append {length : UInt16} {mem : List Byte} {size : ℕ}
    (hsize : size ≤ 65515) :
    checksumAccmulate (checksumAccmulate 0 (Udp.pseudoHeaderPack src dest protocol length) 12)
        (tcpHeader seg 0 ++ mem) (20 + size) =
      wordSum (Udp.pseudoHeaderPack src dest protocol length) + wordSum (tcpHeader seg 0) +
        wordSum (coveredBytes mem size) := by
  have hpsd := Udp.wordSum_pseudoHeader_le src dest protocol length
  have heven : (tcpHeader seg 0).length % 2 = 0 := by
    rw [length_tcpHeader]
  have hcovered : coveredBytes (tcpHeader seg 0 ++ mem) (20 + size) =
      tcpHeader seg 0 ++ coveredBytes mem size :=
    coveredBytes_append heven mem size
  rw [accmulate_pseudoHeader, checksumAccmulate_eq (by omega) (by omega), hcovered,
    wordSum_append heven, Nat.add_assoc]

/-- Of an odd number of bytes the last word takes in the first byte behind them. -/
theorem coveredBytes_congr {payload behind beyond : List Byte}
    (hodd : payload.length % 2 = 1 → beyond.getD 0 0 = behind.getD 0 0) :
    coveredBytes (payload ++ beyond) payload.length =
      coveredBytes (payload ++ behind) payload.length := by
  rcases Nat.mod_two_eq_zero_or_one payload.length with heven | hodd'
  · have hcount : 2 * wordCount payload.length = payload.length := by
      simp only [wordCount]
      omega
    rw [coveredBytes, coveredBytes, hcount, memRead_append_left (Nat.le_refl _),
      memRead_append_left (Nat.le_refl _)]
  · have hcount : 2 * wordCount payload.length = payload.length + 1 := by
      simp only [wordCount]
      omega
    have hnext : ∀ mem : List Byte, (payload ++ mem).getD payload.length 0 = mem.getD 0 0 := by
      intro mem
      rw [List.getD_eq_getElem?_getD, List.getD_eq_getElem?_getD,
        List.getElem?_append_right (Nat.le_refl _), Nat.sub_self]
    rw [coveredBytes, coveredBytes, hcount, memRead_succ, memRead_succ, hnext, hnext, hodd hodd',
      memRead_append_left (Nat.le_refl _), memRead_append_left (Nat.le_refl _)]

/-- The bytes of a string decode to the fields and the payload of a segment, where `beyond` lies
behind them in the receive buffer. -/
def DecodesTo (string beyond : List Byte) : Prop :=
  ∃ u, tcpUnpack src dest protocol (string ++ beyond) (UInt16.ofNat string.length) = some u ∧
    u.srcPort = seg.srcPort ∧ u.destPort = seg.destPort ∧ u.seq = seg.seq ∧ u.ack = seg.ack ∧
    u.flags = seg.flags ∧ u.win = seg.win ∧ memRead u.payload u.payloadSize.toNat = seg.payload

/-- A segment as it was packed is accepted and read back. -/
theorem decodesTo_tcpPackHeader {behind beyond : List Byte} (hoffset : seg.dataOffset = 5)
    (hflags : seg.flags < 0x1000) (hsize : seg.payload.length ≤ 65515)
    (hodd : seg.payload.length % 2 = 1 → beyond.getD 0 0 = behind.getD 0 0) :
    DecodesTo src dest protocol seg (tcpPackHeader src dest protocol seg behind ++ seg.payload)
      beyond := by
  have hsize' := toNat_payloadSize hsize
  have hcovered := coveredBytes_congr hodd
  let sum := checksumComplete (segmentSum src dest protocol seg behind)
  let word := ((5 : UInt16) <<< 12) ||| seg.flags
  let tail := bw16 seg.win ++ (bw16 sum ++ (bw16 seg.urgentPtr ++ (seg.payload ++ beyond)))
  let mem := bw16 seg.srcPort ++ (bw16 seg.destPort ++ (bw32 seg.seq ++ (bw32 seg.ack ++
    (bw16 word ++ tail))))
  have hmem : tcpPackHeader src dest protocol seg behind ++ seg.payload ++ beyond = mem := by
    rw [tcpPackHeader_eq, tcpHeader, hoffset]
    rfl
  have hlen : UInt16.ofNat (tcpPackHeader src dest protocol seg behind ++ seg.payload).length =
      20 + payloadSize seg := by
    rw [tcpPackHeader_eq, List.length_append, length_tcpHeader, UInt16.ofNat_add]
    rfl
  have hnat : (20 + payloadSize seg).toNat = 20 + seg.payload.length := by
    have h20 : (20 : UInt16).toNat = 20 := rfl
    rw [UInt16.toNat_add, h20, hsize']
    omega
  have h2 : mem.drop 2 = bw16 seg.destPort ++ (bw32 seg.seq ++ (bw32 seg.ack ++
    (bw16 word ++ tail))) := rfl
  have h4 : mem.drop 4 = bw32 seg.seq ++ (bw32 seg.ack ++ (bw16 word ++ tail)) := rfl
  have h8 : mem.drop 8 = bw32 seg.ack ++ (bw16 word ++ tail) := rfl
  have h12 : mem.drop 12 = bw16 word ++ tail := rfl
  have h14 : mem.drop 14 = tail := rfl
  have h16 : mem.drop 16 = bw16 sum ++ (bw16 seg.urgentPtr ++ (seg.payload ++ beyond)) := rfl
  have hclear : memWriteAt mem 16 (bw16 0) = tcpHeader seg 0 ++ (seg.payload ++ beyond) := by
    rw [tcpHeader, hoffset]
    rfl
  have hoff : readDataOffset mem = 5 := by
    rw [readDataOffset, h12, br16_bw16_append]
    exact offset_of_offsetWord (by decide) hflags
  -- the two sides sum up the same words
  have hmatch : checksumMatches src dest protocol mem (20 + payloadSize seg) = true := by
    rw [checksumMatches, hclear, hnat, accmulate_tcpHeader_append src dest protocol seg hsize,
      hcovered, h16, br16_bw16_append, ← hsize']
    exact beq_self_eq_true sum
  rw [DecodesTo, hmem, hlen]
  refine ⟨_, by rw [tcpUnpack, if_pos (by omega), hmatch]; rfl, ?_⟩
  refine ⟨br16_bw16_append _ _, ?_, ?_, ?_, ?_, ?_, ?_⟩
  · simp only [h2, br16_bw16_append]
  · simp only [h4, br32_bw32_append]
  · simp only [h8, br32_bw32_append]
  · simp only [h12, br16_bw16_append]
    exact flags_of_offsetWord (by decide) hflags
  · simp only [h14]
    exact br16_bw16_append _ _
  · have hrest : (20 + payloadSize seg - 5 * 4).toNat = seg.payload.length := by
      have h54 : (5 * 4 : UInt16) = 20 := rfl
      rw [h54, UInt16.add_comm, UInt16.add_sub_cancel, hsize']
    have hptr : (tcpHeader seg 0 ++ (seg.payload ++ beyond)).drop ((5 : UInt16) * 4).toNat =
        seg.payload ++ beyond := rfl
    simp only [hoff, hclear, hrest, hptr]
    exact memRead_append_of_length rfl beyond

end Pack

end Tcp
end DtsNet
