import DtsNet.Socket.Api
import DtsNet.Udp.Datagram

/-!
# Acceptance — which datagrams `udp_unpack` accepts

`udp_unpack` clears the checksum field, computes the checksum that belongs there and compares.  Two
things follow.  In one's complement there are two zeros, so that the comparison differs from a sum
that includes the field; and what was compared says nothing about the length field, which gives
the size of the payload.
-/

namespace DtsNet
namespace Udp

open Dblk Ip OnesComplement

/-! ## The fields of a datagram -/

def lengthField (rawData : List Byte) : UInt16 :=
  br16 (rawData.drop 4)

def checksumField (rawData : List Byte) : UInt16 :=
  br16 (rawData.drop 6)

section Acceptance

variable (src dest : V4) (protocol : UInt8) (rawData : List Byte) (size : ℕ)

/-- The checksum that `udp_unpack` computes, with zero in the place of the field. -/
def computedChecksum : UInt16 :=
  let sum := checksumAccmulate 0 (pseudoHeaderPack src dest protocol (lengthField rawData)) 12
  checksumComplete (checksumAccmulate sum (memWriteAt rawData 6 (bw16 0)) size)

/-- The datagram that `udp_unpack` makes of the raw data. -/
def unpacked : UdpDatagram :=
  { srcPort := br16 rawData
    destPort := br16 (rawData.drop 2)
    length := lengthField rawData
    checksum := checksumField rawData
    payload := rawData.drop 8
    payloadSize := (lengthField rawData - 8).toNat }

theorem udpUnpack_eq :
    udpUnpack src dest protocol rawData size =
      if size < 8 then
        none
      else if checksumField rawData = computedChecksum src dest protocol rawData size then
        some (unpacked rawData)
      else
        none := rfl

variable {src dest protocol rawData size}

theorem udpUnpack_eq_some_iff {dg : UdpDatagram} :
    udpUnpack src dest protocol rawData size = some dg ↔
      8 ≤ size ∧ checksumField rawData = computedChecksum src dest protocol rawData size ∧
        dg = unpacked rawData := by
  rw [udpUnpack_eq]
  by_cases hsize : size < 8
  · have hnot : ¬ 8 ≤ size := by omega
    simp [hsize, hnot]
  · by_cases hsum : checksumField rawData = computedChecksum src dest protocol rawData size
    · have hle : 8 ≤ size := by omega
      simp [hsize, hsum, hle, eq_comm]
    · simp [hsize, hsum]

end Acceptance

/-! ## Where the payload lies -/

/-- The bytes `[8, length)` of the raw data. -/
def payloadBytes (rawData : List Byte) (size : ℕ) (length : UInt16) : List Byte :=
  ((memRead rawData size).take length.toNat).drop 8

/-- Nothing that comes of a received datagram lies outside its raw data: not the payload, not what
a callback is given, and not what a socket copies. -/
structure Contained (hdr : Header) (rawData : List Byte) (size : ℕ) : Prop where
  payload : ∀ dg, udpUnpack hdr.src.addr hdr.dest.addr hdr.protocol rawData size = some dg →
    8 ≤ dg.length.toNat ∧ dg.length.toNat ≤ size ∧
      memRead dg.payload dg.payloadSize = payloadBytes rawData size dg.length
  callback : ∀ {κ : Type} (udpList : List (UdpT κ)) (ip : Option Netif) (cb : κ)
    (data : List Byte), udpIpRecv udpList ip hdr rawData size = some (cb, data) →
      8 + data.length ≤ size ∧ data = payloadBytes rawData size (lengthField rawData)
  copy : ∀ {τ : Type} (h : Socket.Host τ) (ip : Option Netif) (fd : ℕ) (data : List Byte),
    udpIpRecv h.udps ip hdr rawData size = some (fd, data) →
      ((Socket.udpRecv true fd data h).sockets fd).rxQueue =
        (h.sockets fd).rxQueue ++
          [[{ data := payloadBytes rawData size (lengthField rawData), offset := 0 }]]

/-- A callback is called for an accepted datagram, with its payload. -/
theorem udpIpRecv_some {κ : Type} {udpList : List (UdpT κ)} {ip : Option Netif} {hdr : Header}
    {rawData data : List Byte} {size : ℕ} {cb : κ}
    (h : udpIpRecv udpList ip hdr rawData size = some (cb, data)) :
    ∃ dg, udpUnpack hdr.src.addr hdr.dest.addr hdr.protocol rawData size = some dg ∧
      data = memRead dg.payload dg.payloadSize := by
  cases hdg : udpUnpack hdr.src.addr hdr.dest.addr hdr.protocol rawData size with
  | none =>
      simp [udpIpRecv, hdg] at h
  | some dg =>
      simp only [udpIpRecv, hdg, Option.map_eq_some_iff, Prod.mk.injEq] at h
      obtain ⟨cb', -, -, hdata⟩ := h
      exact ⟨dg, rfl, hdata.symm⟩

/-- The copy of a socket is as long as what it was given. -/
theorem rxQueue_udpRecv {τ : Type} (h : Socket.Host τ) (fd : ℕ) {data : List Byte}
    (hdata : data.length < 65536) :
    ((Socket.udpRecv true fd data h).sockets fd).rxQueue =
      (h.sockets fd).rxQueue ++ [[{ data := data, offset := 0 }]] := by
  have hcopy : dblkCopyFrom [dblkNodeNewWithBuff data.length] data data.length =
      [{ data := data, offset := 0 }] := by
    rw [dblkCopyFrom_new, Nat.mod_eq_of_lt hdata, memRead_of_length rfl]
  simp [Socket.udpRecv, hcopy, Socket.Host.setSocket]

theorem memRead_unpacked {rawData : List Byte} {size : ℕ}
    (hlow : 8 ≤ (lengthField rawData).toNat) (hhigh : (lengthField rawData).toNat ≤ size) :
    (unpacked rawData).payloadSize = (lengthField rawData).toNat - 8 ∧
      memRead (unpacked rawData).payload (unpacked rawData).payloadSize =
        payloadBytes rawData size (lengthField rawData) := by
  have h8 : (8 : UInt16).toNat = 8 := rfl
  have hge : (8 : UInt16) ≤ lengthField rawData := by
    rw [UInt16.le_iff_toNat_le, h8]
    exact hlow
  have hsize : (lengthField rawData - 8).toNat = (lengthField rawData).toNat - 8 := by
    rw [UInt16.toNat_sub_of_le _ _ hge, h8]
  refine ⟨hsize, ?_⟩
  have hsplit : (lengthField rawData).toNat = 8 + ((lengthField rawData).toNat - 8) := by omega
  rw [payloadBytes, take_memRead _ hhigh, hsplit, drop_memRead]
  simp only [unpacked, hsize]

/-- Nothing of a datagram lies outside its raw data if and only if a datagram that passes the two
checks of `udp_unpack` has a length field from 8 to the size of the raw data. -/
theorem contained_iff (hdr : Header) (rawData : List Byte) (size : ℕ) :
    Contained hdr rawData size ↔
      (8 ≤ size →
        checksumField rawData =
          computedChecksum hdr.src.addr hdr.dest.addr hdr.protocol rawData size →
        8 ≤ (lengthField rawData).toNat ∧ (lengthField rawData).toNat ≤ size) := by
  constructor
  · -- the payload alone needs the length field to be in bounds
    intro h hsize hsum
    have hdg := h.payload _ (udpUnpack_eq_some_iff.2 ⟨hsize, hsum, rfl⟩)
    exact ⟨hdg.1, hdg.2.1⟩
  · intro h
    have hpayload : ∀ dg,
        udpUnpack hdr.src.addr hdr.dest.addr hdr.protocol rawData size = some dg →
        8 ≤ (lengthField rawData).toNat ∧ (lengthField rawData).toNat ≤ size ∧
          dg = unpacked rawData := by
      intro dg hdg
      obtain ⟨hsize, hsum, heq⟩ := udpUnpack_eq_some_iff.1 hdg
      exact ⟨(h hsize hsum).1, (h hsize hsum).2, heq⟩
    have hgiven : ∀ {κ : Type} (udpList : List (UdpT κ)) (ip : Option Netif) (cb : κ)
        (data : List Byte), udpIpRecv udpList ip hdr rawData size = some (cb, data) →
        8 + data.length ≤ size ∧ data = payloadBytes rawData size (lengthField rawData) := by
      intro κ udpList ip cb data hcb
      obtain ⟨dg, hdg, hdata⟩ := udpIpRecv_some hcb
      obtain ⟨hlow, hhigh, heq⟩ := hpayload dg hdg
      obtain ⟨hsize, hread⟩ := memRead_unpacked hlow hhigh
      rw [heq] at hdata
      refine ⟨?_, hdata.trans hread⟩
      rw [hdata, length_memRead, hsize]
      omega
    refine ⟨?_, hgiven, ?_⟩
    · intro dg hdg
      obtain ⟨hlow, hhigh, heq⟩ := hpayload dg hdg
      rw [heq]
      exact ⟨hlow, hhigh, (memRead_unpacked hlow hhigh).2⟩
    · intro τ host ip fd data hcb
      obtain ⟨dg, hdg, hdata⟩ := udpIpRecv_some hcb
      have hlt : data.length < 65536 := by
        rw [hdata, length_memRead, (hpayload dg hdg).2.2]
        exact (lengthField rawData - 8).toNat_lt
      rw [rxQueue_udpRecv host fd hlt, (hgiven host.udps ip fd data hcb).2]

/-- The header of a datagram for UDP from 192.168.1.2 to 192.168.1.1. -/
def sampleIpHeader : Header :=
  { Header.zero with
    version := 4
    protocol := 17
    src := ⟨4, ⟨192, 168, 1, 2⟩, ⟨0, 0, 0, 0⟩⟩
    dest := ⟨4, ⟨192, 168, 1, 1⟩, ⟨0, 0, 0, 0⟩⟩ }

/-- Eight bytes whose length field says 1000, with the checksum for it. -/
theorem contained_fails_sample :
    ¬ ∀ (hdr : Header) (rawData : List Byte) (size : ℕ), Contained hdr rawData size := by
  intro h
  have hdg : ∃ dg, udpUnpack sampleIpHeader.src.addr sampleIpHeader.dest.addr
      sampleIpHeader.protocol (udpHeader 53 80 1000 29765) 8 = some dg ∧ dg.length = 1000 := by
    decide +kernel
  obtain ⟨dg, hsome, hlength⟩ := hdg
  have hle := ((h sampleIpHeader (udpHeader 53 80 1000 29765) 8).payload dg hsome).2.1
  rw [hlength] at hle
  revert hle
  decide

/-! ## The two tests of the checksum -/

/-- The sum over pseudo header and datagram, checksum field included. -/
def receivedSum (src dest : V4) (protocol : UInt8) (rawData : List Byte) (size : ℕ) : ℕ :=
  wordSum (pseudoHeaderPack src dest protocol (lengthField rawData)) +
    wordSum (memRead rawData size)

/-- The same without the checksum field. -/
def sumWithoutField (src dest : V4) (protocol : UInt8) (rawData : List Byte) (size : ℕ) : ℕ :=
  wordSum (pseudoHeaderPack src dest protocol (lengthField rawData)) +
    (wordSum (rawData.take 6) + wordSum (memRead (rawData.drop 8) (size - 8)))

section Checksums

variable {src dest : V4} {protocol : UInt8} {rawData : List Byte} {size : ℕ}

theorem length_take_six (hlen : 8 ≤ rawData.length) : (rawData.take 6).length = 6 := by
  rw [List.length_take]
  omega

theorem receivedSum_eq (hsize : 8 ≤ size) (hlen : size ≤ rawData.length) :
    receivedSum src dest protocol rawData size =
      sumWithoutField src dest protocol rawData size + (checksumField rawData).toNat := by
  have h6 : (rawData.take 6).length = 6 := length_take_six (by omega)
  have h8 : (rawData.take 6 ++ bw16 (checksumField rawData)).length = 8 := by
    rw [List.length_append, h6, length_bw16]
  have hread : memRead rawData size =
      rawData.take 6 ++ bw16 (checksumField rawData) ++ memRead (rawData.drop 8) (size - 8) := by
    calc
      memRead rawData size
          = memRead (rawData.take 6 ++ bw16 (checksumField rawData) ++ rawData.drop 8) size := by
            rw [checksumField, ← split_word (by omega)]
      _ = _ := by rw [memRead_append_right (by omega), h8]
  rw [receivedSum, hread, wordSum_append (by omega), wordSum_append (by omega), wordSum_bw16,
    sumWithoutField]
  omega

theorem computedChecksum_eq (hsize : 8 ≤ size) (hlen : size ≤ rawData.length)
    (hmax : size ≤ 65535) (hzero : size % 2 = 1 → rawData.getD size 0 = 0) :
    computedChecksum src dest protocol rawData size =
      checksumComplete (sumWithoutField src dest protocol rawData size) := by
  obtain ⟨n, rfl⟩ := Nat.exists_eq_add_of_le hsize
  have h6 : (rawData.take 6).length = 6 := length_take_six (by omega)
  have hpsd := wordSum_pseudoHeader_le src dest protocol (lengthField rawData)
  -- the field is cleared before the sum, and a last byte is joined by a zero
  have hword : wordSum (coveredBytes (rawData.take 6 ++ bw16 0 ++ rawData.drop 8) (8 + n)) =
      wordSum (rawData.take 6) + (0 : UInt16).toNat +
        wordSum (coveredBytes (rawData.drop 8) n) := by
    have h := wordSum_coveredBytes_word (by omega : (rawData.take 6).length % 2 = 0) 0
      (rawData.drop 8) n
    rwa [h6] at h
  have hrest : wordSum (coveredBytes (rawData.drop 8) n) =
      wordSum (memRead (rawData.drop 8) n) := by
    refine wordSum_coveredBytes_of_zero fun hodd => ?_
    rw [getD_drop]
    exact hzero (by omega)
  have hfirst : checksumAccmulate 0 (pseudoHeaderPack src dest protocol (lengthField rawData)) 12 =
      wordSum (pseudoHeaderPack src dest protocol (lengthField rawData)) := by
    rw [checksumAccmulate_eq (by omega) (by omega), coveredBytes_pseudoHeader, Nat.zero_add]
  have h0 : (0 : UInt16).toNat = 0 := rfl
  simp only [computedChecksum]
  rw [hfirst, checksumAccmulate_eq hmax (by omega), memWriteAt_word (by omega), hword, hrest,
    sumWithoutField, Nat.add_sub_cancel_left, h0, Nat.add_zero]

/-- The pseudo header holds the length, so that the sum is not zero. -/
theorem sumWithoutField_pos (hlength : 0 < (lengthField rawData).toNat) :
    0 < sumWithoutField src dest protocol rawData size := by
  have hpsd : wordSum (pseudoHeaderPack src dest protocol (lengthField rawData)) =
      wordSum (src.bytes ++ dest.bytes ++ [0, protocol]) + (lengthField rawData).toNat := by
    have heven : (src.bytes ++ dest.bytes ++ [0, protocol]).length % 2 = 0 := by
      simp
    rw [pseudoHeaderPack, wordSum_append heven, wordSum_bw16]
  rw [sumWithoutField, hpsd]
  omega

/-- For a field that is neither of the two zeros the tests agree.  A field of zero is accepted by
the code only if zero is what it computes, and a field of all ones never. -/
theorem agrees_iff {field sum : ℕ} (hfield : field ≤ 65535) (hsum : 0 < sum) :
    (field + norm 65535 sum = 65535 ↔ field = 0 ∨ norm 65535 (sum + field) = 65535) ↔
      (field = 0 → 65535 ∣ sum) ∧ (field = 65535 → ¬ 65535 ∣ sum) := by
  have hpos : 0 < norm 65535 sum := by
    rw [norm_of_pos hsum]
    omega
  have htop : norm 65535 sum = 65535 ↔ 65535 ∣ sum := norm_eq_top_iff (by decide) hsum
  have hwhole : norm 65535 (sum + field) = 65535 ↔ 65535 ∣ sum + field :=
    norm_eq_top_iff (by decide) (by omega)
  rw [hwhole]
  by_cases h0 : field = 0
  · subst h0
    simp [htop]
  · by_cases h1 : field = 65535
    · subst h1
      have hnot : ¬ norm 65535 sum = 0 := by omega
      have hdvd : 65535 ∣ sum + 65535 ↔ 65535 ∣ sum := by omega
      simp [hnot, hdvd]
    · -- in between, completing the reduced sum and making the whole sum a multiple are the same
      have hmod : norm 65535 sum ≡ sum [MOD 65535] := norm_modEq sum
      have hle : norm 65535 sum ≤ 65535 := norm_le (by decide) sum
      have hsame : field + norm 65535 sum = 65535 ↔ 65535 ∣ sum + field := by
        unfold Nat.ModEq at hmod
        omega
      simp [h0, h1, hsame]

end Checksums

/-- For a datagram that fills its raw data: `udp_unpack` accepts it exactly when the checksum field
is zero or the one's complement sum over pseudo header and datagram is 0xFFFF, if and only if the
field is neither zero while the rest does not sum up to a multiple of 0xFFFF, nor all ones while it
does. -/
theorem udpUnpack_rfc_iff {src dest : V4} {protocol : UInt8} {rawData : List Byte} {size : ℕ}
    (hsize : 8 ≤ size) (hlen : size ≤ rawData.length)
    (hlength : (lengthField rawData).toNat = size)
    (hzero : size % 2 = 1 → rawData.getD size 0 = 0) :
    ((udpUnpack src dest protocol rawData size).isSome = true ↔
        checksumField rawData = 0 ∨
          norm 65535 (receivedSum src dest protocol rawData size) = 0xFFFF) ↔
      (checksumField rawData = 0 →
        65535 ∣ sumWithoutField src dest protocol rawData size) ∧
      (checksumField rawData = 0xFFFF →
        ¬ 65535 ∣ sumWithoutField src dest protocol rawData size) := by
  have hmax : size ≤ 65535 := by
    have hlt := (lengthField rawData).toNat_lt
    omega
  have hfield : (checksumField rawData).toNat ≤ 65535 :=
    Nat.le_of_lt_succ (checksumField rawData).toNat_lt
  have hsome : (udpUnpack src dest protocol rawData size).isSome = true ↔
      (checksumField rawData).toNat + norm 65535 (sumWithoutField src dest protocol rawData size) =
        65535 := by
    rw [← eq_checksumComplete_iff, ← computedChecksum_eq hsize hlen hmax hzero,
      Option.isSome_iff_exists]
    constructor
    · rintro ⟨dg, hdg⟩
      exact (udpUnpack_eq_some_iff.1 hdg).2.1
    · intro h
      exact ⟨_, udpUnpack_eq_some_iff.2 ⟨hsize, h, rfl⟩⟩
  have h0 : checksumField rawData = 0 ↔ (checksumField rawData).toNat = 0 :=
    UInt16.toNat_inj.symm
  have h1 : checksumField rawData = 0xFFFF ↔ (checksumField rawData).toNat = 65535 :=
    UInt16.toNat_inj.symm
  rw [hsome, h0, h1, receivedSum_eq hsize hlen]
  exact agrees_iff hfield (sumWithoutField_pos (by omega))

/-- A datagram without payload from 192.168.1.2 port 53 to 192.168.1.1 port 80. -/
def emptyDatagram (checksum : UInt16) : List Byte :=
  udpHeader 53 80 8 checksum

theorem udpUnpack_rfc_sample :
    (udpUnpack ⟨192, 168, 1, 2⟩ ⟨192, 168, 1, 1⟩ 17 (emptyDatagram 31749) 8).isSome = true ↔
      checksumField (emptyDatagram 31749) = 0 ∨
        norm 65535 (receivedSum ⟨192, 168, 1, 2⟩ ⟨192, 168, 1, 1⟩ 17 (emptyDatagram 31749) 8) =
          0xFFFF :=
  (udpUnpack_rfc_iff (by decide) (by decide) (by decide) (by decide)).2
    ⟨fun h => absurd h (by decide), fun h => absurd h (by decide)⟩

/-- Sent without a checksum, the same datagram is dropped. -/
theorem udpUnpack_no_checksum_sample :
    ¬ ∀ (src dest : V4) (protocol : UInt8) (rawData : List Byte) (size : ℕ),
      8 ≤ size → size ≤ rawData.length → (lengthField rawData).toNat = size →
      (size % 2 = 1 → rawData.getD size 0 = 0) →
      ((udpUnpack src dest protocol rawData size).isSome = true ↔
        checksumField rawData = 0 ∨
          norm 65535 (receivedSum src dest protocol rawData size) = 0xFFFF) := by
  intro h
  have hdropped : (udpUnpack ⟨192, 168, 1, 2⟩ ⟨192, 168, 1, 1⟩ 17 (emptyDatagram 0) 8).isSome =
      false := by
    decide
  have haccepted := (h ⟨192, 168, 1, 2⟩ ⟨192, 168, 1, 1⟩ 17 (emptyDatagram 0) 8 (by decide)
    (by decide) (by decide) (by decide)).2 (Or.inl (by decide))
  rw [hdropped] at haccepted
  exact absurd haccepted (by decide)

end Udp
end DtsNet
