import DtsNet.Ip.Input
import DtsNet.Ip.Output
import DtsNet.Udp

/-!
# Datagram — UDP datagrams

`udp_pack`, `udp_unpack`, and what they are called from: `udp_sendto` and `udp_ip_recv`.
-/

namespace DtsNet
namespace Udp

open Dblk Ip

/-! ## The codec -/

/-- `pseudo_header_pack`, into its 12 bytes. -/
def pseudoHeaderPack (src dest : V4) (protocol : UInt8) (length : UInt16) : List Byte :=
  src.bytes ++ dest.bytes ++ [0, protocol] ++ bw16 length

def udpHeader (srcPort destPort length checksum : UInt16) : List Byte :=
  bw16 srcPort ++ bw16 destPort ++ bw16 length ++ bw16 checksum

/-- The header that `udp_pack` writes in front of `size` bytes of data. -/
def udpPack (src dest : V4) (protocol : UInt8) (srcPort destPort : UInt16) (data : List Byte)
    (size : UInt16) : List Byte :=
  let length := 8 + size
  let header := udpHeader srcPort destPort length 0
  let sum := checksumAccmulate 0 (pseudoHeaderPack src dest protocol length) 12
  let sum := checksumAccmulate sum header 8
  let sum := checksumAccmulate sum data size.toNat
  memWriteAt header 6 (bw16 (checksumComplete sum))

/-- A `udp_datagram_t` that was received. -/
structure UdpDatagram where
  srcPort : UInt16
  destPort : UInt16
  length : UInt16
  checksum : UInt16
  payload : List Byte
  payloadSize : ℕ
  deriving DecidableEq, Repr

def udpUnpack (src dest : V4) (protocol : UInt8) (rawData : List Byte) (size : ℕ) :
    Option UdpDatagram :=
  if size < 8 then
    none
  else
    let length := br16 (rawData.drop 4)
    let dg :=
      { srcPort := br16 rawData
        destPort := br16 (rawData.drop 2)
        length := length
        checksum := br16 (rawData.drop 6)
        payload := rawData.drop 8
        payloadSize := (length - 8).toNat }
    let rawData := memWriteAt rawData 6 (bw16 0)
    let sum := checksumAccmulate 0 (pseudoHeaderPack src dest protocol length) 12
    let sum := checksumAccmulate sum rawData size
    if dg.checksum = checksumComplete sum then some dg else none

/-! ## `udp_sendto` -/

def udpRandomPort : UInt16 := 12435

variable {σ κ : Type}

/-- `_sendto`; `hdr` holds what was in the header on the stack, and `data` is the memory behind the
pointer. -/
def sendto (llSend : Netif → σ → IpDatagram → σ × Bool) (ident : ℕ) (hdr : Header) (ip : Netif)
    (dest : IpAddr) (port : UInt16) (data : List Byte) (size : UInt16) (s : σ) : σ × Bool :=
  let hdr :=
    { hdr with
      options := []
      optionSize := 0
      typeOfService := 0
      protocol := ipProtocolUdp
      timeToLive := 128
      src := ip.addr
      dest := dest }
  let header :=
    udpPack ip.addr.addr dest.addr ipProtocolUdp udpRandomPort port data size
  let payload : Block :=
    [{ data := header, offset := 0 }, { data := memRead data size.toNat, offset := 0 }]
  ipHlSend (llSend ip) ip ident hdr payload s

def udpSendto (llSend : Netif → σ → IpDatagram → σ × Bool) (nifs : List Netif) (ident : ℕ)
    (hdr : Header) (dest : IpAddr) (port : UInt16) (data : List Byte) (size : UInt16) (s : σ) :
    σ × Bool :=
  if dest.version ≠ 4 then
    (s, false)
  else
    match ipFindNetif nifs dest with
    | some ip =>
        let dest := { dest with netmask := ip.addr.netmask }
        sendto llSend ident hdr ip dest port data size s
    | none => (s, false)

/-! ## `udp_ip_recv` -/

/-- The callback that is called, with the bytes it is given. -/
def udpIpRecv (udpList : List (UdpT κ)) (ip : Option Netif) (hdr : Header) (rawData : List Byte)
    (size : ℕ) : Option (κ × List Byte) :=
  match udpUnpack hdr.src.addr hdr.dest.addr hdr.protocol rawData size with
  | none => none
  | some dg =>
      let udp := ip.bind fun ip => findUdpByAddr udpList ip dg.destPort.toUInt32
      (udp.bind UdpT.callback).map fun callback =>
        (callback, memRead dg.payload dg.payloadSize)

/-! ## What was packed is accepted -/

section RoundTrip

variable (src dest : V4) (protocol : UInt8) (srcPort destPort : UInt16)

/-- The sum over the pieces of a datagram without its checksum. -/
def datagramSum (length : UInt16) (data : List Byte) (size : ℕ) : ℕ :=
  wordSum (pseudoHeaderPack src dest protocol length) +
    wordSum (udpHeader srcPort destPort length 0) + wordSum (coveredBytes data size)

theorem length_udpHeader (length checksum : UInt16) :
    (udpHeader srcPort destPort length checksum).length = 8 := rfl

theorem length_pseudoHeaderPack (length : UInt16) :
    (pseudoHeaderPack src dest protocol length).length = 12 := rfl

theorem wordSum_pseudoHeader_le (length : UInt16) :
    wordSum (pseudoHeaderPack src dest protocol length) ≤ 65535 * 6 := by
  have h := wordSum_le (pseudoHeaderPack src dest protocol length)
  rw [length_pseudoHeaderPack, wordCount] at h
  omega

theorem wordSum_udpHeader_le (length checksum : UInt16) :
    wordSum (udpHeader srcPort destPort length checksum) ≤ 65535 * 4 := by
  have h := wordSum_le (udpHeader srcPort destPort length checksum)
  rw [length_udpHeader, wordCount] at h
  omega

theorem coveredBytes_pseudoHeader (length : UInt16) :
    coveredBytes (pseudoHeaderPack src dest protocol length) 12 =
      pseudoHeaderPack src dest protocol length :=
  coveredBytes_of_even (by rw [length_pseudoHeaderPack])

theorem coveredBytes_udpHeader (length checksum : UInt16) :
    coveredBytes (udpHeader srcPort destPort length checksum) 8 =
      udpHeader srcPort destPort length checksum :=
  coveredBytes_of_even (by rw [length_udpHeader])

/-- No sum of a datagram comes near the width of the accumulator. -/
theorem datagramSum_eq {length : UInt16} {data : List Byte} {size : ℕ} (hsize : size ≤ 65535) :
    checksumAccmulate
        (checksumAccmulate
          (checksumAccmulate 0 (pseudoHeaderPack src dest protocol length) 12)
          (udpHeader srcPort destPort length 0) 8)
        data size =
      datagramSum src dest protocol srcPort destPort length data size := by
  have hpsd := wordSum_pseudoHeader_le src dest protocol length
  have hhdr := wordSum_udpHeader_le srcPort destPort length 0
  have h₁ : checksumAccmulate 0 (pseudoHeaderPack src dest protocol length) 12 =
      wordSum (pseudoHeaderPack src dest protocol length) := by
    rw [checksumAccmulate_eq (by omega) (by omega), coveredBytes_pseudoHeader, Nat.zero_add]
  have h₂ : checksumAccmulate (wordSum (pseudoHeaderPack src dest protocol length))
      (udpHeader srcPort destPort length 0) 8 =
        wordSum (pseudoHeaderPack src dest protocol length) +
          wordSum (udpHeader srcPort destPort length 0) := by
    rw [checksumAccmulate_eq (by omega) (by omega), coveredBytes_udpHeader]
  rw [h₁, h₂, checksumAccmulate_eq hsize (by omega)]
  rfl

theorem udpPack_eq (data : List Byte) (size : UInt16) :
    udpPack src dest protocol srcPort destPort data size =
      udpHeader srcPort destPort (8 + size)
        (checksumComplete
          (datagramSum src dest protocol srcPort destPort (8 + size) data size.toNat)) := by
  have hsize : size.toNat ≤ 65535 := Nat.le_of_lt_succ size.toNat_lt
  rw [udpPack, datagramSum_eq src dest protocol srcPort destPort hsize]
  rfl

/-- The receiver sums up header and data in one piece. -/
theorem accmulate_udpHeader_append {acc : ℕ} {length : UInt16} {data : List Byte} {size : ℕ}
    (hacc : acc < 2 ^ 31) (hsize : size ≤ 65527) :
    checksumAccmulate acc (udpHeader srcPort destPort length 0 ++ data) (8 + size) =
      checksumAccmulate (checksumAccmulate acc (udpHeader srcPort destPort length 0) 8)
        data size := by
  have hhdr := wordSum_udpHeader_le srcPort destPort length 0
  have heven : (udpHeader srcPort destPort length 0).length % 2 = 0 := by
    rw [length_udpHeader]
  have hcovered : coveredBytes (udpHeader srcPort destPort length 0 ++ data) (8 + size) =
      udpHeader srcPort destPort length 0 ++ coveredBytes data size :=
    coveredBytes_append heven data size
  have hleft : checksumAccmulate acc (udpHeader srcPort destPort length 0 ++ data) (8 + size) =
      acc + (wordSum (udpHeader srcPort destPort length 0) + wordSum (coveredBytes data size)) := by
    rw [checksumAccmulate_eq (by omega) (by omega), hcovered, wordSum_append heven]
  have hright : checksumAccmulate acc (udpHeader srcPort destPort length 0) 8 =
      acc + wordSum (udpHeader srcPort destPort length 0) := by
    rw [checksumAccmulate_eq (by omega) (by omega), coveredBytes_udpHeader]
  rw [hleft, hright, checksumAccmulate_eq (by omega) (by omega), Nat.add_assoc]

/-- A datagram as it was packed is accepted, from memory in which the same data follows. -/
theorem udpUnpack_udpPack {sent received : List Byte} {size : UInt16}
    (hsize : size.toNat ≤ 65527)
    (hsame : coveredBytes received size.toNat = coveredBytes sent size.toNat) :
    udpUnpack src dest protocol
        (udpPack src dest protocol srcPort destPort sent size ++ received) (8 + size.toNat) =
      some
        { srcPort := srcPort
          destPort := destPort
          length := 8 + size
          checksum := checksumComplete
            (datagramSum src dest protocol srcPort destPort (8 + size) sent size.toNat)
          payload := received
          payloadSize := size.toNat } := by
  let sum := checksumComplete
    (datagramSum src dest protocol srcPort destPort (8 + size) sent size.toNat)
  let rest := bw16 (8 + size) ++ (bw16 sum ++ received)
  have hmem : udpPack src dest protocol srcPort destPort sent size ++ received =
      bw16 srcPort ++ (bw16 destPort ++ rest) := by
    rw [udpPack_eq]
    rfl
  have h2 : (bw16 srcPort ++ (bw16 destPort ++ rest)).drop 2 = bw16 destPort ++ rest := rfl
  have h4 : (bw16 srcPort ++ (bw16 destPort ++ rest)).drop 4 =
      bw16 (8 + size) ++ (bw16 sum ++ received) := rfl
  have h6 : (bw16 srcPort ++ (bw16 destPort ++ rest)).drop 6 = bw16 sum ++ received := rfl
  have h8 : (bw16 srcPort ++ (bw16 destPort ++ rest)).drop 8 = received := rfl
  have hclear : memWriteAt (bw16 srcPort ++ (bw16 destPort ++ rest)) 6 (bw16 0) =
      udpHeader srcPort destPort (8 + size) 0 ++ received := rfl
  have hlen : (8 + size - 8 : UInt16).toNat = size.toNat := by
    rw [UInt16.add_comm, UInt16.add_sub_cancel]
  have hpsd := wordSum_pseudoHeader_le src dest protocol (8 + size)
  have hfirst : checksumAccmulate 0 (pseudoHeaderPack src dest protocol (8 + size)) 12 < 2 ^ 31 := by
    rw [checksumAccmulate_eq (by omega) (by omega), coveredBytes_pseudoHeader]
    omega
  -- the two sides sum up the same words
  have hsum : checksumAccmulate
      (checksumAccmulate 0 (pseudoHeaderPack src dest protocol (8 + size)) 12)
      (udpHeader srcPort destPort (8 + size) 0 ++ received) (8 + size.toNat) =
        datagramSum src dest protocol srcPort destPort (8 + size) sent size.toNat := by
    calc
      _ = checksumAccmulate
            (checksumAccmulate
              (checksumAccmulate 0 (pseudoHeaderPack src dest protocol (8 + size)) 12)
              (udpHeader srcPort destPort (8 + size) 0) 8)
            received size.toNat := accmulate_udpHeader_append srcPort destPort hfirst hsize
      _ = datagramSum src dest protocol srcPort destPort (8 + size) received size.toNat :=
          datagramSum_eq src dest protocol srcPort destPort (by omega)
      _ = datagramSum src dest protocol srcPort destPort (8 + size) sent size.toNat := by
          rw [datagramSum, hsame]
          rfl
  have hnot : ¬ 8 + size.toNat < 8 := by omega
  rw [udpUnpack, if_neg hnot, hmem]
  simp only [h2, h4, h6, h8, br16_bw16_append, hclear, hsum, hlen]
  exact if_pos rfl

end RoundTrip

end Udp
end DtsNet
