import DtsNet.Ip.Header

/-!
# Input — `ip_ll_recv`

A received datagram is unpacked and handed to the protocol it is for.  Nothing of it is checked but
its size.
-/

namespace DtsNet
namespace Ip

open Dblk

/-! ## `ip_ll_recv` -/

def ipProtocolIcmp : UInt8 := 1
def ipProtocolTcp : UInt8 := 6
def ipProtocolUdp : UInt8 := 17

/-- What the initialiser of `ether_ll_recv` leaves in a header. -/
def Header.zero : Header :=
  { version := 0, ihl := 0, typeOfService := 0, totalLength := 0, identification := 0, flags := 0,
    fragmentOffset := 0, timeToLive := 0, protocol := 0, checksum := 0, src := IpAddr.zero,
    dest := IpAddr.zero, options := [], optionSize := 0 }

/-- The receiver of a protocol: it gets the interface, the header, and the payload as the memory
from the pointer on with its size. -/
abbrev Receiver (ρ : Type) :=
  Option Netif → Header → List Byte → ℕ → ρ → ρ

variable {ρ : Type}

/-- The receivers are `icmp_ip_recv`, `tcp_ip_recv` and `udp_ip_recv`. -/
def ipLlRecv (icmpIpRecv tcpIpRecv udpIpRecv : Receiver ρ) (ip : Option Netif) (hdr : Header)
    (rawData : List Byte) (size : ℕ) (r : ρ) : ρ :=
  match ipHeaderUnpack hdr rawData size with
  | none => r
  | some hdr =>
      let hdrSz := hdr.ihl.toNat * 4
      let payload := rawData.drop hdrSz
      let payloadSize := (hdr.totalLength - UInt16.ofNat hdrSz).toNat
      if hdr.protocol = ipProtocolIcmp then
        icmpIpRecv ip hdr payload payloadSize r
      else if hdr.protocol = ipProtocolTcp then
        tcpIpRecv ip hdr payload payloadSize r
      else if hdr.protocol = ipProtocolUdp then
        udpIpRecv ip hdr payload payloadSize r
      else
        r

/-! ## A packed header is read back -/

/-- The bytes of a header without options, for version 4. -/
def plainHeader (hdr : Header) (sum : UInt16) : List Byte :=
  headerFront hdr 20 ++ (bw16 sum ++ (hdr.src.addr.bytes ++ hdr.dest.addr.bytes))

@[simp] theorem length_plainHeader (hdr : Header) (sum : UInt16) :
    (plainHeader hdr sum).length = 20 := rfl

/-- Without options the packed header is plain. -/
theorem ipHeaderPack_plain {hdr : Header} (hver : hdr.version = 4) (hopt : hdr.optionSize = 0)
    {bufSize : ℕ} (hbuf : 20 ≤ bufSize) :
    ∃ sum, (ipHeaderPack hdr bufSize).2 =
      plainHeader { hdr with totalLength := hdr.totalLength + 20 } sum := by
  have hsize : hdr.optionSize.toNat = 0 := by simp [hopt]
  have hfits : hdr.optionSize.toNat + 20 ≤ bufSize := by omega
  obtain ⟨sum, -, hpack⟩ := ipHeaderPack_eq hfits
  have hrest : headerRest hdr = hdr.src.addr.bytes ++ hdr.dest.addr.bytes := by
    have hnil : memRead hdr.options 0 = [] := rfl
    rw [headerRest, addressBytes, if_pos hver, hsize, hnil, List.append_nil]
  have hread : memRead (headerRest hdr) 8 = hdr.src.addr.bytes ++ hdr.dest.addr.bytes := by
    rw [hrest]
    rfl
  have hwith : withHeaderSize hdr = { hdr with totalLength := hdr.totalLength + 20 } := by
    simp [withHeaderSize, hsize]
  refine ⟨sum, ?_⟩
  rw [hpack, hsize, headerSize_zero, hwith]
  dsimp only
  rw [hread, List.append_assoc]
  rfl

/-- What the protocols use of a header is read back. -/
theorem ipHeaderUnpack_plain {hdr : Header} (hver : hdr.version = 4) (sum : UInt16)
    (payload : List Byte) (before : Header) {size : ℕ} (hsize : 20 ≤ size) :
    ∃ read, ipHeaderUnpack before (plainHeader hdr sum ++ payload) size = some read ∧
      read.ihl = 5 ∧ read.totalLength = hdr.totalLength ∧ read.protocol = hdr.protocol ∧
      read.src.addr = hdr.src.addr ∧ read.dest.addr = hdr.dest.addr := by
  have hfirst : (plainHeader hdr sum ++ payload).getD 0 0 = 0x45 := by
    have hbyte : UInt8.ofNat (20 / 4 ||| (4 : BitVec 4).toNat <<< 4) = 0x45 := by decide
    rw [← hbyte, ← hver]
    rfl
  have hversion : BitVec.ofNat 4 (((0x45 : UInt8) &&& 0xF0) >>> 4).toNat = 4 := by decide
  have hihl : BitVec.ofNat 4 ((0x45 : UInt8) &&& 0x0F).toNat = 5 := by decide
  have htotal : br16 ((plainHeader hdr sum ++ payload).drop 2) = hdr.totalLength := by
    rw [plainHeader, List.append_assoc]
    exact br16_drop_two hdr 20 _
  have hsrc : V4.ofMem ((plainHeader hdr sum ++ payload).drop 12) = hdr.src.addr := rfl
  have hdest : V4.ofMem ((plainHeader hdr sum ++ payload).drop 16) = hdr.dest.addr := rfl
  have hproto : (plainHeader hdr sum ++ payload).getD 9 0 = hdr.protocol := rfl
  have hnot : ¬ size < 20 := by omega
  have hnot' : ¬ size < (5 : BitVec 4).toNat * 4 := hnot
  simp only [ipHeaderUnpack, hfirst, hversion, hihl, if_neg hnot, if_neg hnot', htotal, hsrc,
    hdest, hproto, if_true]
  refine ⟨_, rfl, ?_⟩
  split <;> exact ⟨rfl, rfl, rfl, rfl, rfl⟩

end Ip
end DtsNet
