import DtsNet.Ip.Input

/-!
# Bounds — where a dispatched datagram lies in its frame

`ip_header_unpack` compares the size of the header with the size of the frame, but nothing compares
the total length with either of them.  What `ip_ll_recv` hands to a protocol is written down as an
upcall, so that it can be compared with the bytes of the frame.
-/

namespace DtsNet
namespace Ip

open Dblk

/-! ## Upcalls -/

/-- What a protocol is handed: the header, and the payload as the memory from the pointer on with
its size. -/
structure Upcall where
  protocol : UInt8
  header : Header
  payload : List Byte
  payloadSize : ℕ
  deriving DecidableEq, Repr

/-- A receiver that writes down what it is handed. -/
def noteUpcall (protocol : UInt8) : Receiver (List Upcall) :=
  fun _ hdr payload payloadSize calls => calls ++ [⟨protocol, hdr, payload, payloadSize⟩]

/-- The upcalls that `ip_ll_recv` makes for a frame; `hdr` is the header record it fills. -/
def upcalls (hdr : Header) (frame : List Byte) : List Upcall :=
  ipLlRecv (noteUpcall ipProtocolIcmp) (noteUpcall ipProtocolTcp) (noteUpcall ipProtocolUdp) none
    hdr frame frame.length []

variable {ρ : Type}

/-- The receiver that an upcall is for. -/
def Upcall.deliver (icmpIpRecv tcpIpRecv udpIpRecv : Receiver ρ) (ip : Option Netif) (r : ρ)
    (u : Upcall) : ρ :=
  if u.protocol = ipProtocolIcmp then
    icmpIpRecv ip u.header u.payload u.payloadSize r
  else if u.protocol = ipProtocolTcp then
    tcpIpRecv ip u.header u.payload u.payloadSize r
  else
    udpIpRecv ip u.header u.payload u.payloadSize r

/-! ## The fields of the frame -/

/-- The first four bits behind the version, in words of 4 bytes. -/
def ihlField (frame : List Byte) : ℕ :=
  (frame.getD 0 0 &&& 0x0F).toNat

def totalLengthField (frame : List Byte) : ℕ :=
  (br16 (frame.drop 2)).toNat

def protocolField (frame : List Byte) : UInt8 :=
  frame.getD 9 0

theorem ihlField_lt (frame : List Byte) : ihlField frame < 16 := by
  have hand : ∀ n : ℕ, n &&& 15 = n % 16 := fun n => Nat.and_two_pow_sub_one_eq_mod n 4
  have h15 : (0x0F : UInt8).toNat = 15 := rfl
  rw [ihlField, UInt8.toNat_and, h15, hand]
  omega

/-- The header fits, and one of the three protocols is meant. -/
def Dispatched (frame : List Byte) : Prop :=
  20 ≤ frame.length ∧ 4 * ihlField frame ≤ frame.length ∧
    (protocolField frame = ipProtocolIcmp ∨ protocolField frame = ipProtocolTcp ∨
      protocolField frame = ipProtocolUdp)

/-- The two length fields agree with each other and with the size of the frame. -/
def LengthsAgree (frame : List Byte) : Prop :=
  5 ≤ ihlField frame ∧ 4 * ihlField frame ≤ totalLengthField frame ∧
    totalLengthField frame ≤ frame.length

/-- The datagram of an upcall lies inside the frame. -/
structure Upcall.Inside (u : Upcall) (frame : List Byte) : Prop where
  header_full : 20 ≤ 4 * u.header.ihl.toNat
  header_le : 4 * u.header.ihl.toNat ≤ u.header.totalLength.toNat
  total_le : u.header.totalLength.toNat ≤ frame.length
  pointer : u.payload = frame.drop (4 * u.header.ihl.toNat)
  size_eq : u.payloadSize = u.header.totalLength.toNat - 4 * u.header.ihl.toNat
  bytes_eq : memRead u.payload u.payloadSize =
    (frame.take u.header.totalLength.toNat).drop (4 * u.header.ihl.toNat)

/-! ## The header that was read -/

/-- A header is read if it fits; its lengths and its protocol are those of the frame. -/
theorem ipHeaderUnpack_fields (hdr : Header) (frame : List Byte) :
    (20 ≤ frame.length ∧ 4 * ihlField frame ≤ frame.length →
      ∃ read, ipHeaderUnpack hdr frame frame.length = some read ∧
        read.ihl.toNat = ihlField frame ∧ read.totalLength.toNat = totalLengthField frame ∧
        read.protocol = protocolField frame) ∧
    (¬ (20 ≤ frame.length ∧ 4 * ihlField frame ≤ frame.length) →
      ipHeaderUnpack hdr frame frame.length = none) := by
  have hihl : (BitVec.ofNat 4 (frame.getD 0 0 &&& 0x0F).toNat).toNat = ihlField frame := by
    have hlt := ihlField_lt frame
    rw [ihlField] at hlt ⊢
    rw [BitVec.toNat_ofNat]
    exact Nat.mod_eq_of_lt hlt
  constructor
  · rintro ⟨hlen, hfits⟩
    have hnot : ¬ frame.length < 20 := by omega
    have hnot' : ¬ frame.length < ihlField frame * 4 := by omega
    simp only [ipHeaderUnpack, hihl, if_neg hnot, if_neg hnot']
    refine ⟨_, rfl, ?_⟩
    -- neither the addresses nor the options touch these fields
    split <;> split <;> exact ⟨hihl, rfl, rfl⟩
  · intro hbad
    by_cases hlen : frame.length < 20
    · simp only [ipHeaderUnpack, if_pos hlen]
    · have hfits : frame.length < ihlField frame * 4 := by omega
      simp only [ipHeaderUnpack, hihl, if_neg hlen, if_pos hfits]

/-- The upcall for a header that was read. -/
def upcallFor (read : Header) (frame : List Byte) : Upcall :=
  { protocol := read.protocol
    header := read
    payload := frame.drop (read.ihl.toNat * 4)
    payloadSize := (read.totalLength - UInt16.ofNat (read.ihl.toNat * 4)).toNat }

/-- One upcall at most is made, for a header that fits and names one of the protocols. -/
theorem upcalls_eq (hdr : Header) (frame : List Byte) :
    (Dispatched frame →
      ∃ read, read.ihl.toNat = ihlField frame ∧
        read.totalLength.toNat = totalLengthField frame ∧
        upcalls hdr frame = [upcallFor read frame]) ∧
    (¬ Dispatched frame → upcalls hdr frame = []) := by
  obtain ⟨hread, hnone⟩ := ipHeaderUnpack_fields hdr frame
  constructor
  · rintro ⟨hlen, hfits, hproto⟩
    obtain ⟨read, hsome, hihl, htotal, hprotocol⟩ := hread ⟨hlen, hfits⟩
    refine ⟨read, hihl, htotal, ?_⟩
    rw [← hprotocol] at hproto
    simp only [upcalls, ipLlRecv, hsome, noteUpcall, List.nil_append, upcallFor]
    rcases hproto with hicmp | htcp | hudp
    · rw [if_pos hicmp, hicmp]
    · rw [htcp, if_neg (by decide), if_pos rfl]
    · rw [hudp, if_neg (by decide), if_neg (by decide), if_pos rfl]
  · intro hnot
    by_cases hfits : 20 ≤ frame.length ∧ 4 * ihlField frame ≤ frame.length
    · obtain ⟨read, hsome, -, -, hprotocol⟩ := hread hfits
      have hproto : ¬ (read.protocol = ipProtocolIcmp ∨ read.protocol = ipProtocolTcp ∨
          read.protocol = ipProtocolUdp) := by
        rw [hprotocol]
        exact fun h => hnot ⟨hfits.1, hfits.2, h⟩
      rw [not_or, not_or] at hproto
      simp only [upcalls, ipLlRecv, hsome, if_neg hproto.1, if_neg hproto.2.1, if_neg hproto.2.2]
    · simp only [upcalls, ipLlRecv, hnone hfits]

/-- Whatever the receivers do, `ip_ll_recv` calls them as the upcalls say. -/
theorem ipLlRecv_eq_foldl (icmpIpRecv tcpIpRecv udpIpRecv : Receiver ρ) (ip : Option Netif)
    (hdr : Header) (frame : List Byte) (r : ρ) :
    ipLlRecv icmpIpRecv tcpIpRecv udpIpRecv ip hdr frame frame.length r =
      (upcalls hdr frame).foldl (Upcall.deliver icmpIpRecv tcpIpRecv udpIpRecv ip) r := by
  cases hread : ipHeaderUnpack hdr frame frame.length with
  | none =>
      simp only [ipLlRecv, upcalls, hread, List.foldl_nil]
  | some read =>
      by_cases hicmp : read.protocol = ipProtocolIcmp
      · simp [ipLlRecv, upcalls, hread, hicmp, noteUpcall, Upcall.deliver]
      · by_cases htcp : read.protocol = ipProtocolTcp
        · simp [ipLlRecv, upcalls, hread, htcp, noteUpcall, Upcall.deliver, ipProtocolTcp,
            ipProtocolIcmp]
        · by_cases hudp : read.protocol = ipProtocolUdp
          · simp [ipLlRecv, upcalls, hread, hudp, noteUpcall, Upcall.deliver, ipProtocolTcp,
              ipProtocolIcmp, ipProtocolUdp]
          · simp [ipLlRecv, upcalls, hread, hicmp, htcp, hudp]

/-! ## Inside the frame -/

theorem inside_upcallFor_iff {read : Header} {frame : List Byte}
    (hihl : read.ihl.toNat = ihlField frame)
    (htotal : read.totalLength.toNat = totalLengthField frame) :
    (upcallFor read frame).Inside frame ↔ LengthsAgree frame := by
  constructor
  · intro h
    have hfull : 20 ≤ 4 * ihlField frame := hihl ▸ h.header_full
    have hle : 4 * ihlField frame ≤ totalLengthField frame := by
      rw [← hihl, ← htotal]
      exact h.header_le
    exact ⟨by omega, hle, htotal ▸ h.total_le⟩
  · rintro ⟨hfull, hle, htot⟩
    have hlt := ihlField_lt frame
    have hword : (UInt16.ofNat (read.ihl.toNat * 4)).toNat = 4 * read.ihl.toNat := by
      rw [UInt16.toNat_ofNat_of_lt' (show _ < 65536 by omega), Nat.mul_comm]
    -- the subtraction does not wrap
    have hsub : (read.totalLength - UInt16.ofNat (read.ihl.toNat * 4)).toNat =
        read.totalLength.toNat - 4 * read.ihl.toNat := by
      rw [UInt16.toNat_sub_of_le, hword]
      rw [UInt16.le_iff_toNat_le, hword]
      omega
    refine
      { header_full := ?_
        header_le := ?_
        total_le := ?_
        pointer := ?_
        size_eq := hsub
        bytes_eq := ?_ }
    · simp only [upcallFor]
      omega
    · simp only [upcallFor]
      omega
    · simp only [upcallFor]
      omega
    · simp only [upcallFor, Nat.mul_comm]
    · simp only [upcallFor, hsub]
      rw [memRead_eq_take (by rw [List.length_drop]; omega), Nat.mul_comm, List.drop_take]

/-- `ip_ll_recv` hands its upcalls to the receivers and does nothing else; every datagram that it
hands up lies inside its frame if and only if a frame that is dispatched has length fields that
agree. -/
theorem ipLlRecv_inside_iff (icmpIpRecv tcpIpRecv udpIpRecv : Receiver ρ) (ip : Option Netif)
    (hdr : Header) (frame : List Byte) (r : ρ) :
    ipLlRecv icmpIpRecv tcpIpRecv udpIpRecv ip hdr frame frame.length r =
      (upcalls hdr frame).foldl (Upcall.deliver icmpIpRecv tcpIpRecv udpIpRecv ip) r ∧
    ((∀ u ∈ upcalls hdr frame, u.Inside frame) ↔ (Dispatched frame → LengthsAgree frame)) := by
  refine ⟨ipLlRecv_eq_foldl icmpIpRecv tcpIpRecv udpIpRecv ip hdr frame r, ?_⟩
  obtain ⟨hcall, hdrop⟩ := upcalls_eq hdr frame
  by_cases hd : Dispatched frame
  · obtain ⟨read, hihl, htotal, hcalls⟩ := hcall hd
    rw [hcalls, List.forall_mem_singleton, inside_upcallFor_iff hihl htotal]
    exact ⟨fun h _ => h, fun h => h hd⟩
  · rw [hdrop hd]
    exact ⟨fun _ h => absurd h hd, fun _ _ h => absurd h List.not_mem_nil⟩

/-- A frame of 20 bytes with a total length of 1000, for UDP. -/
def overlongFrame : List Byte :=
  [0x45, 0, 0x03, 0xE8] ++ List.replicate 4 0 ++ [64, 17] ++ List.replicate 10 0

/-- The header of the upcall promises 980 bytes behind the frame. -/
theorem ipLlRecv_outside_sample :
    ¬ ∀ (hdr : Header) (frame : List Byte), ∀ u ∈ upcalls hdr frame, u.Inside frame := by
  intro h
  have hmem : ∃ u ∈ upcalls Header.zero overlongFrame, u.header.totalLength = 1000 := by
    decide +kernel
  obtain ⟨u, hu, htotal⟩ := hmem
  have hle := (h Header.zero overlongFrame u hu).total_le
  rw [htotal] at hle
  revert hle
  decide

end Ip
end DtsNet
