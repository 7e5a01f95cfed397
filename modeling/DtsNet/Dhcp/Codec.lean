import DtsNet.Dhcp.Message
import Mathlib.Tactic.IntervalCases

/-!
# Codec — DHCP messages there and back

`dhcp_message_pack` stores words in the order of the host after `htonl` and `htons`, which is the
network's order on every host.  `dhcp_message_unpack` reads the words of four bytes back, but those
of two bytes, `secs` and `flags`, go through `ntohl`: on a little-endian host nothing is left of
them.
-/

namespace DtsNet
namespace Dhcp

open Dblk

/-! ## Words in the order of the host -/

namespace Host

def htonl (host : Host) (hl : UInt32) : UInt32 :=
  match host with
  | .littleEndian =>
      ((hl <<< 24) ||| (hl >>> 24)) ||| ((hl &&& 0x00FF0000) >>> 8) ||| ((hl &&& 0x0000FF00) <<< 8)
  | .bigEndian => hl

def htons (host : Host) (hs : UInt16) : UInt16 :=
  match host with
  | .littleEndian => (hs <<< 8) ||| (hs >>> 8)
  | .bigEndian => hs

/-- The bytes that `*((uint32_t *)ptr) = x` writes. -/
def store32 (host : Host) (x : UInt32) : List Byte :=
  match host with
  | .littleEndian => (bw32 x).reverse
  | .bigEndian => bw32 x

/-- The bytes that `*((uint16_t *)ptr) = x` writes. -/
def store16 (host : Host) (x : UInt16) : List Byte :=
  match host with
  | .littleEndian => (bw16 x).reverse
  | .bigEndian => bw16 x

/-- `*((uint32_t *)ptr)`. -/
def load32 (host : Host) (mem : List Byte) : UInt32 :=
  match host with
  | .littleEndian => br32 (memRead mem 4).reverse
  | .bigEndian => br32 mem

end Host

/-- Byte by byte, `htonl` turns the word round. -/
theorem bw32_htonl_little (x : UInt32) : bw32 (Host.littleEndian.htonl x) = (bw32 x).reverse := by
  simp only [bw32, List.reverse_cons, List.reverse_nil, List.nil_append, List.cons_append,
    List.cons.injEq, and_true]
  -- a bit of each byte comes from one of the four terms
  refine ⟨?_, ?_, ?_, ?_⟩ <;> apply UInt8.toBitVec_inj.1
  · ext i hi
    interval_cases i <;> simp [Host.htonl]
  · ext i hi
    interval_cases i <;> simp [Host.htonl]
  · ext i hi
    interval_cases i <;> simp [Host.htonl]
  · ext i hi
    interval_cases i <;> simp [Host.htonl]

theorem htonl_little (x : UInt32) : Host.littleEndian.htonl x = br32 (bw32 x).reverse := by
  calc
    Host.littleEndian.htonl x = br32 (bw32 (Host.littleEndian.htonl x) ++ []) :=
      (br32_bw32_append _ []).symm
    _ = br32 (bw32 x).reverse := by rw [List.append_nil, bw32_htonl_little]

/-- In the source, `ntohl` is `htonl`. -/
theorem ntohl_eq_htonl (host : Host) (x : UInt32) : host.ntohl x = host.htonl x := by
  cases host with
  | littleEndian =>
      apply UInt32.toBitVec_inj.1
      ext i hi
      interval_cases i <;> simp [Host.ntohl, Host.htonl]
  | bigEndian =>
      rfl

theorem store32_htonl (host : Host) (x : UInt32) : host.store32 (host.htonl x) = bw32 x := by
  cases host with
  | littleEndian =>
      rw [Host.store32, htonl_little, bw32_br32 (List.length_reverse), List.reverse_reverse]
  | bigEndian =>
      rfl

theorem store16_htons (host : Host) (x : UInt16) : host.store16 (host.htons x) = bw16 x := by
  cases host with
  | littleEndian =>
      have hlow : ((Host.littleEndian.htons x) &&& 0xFF).toUInt8 =
          ((x >>> 8) &&& 0xFF).toUInt8 := by
        apply UInt8.toBitVec_inj.1
        ext i hi
        interval_cases i <;> simp [Host.htons]
      have hhigh : ((Host.littleEndian.htons x >>> 8) &&& 0xFF).toUInt8 = (x &&& 0xFF).toUInt8 := by
        apply UInt8.toBitVec_inj.1
        ext i hi
        interval_cases i <;> simp [Host.htons]
      simp [Host.store16, bw16, hlow, hhigh]
  | bigEndian =>
      rfl

theorem br32_memRead (mem : List Byte) : br32 (memRead mem 4) = br32 mem := by
  match mem with
  | [] => rfl
  | [_] => rfl
  | [_, _] => rfl
  | [_, _, _] => rfl
  | _ :: _ :: _ :: _ :: _ => rfl

theorem ntohl_load32 (host : Host) (mem : List Byte) : host.ntohl (host.load32 mem) = br32 mem := by
  cases host with
  | littleEndian =>
      have hlen : (memRead mem 4).reverse.length = 4 := by simp
      rw [ntohl_eq_htonl, htonl_little, Host.load32, bw32_br32 hlen, List.reverse_reverse,
        br32_memRead]
  | bigEndian =>
      rfl

/-- Both bytes go to the half of the word that is cut off. -/
theorem ntohl_load16_little (mem : List Byte) :
    (Host.littleEndian.ntohl (Host.littleEndian.load16 mem)).toUInt16 = 0 := by
  apply UInt16.toBitVec_inj.1
  ext i hi
  interval_cases i <;> simp [Host.ntohl, Host.load16]

theorem ntohl_load16_big (mem : List Byte) :
    (Host.bigEndian.ntohl (Host.bigEndian.load16 mem)).toUInt16 = br16 mem := by
  simp [Host.ntohl, Host.load16, br16]

/-! ## The bytes of a message -/

/-- The bytes that `dhcp_message_pack` writes on this host. -/
def Host.dhcpMessageBytes (host : Host) (msg : DhcpMessage) : List Byte :=
  [msg.op, msg.htype, msg.hlen, msg.hops] ++ host.store32 (host.htonl msg.xid) ++
    host.store16 (host.htons msg.secs) ++ host.store16 (host.htons msg.flags) ++
    host.store32 (host.htonl msg.ciaddr) ++ host.store32 (host.htonl msg.yiaddr) ++
    host.store32 (host.htonl msg.siaddr) ++ host.store32 (host.htonl msg.giaddr) ++
    memRead msg.chaddr 16 ++ memRead msg.sname 64 ++ memRead msg.file 128 ++
    memRead msg.option msg.optionSize

/-- `dhcp_message_pack` on this host. -/
def Host.dhcpMessagePack (host : Host) (msg : DhcpMessage) (rawData : List Byte)
    (rawDataSize : ℕ) : List Byte × ℕ × Bool :=
  if rawDataSize < 236 + msg.optionSize then
    (rawData, rawDataSize, false)
  else
    (memWrite rawData (host.dhcpMessageBytes msg), 236 + msg.optionSize, true)

theorem host_dhcpMessageBytes (host : Host) (msg : DhcpMessage) :
    host.dhcpMessageBytes msg = dhcpMessageBytes msg := by
  simp only [Host.dhcpMessageBytes, store32_htonl, store16_htons, dhcpMessageBytes]

/-- The bytes on the wire do not depend on the host. -/
theorem host_dhcpMessagePack (host : Host) (msg : DhcpMessage) (rawData : List Byte)
    (rawDataSize : ℕ) :
    host.dhcpMessagePack msg rawData rawDataSize = dhcpMessagePack msg rawData rawDataSize := by
  rw [Host.dhcpMessagePack, host_dhcpMessageBytes, dhcpMessagePack]

/-! ## What is read back -/

/-- What becomes of `secs` and `flags`. -/
def Host.short (host : Host) (x : UInt16) : UInt16 :=
  match host with
  | .littleEndian => 0
  | .bigEndian => x

theorem ntohl_load16 (host : Host) (x : UInt16) (rest : List Byte) :
    (host.ntohl (host.load16 (bw16 x ++ rest))).toUInt16 = host.short x := by
  cases host with
  | littleEndian =>
      exact ntohl_load16_little _
  | bigEndian =>
      rw [ntohl_load16_big, br16_bw16_append]
      rfl

theorem dhcpMessageUnpack_bytes (host : Host) {msg : DhcpMessage} (hoption : 5 ≤ msg.optionSize)
    (rest : List Byte) :
    dhcpMessageUnpack host (dhcpMessageBytes msg ++ rest) (236 + msg.optionSize) =
      some
        { msg with
          secs := host.short msg.secs
          flags := host.short msg.flags
          chaddr := memRead msg.chaddr 16
          sname := memRead msg.sname 64
          file := memRead msg.file 128
          option := memRead msg.option msg.optionSize ++ rest } := by
  have hsize : ¬ 236 + msg.optionSize < 241 := by omega
  have hoptionSize : 236 + msg.optionSize - 236 = msg.optionSize := Nat.add_sub_cancel_left _ _
  obtain ⟨option, hopt⟩ : ∃ l, l = memRead msg.option msg.optionSize ++ rest := ⟨_, rfl⟩
  obtain ⟨file, hfile⟩ : ∃ l, l = memRead msg.file 128 ++ option := ⟨_, rfl⟩
  obtain ⟨sname, hsname⟩ : ∃ l, l = memRead msg.sname 64 ++ file := ⟨_, rfl⟩
  obtain ⟨chaddr, hchaddr⟩ : ∃ l, l = memRead msg.chaddr 16 ++ sname := ⟨_, rfl⟩
  -- the fields before `chaddr` have 28 bytes
  have hbytes : dhcpMessageBytes msg ++ rest =
      [msg.op, msg.htype, msg.hlen, msg.hops] ++ (bw32 msg.xid ++ (bw16 msg.secs ++
        (bw16 msg.flags ++ (bw32 msg.ciaddr ++ (bw32 msg.yiaddr ++ (bw32 msg.siaddr ++
          (bw32 msg.giaddr ++ chaddr))))))) := by
    simp only [dhcpMessageBytes, hchaddr, hsname, hfile, hopt, List.append_assoc]
  have h28 : (dhcpMessageBytes msg ++ rest).drop 28 = chaddr := by
    rw [hbytes]
    rfl
  have h44 : (dhcpMessageBytes msg ++ rest).drop 44 = sname := by
    rw [show 44 = 28 + 16 from rfl, ← List.drop_drop, h28, hchaddr,
      List.drop_left' (length_memRead _ _)]
  have h108 : (dhcpMessageBytes msg ++ rest).drop 108 = file := by
    rw [show 108 = 44 + 64 from rfl, ← List.drop_drop, h44, hsname,
      List.drop_left' (length_memRead _ _)]
  have h236 : (dhcpMessageBytes msg ++ rest).drop 236 = option := by
    rw [show 236 = 108 + 128 from rfl, ← List.drop_drop, h108, hfile,
      List.drop_left' (length_memRead _ _)]
  have hread : ∀ (mem tail : List Byte) (n : ℕ),
      memRead (memRead mem n ++ tail) n = memRead mem n :=
    fun mem tail n => memRead_append_of_length (length_memRead mem n) tail
  rw [dhcpMessageUnpack, if_neg hsize, h28, h44, h108, h236, hoptionSize]
  have hchaddrRead : memRead chaddr 16 = memRead msg.chaddr 16 := hchaddr ▸ hread _ _ _
  have hsnameRead : memRead sname 64 = memRead msg.sname 64 := hsname ▸ hread _ _ _
  have hfileRead : memRead file 128 = memRead msg.file 128 := hfile ▸ hread _ _ _
  -- the words, each at its place
  have hxid : br32 ((dhcpMessageBytes msg ++ rest).drop 4) = msg.xid := by
    rw [hbytes]
    exact br32_bw32_append msg.xid _
  have hsecs : (host.ntohl (host.load16 ((dhcpMessageBytes msg ++ rest).drop 8))).toUInt16 =
      host.short msg.secs := by
    rw [hbytes]
    exact ntohl_load16 host msg.secs _
  have hflags : (host.ntohl (host.load16 ((dhcpMessageBytes msg ++ rest).drop 10))).toUInt16 =
      host.short msg.flags := by
    rw [hbytes]
    exact ntohl_load16 host msg.flags _
  have hciaddr : br32 ((dhcpMessageBytes msg ++ rest).drop 12) = msg.ciaddr := by
    rw [hbytes]
    exact br32_bw32_append msg.ciaddr _
  have hyiaddr : br32 ((dhcpMessageBytes msg ++ rest).drop 16) = msg.yiaddr := by
    rw [hbytes]
    exact br32_bw32_append msg.yiaddr _
  have hsiaddr : br32 ((dhcpMessageBytes msg ++ rest).drop 20) = msg.siaddr := by
    rw [hbytes]
    exact br32_bw32_append msg.siaddr _
  have hgiaddr : br32 ((dhcpMessageBytes msg ++ rest).drop 24) = msg.giaddr := by
    rw [hbytes]
    exact br32_bw32_append msg.giaddr _
  rw [hxid, hsecs, hflags, hciaddr, hyiaddr, hsiaddr, hgiaddr, hchaddrRead, hsnameRead, hfileRead,
    hbytes, hopt]
  rfl

/-! ## The round trip -/

/-- The sizes of the three arrays of a `dhcp_message_t`. -/
structure DhcpMessage.Sized (msg : DhcpMessage) : Prop where
  chaddr : msg.chaddr.length = 16
  sname : msg.sname.length = 64
  file : msg.file.length = 128

/-- A message with nothing behind its option area. -/
def DhcpMessage.value (msg : DhcpMessage) : DhcpMessage :=
  { msg with option := memRead msg.option msg.optionSize }

/-- A message that is packed into a buffer of `rawDataSize` bytes and unpacked again. -/
structure RoundTrip (host : Host) (msg : DhcpMessage) (rawData : List Byte) (rawDataSize : ℕ) :
    Prop where
  refused : (host.dhcpMessagePack msg rawData rawDataSize).2.2 = false ↔
    rawDataSize < 236 + msg.optionSize
  untouched : (host.dhcpMessagePack msg rawData rawDataSize).2.2 = false →
    host.dhcpMessagePack msg rawData rawDataSize = (rawData, rawDataSize, false)
  size : (host.dhcpMessagePack msg rawData rawDataSize).2.2 = true →
    (host.dhcpMessagePack msg rawData rawDataSize).2.1 = 236 + msg.optionSize
  unpacked : (host.dhcpMessagePack msg rawData rawDataSize).2.2 = true →
    (dhcpMessageUnpack host (host.dhcpMessagePack msg rawData rawDataSize).1
      (host.dhcpMessagePack msg rawData rawDataSize).2.1).map DhcpMessage.value = some msg.value

theorem dhcpMessagePack_refused {msg : DhcpMessage} {rawDataSize : ℕ}
    (h : rawDataSize < 236 + msg.optionSize) (host : Host) (rawData : List Byte) :
    host.dhcpMessagePack msg rawData rawDataSize = (rawData, rawDataSize, false) :=
  if_pos h

theorem dhcpMessagePack_packed {msg : DhcpMessage} {rawDataSize : ℕ}
    (h : ¬ rawDataSize < 236 + msg.optionSize) (host : Host) (rawData : List Byte) :
    host.dhcpMessagePack msg rawData rawDataSize =
      (memWrite rawData (dhcpMessageBytes msg), 236 + msg.optionSize, true) := by
  rw [host_dhcpMessagePack, dhcpMessagePack, if_neg h]

/-- Of all fields, only `secs` and `flags` may differ. -/
theorem unpack_packed (host : Host) {msg : DhcpMessage} (hsized : msg.Sized)
    (hoption : 5 ≤ msg.optionSize) (rawData : List Byte) :
    (dhcpMessageUnpack host (memWrite rawData (dhcpMessageBytes msg))
      (236 + msg.optionSize)).map DhcpMessage.value =
        some { msg.value with secs := host.short msg.secs, flags := host.short msg.flags } := by
  rw [memWrite, dhcpMessageUnpack_bytes host hoption, memRead_of_length hsized.chaddr,
    memRead_of_length hsized.sname, memRead_of_length hsized.file]
  simp only [Option.map_some, DhcpMessage.value]
  rw [memRead_append_of_length (length_memRead _ _)]

theorem short_eq_iff (host : Host) (x : UInt16) : host.short x = x ↔ host = .bigEndian ∨ x = 0 := by
  cases host with
  | littleEndian =>
      simp [Host.short, eq_comm]
  | bigEndian =>
      simp [Host.short]

/-- A message survives the round trip just when it is refused, the host is big-endian, or there is
nothing in the two fields. -/
theorem roundTrip_iff (host : Host) {msg : DhcpMessage} (hsized : msg.Sized)
    (hoption : 5 ≤ msg.optionSize) (rawData : List Byte) (rawDataSize : ℕ) :
    RoundTrip host msg rawData rawDataSize ↔
      rawDataSize < 236 + msg.optionSize ∨ host = .bigEndian ∨ msg.secs = 0 ∧ msg.flags = 0 := by
  by_cases hrefused : rawDataSize < 236 + msg.optionSize
  · have hpack := dhcpMessagePack_refused hrefused host rawData
    refine iff_of_true ?_ (Or.inl hrefused)
    constructor <;> simp [hpack, hrefused]
  · have hpack := dhcpMessagePack_packed hrefused host rawData
    have hunpack := unpack_packed host hsized hoption rawData
    have hvalue : some { msg.value with
          secs := host.short msg.secs
          flags := host.short msg.flags } = some msg.value ↔
        host.short msg.secs = msg.secs ∧ host.short msg.flags = msg.flags := by
      constructor
      · intro h
        have hmsg := Option.some.inj h
        exact ⟨congrArg DhcpMessage.secs hmsg, congrArg DhcpMessage.flags hmsg⟩
      · rintro ⟨hsecs, hflags⟩
        rw [hsecs, hflags]
        rfl
    have hcond : host.short msg.secs = msg.secs ∧ host.short msg.flags = msg.flags ↔
        host = .bigEndian ∨ msg.secs = 0 ∧ msg.flags = 0 := by
      rw [short_eq_iff, short_eq_iff, ← or_and_left]
    rw [or_iff_right hrefused, ← hcond, ← hvalue, ← hunpack]
    -- the size and the refusal are right in any case, so that the fields decide
    constructor
    · intro h
      have hunpacked := h.unpacked (by rw [hpack])
      rw [hpack] at hunpacked
      rw [hunpack, ← hunpacked, hunpack]
    · intro h
      constructor
      · simp [hpack, hrefused]
      · simp [hpack]
      · simp [hpack]
      · intro _
        rw [hpack]
        exact h

/-- A message without options, `secs` seconds after the start. -/
def plainMessage (secs : UInt16) : DhcpMessage :=
  { dhcpMessageInit with
    op := bootRequest
    xid := 7
    secs := secs
    option := dhcpOptMagic ++ [dhcpOptEnd]
    optionSize := 5 }

theorem plainMessage_sized (secs : UInt16) : (plainMessage secs).Sized :=
  { chaddr := rfl
    sname := rfl
    file := rfl }

theorem roundTrip_sample : RoundTrip .littleEndian (plainMessage 0) (List.replicate 300 0) 300 :=
  (roundTrip_iff .littleEndian (plainMessage_sized 0) (by decide) _ 300).2 (by decide)

/-- Three seconds after the start, `secs` is read back as zero. -/
theorem roundTrip_fails_sample :
    (plainMessage 3).Sized ∧
      ¬ RoundTrip .littleEndian (plainMessage 3) (List.replicate 300 0) 300 := by
  have hroom : ¬ 300 < 236 + (plainMessage 3).optionSize := by decide
  refine ⟨plainMessage_sized 3, fun h => ?_⟩
  have hunpacked := h.unpacked (by rw [dhcpMessagePack_packed hroom])
  rw [dhcpMessagePack_packed hroom,
    unpack_packed .littleEndian (plainMessage_sized 3) (by decide)] at hunpacked
  exact absurd (congrArg DhcpMessage.secs (Option.some.inj hunpacked)) (by decide)

end Dhcp
end DtsNet
