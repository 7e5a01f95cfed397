import DtsNet.Ip.Input
import DtsNet.Ip.Output

/-!
# Icmp — echo replies

`icmp_pack`, `icmp_unpack` and `icmp_ip_recv`.  A reply is built over the request: the message
fields that were unpacked point into the buffer that is packed.  As before, a buffer is the memory
from its pointer on, and its size is kept beside it.
-/

namespace DtsNet
namespace Icmp

open Dblk Ip

/-! ## Messages -/

def icmpTypeEchoReply : UInt8 := 0
def icmpTypeUnreachable : UInt8 := 3
def icmpTypeEcho : UInt8 := 8

/-- The union `message`.  `data` is the place in the buffer that the data pointer points to; the
message of a destination that cannot be reached has only that and its size. -/
structure Message where
  identifier : UInt16
  sequenceNumber : UInt16
  data : ℕ
  dataSize : ℕ
  deriving DecidableEq, Repr

/-- An `icmp_t`, without its buffer. -/
structure IcmpT where
  type : UInt8
  code : UInt8
  checksum : UInt16
  message : Message
  dataSize : ℕ
  deriving DecidableEq, Repr

/-- `memcpy(ptr, message.data, message.data_size)`, both inside the buffer. -/
def copyMessageData (data : List Byte) (i : ℕ) (message : Message) : List Byte :=
  memWriteAt data i (memRead (data.drop message.data) message.dataSize)

/-- The checksum over the buffer, whose field is zero, is written into the field. -/
def fillChecksum (datagram : IcmpT) (data : List Byte) : IcmpT × List Byte :=
  let sum := checksum data datagram.dataSize
  ({ datagram with checksum := sum }, memWriteAt data 2 (bw16 sum))

/-- The datagram and the buffer as they are left, and the return value. -/
def icmpPack (datagram : IcmpT) (data : List Byte) : IcmpT × List Byte × Bool :=
  let datagram := { datagram with code := 0 }
  let data := memWriteAt data 0 ([datagram.type, 0] ++ bw16 0)
  if datagram.type = icmpTypeEchoReply ∨ datagram.type = icmpTypeEcho then
    if datagram.dataSize < 8 then
      (datagram, data, false)
    else
      let data := memWriteAt data 4 (bw16 datagram.message.identifier)
      let data := memWriteAt data 6 (bw16 datagram.message.sequenceNumber)
      let data := copyMessageData data 8 datagram.message
      let datagram := { datagram with dataSize := 8 + datagram.message.dataSize }
      let filled := fillChecksum datagram data
      (filled.1, filled.2, true)
  else if datagram.type = icmpTypeUnreachable then
    let data := memWriteAt data 4 (bw32 0)
    let data := copyMessageData data 8 datagram.message
    let datagram := { datagram with dataSize := 8 + datagram.message.dataSize }
    let filled := fillChecksum datagram data
    (filled.1, filled.2, true)
  else
    let filled := fillChecksum datagram data
    (filled.1, filled.2, true)

/-- The fields that are not set for a type keep what they held, which nothing reads. -/
def icmpUnpack (data : List Byte) (dataSize : ℕ) : Option IcmpT :=
  if dataSize < 4 then
    none
  else
    let type := data.getD 0 0
    let datagram :=
      { type := type
        code := data.getD 1 0
        checksum := br16 (data.drop 2)
        message := { identifier := 0, sequenceNumber := 0, data := 8, dataSize := dataSize - 8 }
        dataSize := dataSize }
    if type = icmpTypeEchoReply ∨ type = icmpTypeEcho then
      if dataSize < 8 then
        none
      else
        some
          { datagram with
            message :=
              { datagram.message with
                identifier := br16 (data.drop 4)
                sequenceNumber := br16 (data.drop 6) } }
    else if type = icmpTypeUnreachable then
      if dataSize < 8 then none else some datagram
    else
      none

/-! ## `icmp_ip_recv` -/

variable {σ : Type}

/-- `llSend` and `ident` are those of `ip_hl_send`; the payload node lies over the buffer. -/
def icmpIpRecv (llSend : σ → IpDatagram → σ × Bool) (ip : Netif) (ident : ℕ) (hdr : Header)
    (data : List Byte) (size : ℕ) (s : σ) : σ :=
  match icmpUnpack data size with
  | none => s
  | some datagram =>
      let hdr := { hdr with dest := hdr.src, src := ip.addr }
      if datagram.type = icmpTypeEcho then
        let datagram := { datagram with type := icmpTypeEchoReply, dataSize := size }
        let packed := icmpPack datagram data
        let payload : Block := [{ data := memRead packed.2.1 size, offset := 0 }]
        (ipHlSend llSend ip ident hdr payload s).1
      else
        s

/-! ## The reply in the buffer -/

section Reply

variable {data : List Byte} {size : ℕ}

/-- Writing back the word that was read changes nothing. -/
theorem memWriteAt_read {mem : List Byte} {i : ℕ} (h : i + 2 ≤ mem.length) :
    memWriteAt mem i (bw16 (br16 (mem.drop i))) = mem := by
  rw [memWriteAt_word h, ← split_word h]

/-- Nor does writing back the bytes that are there. -/
theorem memWriteAt_same {mem : List Byte} {i n : ℕ} (h : i + n ≤ mem.length) :
    memWriteAt mem i (memRead (mem.drop i) n) = mem := by
  have hlen : n ≤ (mem.drop i).length := by
    rw [List.length_drop]
    omega
  have htake : ((mem.drop i).take n).length = n := by
    rw [List.length_take]
    omega
  rw [memWriteAt, memWrite, memRead_eq_take hlen, htake, List.take_append_drop,
    List.take_append_drop]

/-- The buffer with another type, code and checksum. -/
def withFront (type code : UInt8) (sum : UInt16) (data : List Byte) : List Byte :=
  [type, code] ++ bw16 sum ++ data.drop 4

theorem length_withFront {type code : UInt8} {sum : UInt16} (h : 4 ≤ data.length) :
    (withFront type code sum data).length = data.length := by
  simp only [withFront, List.length_append, List.length_cons, List.length_nil, length_bw16,
    List.length_drop]
  omega

/-- Packing an echo message over itself changes only type, code and checksum. -/
theorem icmpPack_over {datagram : IcmpT} (hsize : 8 ≤ size) (hlen : size ≤ data.length)
    (htype : datagram.type = icmpTypeEchoReply) (hdata : datagram.dataSize = size)
    (hmessage : datagram.message =
      { identifier := br16 (data.drop 4), sequenceNumber := br16 (data.drop 6), data := 8,
        dataSize := size - 8 }) :
    (icmpPack datagram data).2.1 =
      withFront 0 0 (checksum (withFront 0 0 0 data) size) data := by
  let cleared := withFront 0 0 0 data
  have hcleared : memWriteAt data 0 ([0, 0] ++ bw16 0) = cleared := rfl
  have hlen' : cleared.length = data.length := length_withFront (by omega)
  have hdrop : ∀ i, cleared.drop (4 + i) = data.drop (4 + i) := by
    intro i
    rw [← List.drop_drop, ← List.drop_drop]
    rfl
  -- identifier, sequence number and data are written where they were read
  have hident : memWriteAt cleared 4 (bw16 (br16 (data.drop 4))) = cleared := by
    have h := memWriteAt_read (by omega : 4 + 2 ≤ cleared.length)
    rwa [hdrop 0] at h
  have hseq : memWriteAt cleared 6 (bw16 (br16 (data.drop 6))) = cleared := by
    have h := memWriteAt_read (by omega : 6 + 2 ≤ cleared.length)
    rwa [hdrop 2] at h
  have hcopy : memWriteAt cleared 8 (memRead (cleared.drop 8) (size - 8)) = cleared :=
    memWriteAt_same (by omega)
  have hnot : ¬ size < 8 := by omega
  have hfull : 8 + (size - 8) = size := by omega
  have hfill : memWriteAt cleared 2 (bw16 (checksum cleared size)) =
      withFront 0 0 (checksum cleared size) data := rfl
  have h0 : icmpTypeEchoReply = 0 := rfl
  simp only [icmpPack, htype, hdata, hmessage, true_or, if_true, if_neg hnot, copyMessageData,
    fillChecksum, h0]
  rw [hcleared, hident, hseq, hcopy, hfull, hfill]

/-- The reply verifies. -/
theorem checksum_withFront (hsize : 8 ≤ size) (hmax : size ≤ 65535) :
    checksum (withFront 0 0 (checksum (withFront 0 0 0 data) size) data) size = 0 := by
  have hbw : bw16 0 = [0, 0] := by decide
  have hlen : ([0, 0] : List Byte).length + 2 + (size - 4) = size := by
    simp only [List.length_cons, List.length_nil]
    omega
  simp only [withFront, hbw]
  exact checksum_filled rfl hlen hmax

end Reply

/-! ## Echo -/

theorem icmpUnpack_echo {data : List Byte} {size : ℕ} (hsize : 8 ≤ size)
    (htype : data.getD 0 0 = icmpTypeEcho) :
    icmpUnpack data size = some
      { type := icmpTypeEcho
        code := data.getD 1 0
        checksum := br16 (data.drop 2)
        message :=
          { identifier := br16 (data.drop 4), sequenceNumber := br16 (data.drop 6), data := 8,
            dataSize := size - 8 }
        dataSize := size } := by
  have h4 : ¬ size < 4 := by omega
  have h8 : ¬ size < 8 := by omega
  simp only [icmpUnpack, if_neg h4, if_neg h8, htype, or_true, if_true]

/-- What is unpacked has at least eight bytes, and the type of its first byte. -/
theorem icmpUnpack_some {data : List Byte} {size : ℕ} {datagram : IcmpT}
    (h : icmpUnpack data size = some datagram) :
    8 ≤ size ∧ datagram.type = data.getD 0 0 := by
  unfold icmpUnpack at h
  split at h
  · simp at h
  · dsimp only at h
    split at h
    · split at h
      · simp at h
      · next h8 =>
          simp only [Option.some.injEq] at h
          exact ⟨by omega, by rw [← h]⟩
    · split at h
      · split at h
        · simp at h
        · next h8 =>
            simp only [Option.some.injEq] at h
            exact ⟨by omega, by rw [← h]⟩
      · simp at h

/-- The datagram that is the echo of `size` bytes at `data`, for a request with the header `hdr`
that came in at the interface. -/
structure Mirrors (ip : Netif) (hdr : Header) (data : List Byte) (size : ℕ) (d : IpDatagram) :
    Prop where
  src : d.header.src = ip.addr
  dest : d.header.dest = hdr.src
  addresses : ip.addr.version = 4 →
    V4.ofMem (d.rawData.drop 12) = ip.addr.addr ∧ V4.ofMem (d.rawData.drop 16) = hdr.src.addr
  header_size : d.rawData.length = 20
  total : d.totalLength = 20 + size
  header_verifies : checksum d.rawData d.rawData.length = 0
  size_eq : d.payloadBytes.length = size
  type : d.payloadBytes.getD 0 0 = icmpTypeEchoReply
  code : d.payloadBytes.getD 1 0 = 0
  rest : d.payloadBytes.drop 4 = (memRead data size).drop 4
  verifies : checksum d.payloadBytes size = 0

/-- The header that `icmp_ip_recv` passes on. -/
def replyHeader (ip : Netif) (ident : ℕ) (hdr : Header) (size : ℕ) : Header :=
  { callHeader ip ident { hdr with dest := hdr.src, src := ip.addr } with
    totalLength := UInt16.ofNat size, fragmentOffset := 0 }

/-- The addresses of a plain header are where a receiver reads them. -/
theorem addresses_packedDatagram {hdr : Header} (hver : hdr.version = 4)
    (hopt : hdr.optionSize = 0) (payload : List VNode) :
    V4.ofMem ((packedDatagram hdr 64 payload).rawData.drop 12) = hdr.src.addr ∧
      V4.ofMem ((packedDatagram hdr 64 payload).rawData.drop 16) = hdr.dest.addr := by
  obtain ⟨sum, hplain⟩ := ipHeaderPack_plain hver hopt (by decide : 20 ≤ 64)
  simp only [packedDatagram, hplain]
  exact ⟨rfl, rfl⟩

/-- The covered bytes of the reply are those that are sent. -/
theorem checksum_memRead {mem : List Byte} {size : ℕ} (hmax : size ≤ 65535)
    (hzero : size % 2 = 1 → mem.getD size 0 = 0) :
    checksum (memRead mem size) size = checksum mem size := by
  have hread : memRead (memRead mem size) size = memRead mem size := by
    rw [memRead_eq_take (by rw [length_memRead]), take_memRead mem (Nat.le_refl size)]
  have hpast : size % 2 = 1 → (memRead mem size).getD size 0 = 0 := by
    intro _
    rw [List.getD_eq_getElem?_getD, List.getElem?_eq_none (by rw [length_memRead]),
      Option.getD_none]
  rw [checksum_eq hmax, checksum_eq hmax, wordSum_coveredBytes_of_zero hzero,
    wordSum_coveredBytes_of_zero hpast, hread]

/-- The buffer that the reply is made in. -/
def replyBuffer (data : List Byte) (size : ℕ) : List Byte :=
  withFront 0 0 (checksum (withFront 0 0 0 data) size) data

def replyPayload (data : List Byte) (size : ℕ) : Block :=
  [{ data := memRead (replyBuffer data size) size, offset := 0 }]

/-- Memory that begins with the same bytes has the same byte at a place among them. -/
theorem getD_of_take {mem mem' : List Byte} {n i : ℕ} (h : mem.take n = mem'.take n) (hi : i < n) :
    mem.getD i 0 = mem'.getD i 0 := by
  have hget : ∀ l : List Byte, (l.take n).getD i 0 = l.getD i 0 := by
    intro l
    rw [List.getD_eq_getElem?_getD, List.getElem?_take_of_lt hi, ← List.getD_eq_getElem?_getD]
  rw [← hget mem, h, hget mem']

theorem mirrors_reply (ip : Netif) (ident : ℕ) {hdr : Header} (hopt : hdr.optionSize = 0)
    {data : List Byte} {size : ℕ} (hsize : 8 ≤ size) (hlt : size < 1400)
    (hlen : size ≤ data.length) (hzero : size % 2 = 1 → data.getD size 0 = 0) :
    Mirrors ip hdr data size
      (packedDatagram (replyHeader ip ident hdr size) 64
        ((replyPayload data size).map Node.toVNode)) := by
  have hopt' : (replyHeader ip ident hdr size).optionSize = 0 := hopt
  let d := packedDatagram (replyHeader ip ident hdr size) 64
    ((replyPayload data size).map Node.toVNode)
  obtain ⟨sum, rest, -, hheader, -⟩ :=
    packedDatagram_eq hopt' (by decide : 20 ≤ 64) ((replyPayload data size).map Node.toVNode)
  -- the payload are the bytes of the buffer
  have hbytes : d.payloadBytes = memRead (replyBuffer data size) size := by
    have h := vbytes_toVNode (replyPayload data size)
    have hone : Block.bytes (replyPayload data size) = memRead (replyBuffer data size) size :=
      List.append_nil _
    exact h.trans hone
  have hbuffer : (replyBuffer data size).length = data.length := length_withFront (by omega)
  have htake : memRead (replyBuffer data size) size = (replyBuffer data size).take size :=
    memRead_eq_take (by omega)
  have hback : (replyBuffer data size).drop 4 = data.drop 4 := rfl
  have hfour : size = 4 + (size - 4) := by omega
  have hfront : (memRead (replyBuffer data size) size).take 4 = (replyBuffer data size).take 4 := by
    rw [take_memRead _ (by omega), memRead_eq_take (by omega)]
  refine
    { src := by rw [hheader]; rfl
      dest := by rw [hheader]; rfl
      addresses := ?_
      header_size := length_rawData hopt' (by decide) _
      total := totalLength_packed hopt' (by decide) _ rfl (by omega)
      header_verifies := checksum_rawData hopt' (by decide) _
      size_eq := by rw [hbytes, length_memRead]
      type := ?_
      code := ?_
      rest := ?_
      verifies := ?_ }
  · intro hver
    have hver' : (replyHeader ip ident hdr size).version = 4 := by
      simp only [replyHeader, callHeader, hver]
      rfl
    exact addresses_packedDatagram hver' hopt' _
  · rw [hbytes]
    exact getD_of_take hfront (by decide)
  · rw [hbytes]
    exact getD_of_take hfront (by decide)
  · rw [hbytes, hfour, drop_memRead, drop_memRead, ← hfour, hback]
  · rw [hbytes, checksum_memRead (by omega)]
    · exact checksum_withFront hsize (by omega)
    · -- the byte behind an odd message is the one behind the request
      intro hodd
      have hsame : (replyBuffer data size).getD size 0 = data.getD size 0 := by
        rw [hfour, ← getD_drop, ← getD_drop, ← hfour, hback]
      rw [hsame]
      exact hzero hodd

/-- An echo request of less than 1400 bytes is answered with one datagram, which mirrors it,
whatever the lower layer is; any other message with none. -/
theorem icmpIpRecv_mirrors (ip : Netif) (ident : ℕ) (hdr : Header) (data : List Byte) (size : ℕ) :
    (8 ≤ size → size < 1400 → data.getD 0 0 = icmpTypeEcho → size ≤ data.length →
        (size % 2 = 1 → data.getD size 0 = 0) → hdr.optionSize = 0 →
      ∃ d, Mirrors ip hdr data size d ∧
        ∀ {σ : Type} (llSend : σ → IpDatagram → σ × Bool) (s : σ),
          icmpIpRecv llSend ip ident hdr data size s = (llSend s d).1) ∧
    (size < 8 ∨ data.getD 0 0 ≠ icmpTypeEcho →
        ∀ {σ : Type} (llSend : σ → IpDatagram → σ × Bool) (s : σ),
          icmpIpRecv llSend ip ident hdr data size s = s) := by
  constructor
  · intro hsize hlt htype hlen hzero hopt
    refine ⟨_, mirrors_reply ip ident hopt hsize hlt hlen hzero, ?_⟩
    intro σ llSend s
    have hbytes : Block.bytes (replyPayload data size) = memRead (replyBuffer data size) size :=
      List.append_nil _
    have hshort : (Block.bytes (replyPayload data size)).length < 1400 := by
      rw [hbytes, length_memRead]
      exact hlt
    have hsend := ipHlSend_short llSend ip ident { hdr with dest := hdr.src, src := ip.addr }
      hshort s
    rw [hbytes, length_memRead] at hsend
    simp only [icmpIpRecv, icmpUnpack_echo hsize htype, if_true]
    rw [icmpPack_over hsize hlen rfl rfl rfl]
    exact congrArg Prod.fst hsend
  · -- a reply to an echo is unpacked too, but not answered
    intro hother σ llSend s
    cases hread : icmpUnpack data size with
    | none =>
        simp only [icmpIpRecv, hread]
    | some datagram =>
        obtain ⟨hsize, htype⟩ := icmpUnpack_some hread
        have hne : datagram.type ≠ icmpTypeEcho := by
          rw [htype]
          exact hother.resolve_left (by omega)
        simp only [icmpIpRecv, hread, if_neg hne]

/-- An echo request with five bytes of data. -/
def sampleRequest : List Byte :=
  [8, 0, 0, 0, 0, 1, 0, 2, 10, 20, 30, 40, 50]

theorem icmpIpRecv_mirrors_sample :
    ∃ d, Mirrors sampleNetif sampleHeader sampleRequest 13 d ∧
      (icmpIpRecv logSend sampleNetif 0 sampleHeader sampleRequest 13 []) = [d] := by
  obtain ⟨d, hmirrors, hsent⟩ :=
    (icmpIpRecv_mirrors sampleNetif 0 sampleHeader sampleRequest 13).1 (by decide) (by decide)
      (by decide) (by decide) (by decide) (by decide)
  exact ⟨d, hmirrors, hsent logSend []⟩

end Icmp
end DtsNet
