import DtsNet.Dblk.Copy
import DtsNet.Endian

/-!
# Ether — Ethernet frames

`ether_pack`, `ether_unpack` and `ether_hl_send`.  The driver is a step function on a state of its
own that gets the bytes of a frame and says whether it took them.
-/

namespace DtsNet
namespace Ether

open Dblk

/-! ## Addresses, interfaces and frames -/

structure Mac where
  (m1 m2 m3 m4 m5 m6 : UInt8)
  deriving DecidableEq, Repr

def Mac.bytes (m : Mac) : List Byte :=
  [m.m1, m.m2, m.m3, m.m4, m.m5, m.m6]

/-- The address in the first six bytes of the memory. -/
def Mac.ofMem (mem : List Byte) : Mac :=
  ⟨mem.getD 0 0, mem.getD 1 0, mem.getD 2 0, mem.getD 3 0, mem.getD 4 0, mem.getD 5 0⟩

@[simp] theorem Mac.length_bytes (m : Mac) : m.bytes.length = 6 := rfl

@[simp] theorem Mac.ofMem_bytes (m : Mac) (rest : List Byte) : Mac.ofMem (m.bytes ++ rest) = m :=
  rfl

def ethernetBroadcastAddress : Mac :=
  ⟨0xFF, 0xFF, 0xFF, 0xFF, 0xFF, 0xFF⟩

def etherTypeArp : UInt16 := 0x0806
def etherTypeIp : UInt16 := 0x0800

/-- An `ether_t`; `handle` stands for the pointer to it. -/
structure EtherT where
  handle : ℕ
  macAddress : Mac
  deriving DecidableEq, Repr

/-- An `ether_frame_t` to send: `data` is the memory of its buffer. -/
structure Frame where
  destMacAddr : Mac
  srcMacAddr : Mac
  payload : List VNode
  type : UInt16
  data : List Byte
  dataSize : ℕ
  deriving DecidableEq, Repr

/-! ## Packing and sending -/

/-- A type below 0x05DC is a length, which is only written for a payload that needs padding. -/
def etherPack (frame : Frame) : Frame :=
  let data := memWriteAt frame.data 0 frame.destMacAddr.bytes
  let data := memWriteAt data 6 frame.srcMacAddr.bytes
  let data :=
    if frame.type < 0x05DC then
      if dblkVSize frame.payload < 46 then memWriteAt data 12 (bw16 46) else data
    else
      memWriteAt data 12 (bw16 frame.type)
  let r := dblkCopyTo frame.payload (data.drop 14) (frame.dataSize - 14)
  { frame with data := data.take 14 ++ r.1, dataSize := r.2 + 14 }

variable {σ : Type}

/-- The driver gets the first `data_size` bytes of the buffer. -/
def etherHlSend (send : σ → EtherT → List Byte → σ × Bool) (ether : EtherT) (frame : Frame)
    (s : σ) : Frame × σ × Bool :=
  let frame := etherPack { frame with srcMacAddr := ether.macAddress }
  (frame, send s ether (memRead frame.data frame.dataSize))

/-! ## Unpacking -/

/-- What `ether_unpack` finds: the payload is the memory from the pointer on, with its size in 16
bits. -/
structure Unpacked where
  destMacAddr : Mac
  srcMacAddr : Mac
  type : UInt16
  payload : List Byte
  payloadSize : ℕ
  crc : UInt32
  deriving DecidableEq, Repr

def etherUnpack (data : List Byte) (dataSize : ℕ) : Option Unpacked :=
  if dataSize < 64 then
    none
  else
    -- the minimum counts the checksum, the size of the payload does not
    let payloadSize := (UInt16.ofNat (dataSize - 12 - 2 - 4)).toNat
    some
      { destMacAddr := Mac.ofMem data
        srcMacAddr := Mac.ofMem (data.drop 6)
        type := br16 (data.drop 12)
        payload := data.drop 14
        payloadSize := payloadSize
        crc := br32 (data.drop (14 + payloadSize)) }

/-! ## What a packed frame is -/

/-- The bytes of a frame without padding and checksum. -/
def frameBytes (dest src : Mac) (type : UInt16) (payload : List Byte) : List Byte :=
  dest.bytes ++ src.bytes ++ bw16 type ++ payload

theorem length_frameBytes (dest src : Mac) (type : UInt16) (payload : List Byte) :
    (frameBytes dest src type payload).length = 14 + payload.length := by
  simp only [frameBytes, List.length_append, Mac.length_bytes, length_bw16]

/-- The buffer of a packed frame. -/
theorem etherPack_eq {frame : Frame} (htype : ¬ frame.type < 0x05DC)
    (hwf : ∀ n ∈ frame.payload, n.WellFormed)
    (hsize : (vbytes frame.payload).length + 14 ≤ frame.dataSize) :
    etherPack frame =
      { frame with
        data := memWrite frame.data (frameBytes frame.destMacAddr frame.srcMacAddr frame.type
          (vbytes frame.payload))
        dataSize := (vbytes frame.payload).length + 14 } := by
  let dest := frame.destMacAddr.bytes
  let src := frame.srcMacAddr.bytes
  -- the three fields of the header are written one behind the other
  have h0 : memWriteAt frame.data 0 dest = dest ++ frame.data.drop 6 :=
    memWriteAt_length [] frame.data dest
  have h6 : memWriteAt (dest ++ frame.data.drop 6) 6 src =
      (dest ++ src) ++ (frame.data.drop 6).drop 6 := memWriteAt_length dest _ src
  have h12 : memWriteAt ((dest ++ src) ++ (frame.data.drop 6).drop 6) 12 (bw16 frame.type) =
      (dest ++ src ++ bw16 frame.type) ++ ((frame.data.drop 6).drop 6).drop 2 :=
    memWriteAt_length (dest ++ src) _ (bw16 frame.type)
  have hhead : (dest ++ src ++ bw16 frame.type).length = 14 := rfl
  have htake : ∀ rest, ((dest ++ src ++ bw16 frame.type) ++ rest).take 14 =
      dest ++ src ++ bw16 frame.type := fun rest => List.take_left' hhead
  have hdrop : ∀ rest, ((dest ++ src ++ bw16 frame.type) ++ rest).drop 14 = rest :=
    fun rest => List.drop_left' hhead
  have hcopy : dblkCopyTo frame.payload (((frame.data.drop 6).drop 6).drop 2)
      (frame.dataSize - 14) = _ := dblkCopyTo_whole hwf (by omega)
  have hlen := length_frameBytes frame.destMacAddr frame.srcMacAddr frame.type
    (vbytes frame.payload)
  rw [etherPack, if_neg htype, h0, h6, h12, hdrop, htake, hcopy]
  simp only [memWrite, hlen, List.drop_drop]
  congr 1

/-- With room for it, the frame that the driver gets is the header and the whole payload. -/
theorem etherHlSend_eq (send : σ → EtherT → List Byte → σ × Bool) (ether : EtherT)
    {frame : Frame} (s : σ) (htype : ¬ frame.type < 0x05DC)
    (hwf : ∀ n ∈ frame.payload, n.WellFormed)
    (hsize : (vbytes frame.payload).length + 14 ≤ frame.dataSize) :
    (etherHlSend send ether frame s).2 =
      send s ether (frameBytes frame.destMacAddr ether.macAddress frame.type
        (vbytes frame.payload)) := by
  have hpack : etherPack { frame with srcMacAddr := ether.macAddress } = _ :=
    etherPack_eq htype hwf hsize
  have hread : ∀ mem bs : List Byte, memRead (memWrite mem bs) bs.length = bs := by
    intro mem bs
    simp [memWrite, memRead_append_left]
  have hlen := length_frameBytes frame.destMacAddr ether.macAddress frame.type
    (vbytes frame.payload)
  simp only [etherHlSend, hpack]
  rw [Nat.add_comm, ← hlen, hread]

/-! ## A packed frame on the wire -/

/-- A frame arrives with its padding and four bytes of checksum behind it. -/
theorem etherUnpack_frameBytes {dest src : Mac} {type : UInt16} {payload tail rest : List Byte}
    {dataSize : ℕ} (hsize : dataSize = 14 + payload.length + tail.length) (hmin : 64 ≤ dataSize)
    (hmax : dataSize < 65536 + 18) :
    ∃ crc, etherUnpack (frameBytes dest src type payload ++ tail ++ rest) dataSize =
      some
        { destMacAddr := dest
          srcMacAddr := src
          type := type
          payload := payload ++ tail ++ rest
          payloadSize := dataSize - 18
          crc := crc } := by
  have hnot : ¬ dataSize < 64 := by omega
  have hpay : (UInt16.ofNat (dataSize - 12 - 2 - 4)).toNat = dataSize - 18 := by
    rw [UInt16.toNat_ofNat_of_lt' (show dataSize - 12 - 2 - 4 < 65536 by omega)]
    omega
  have hmem : frameBytes dest src type payload ++ tail ++ rest =
      dest.bytes ++ (src.bytes ++ (bw16 type ++ (payload ++ tail ++ rest))) := by
    simp [frameBytes]
  have h6 : (dest.bytes ++ (src.bytes ++ (bw16 type ++ (payload ++ tail ++ rest)))).drop 6 =
      src.bytes ++ (bw16 type ++ (payload ++ tail ++ rest)) := rfl
  have h12 : (dest.bytes ++ (src.bytes ++ (bw16 type ++ (payload ++ tail ++ rest)))).drop 12 =
      bw16 type ++ (payload ++ tail ++ rest) := rfl
  have h14 : (dest.bytes ++ (src.bytes ++ (bw16 type ++ (payload ++ tail ++ rest)))).drop 14 =
      payload ++ tail ++ rest := rfl
  refine ⟨br32 ((dest.bytes ++ (src.bytes ++ (bw16 type ++ (payload ++ tail ++ rest)))).drop
    (14 + (dataSize - 18))), ?_⟩
  rw [etherUnpack, if_neg hnot, hmem, hpay, h6, h12, h14, Mac.ofMem_bytes, Mac.ofMem_bytes,
    br16_bw16_append]

end Ether
end DtsNet
