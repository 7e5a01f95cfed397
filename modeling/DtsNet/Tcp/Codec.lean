import DtsNet.Dblk.Merge
import DtsNet.Tcp.Wire

/-!
# Codec — `tcp_pack` with options, and what `tcp_unpack` makes of it

`tcp_pack` sums up pseudo header, header, options and payload one by one and chains the three nodes
to one block; `tcp_unpack` sums up the bytes in one piece and cuts them by the data offset.  The word
that ends a payload of odd size takes in the byte that lies behind it in memory, on either side.
-/

namespace DtsNet
namespace Tcp

open Ip Dblk OnesComplement

/-! ## `tcp_pack` on nodes -/

/-- A `tcp_segment_t` with its blocks, `raw_data` being the node of the header; the empty block
stands for the null pointer. -/
structure SegmentBlocks where
  srcPort : UInt16
  destPort : UInt16
  seq : UInt32
  ack : UInt32
  dataOffset : UInt16
  flags : UInt16
  win : UInt16
  checksum : UInt16
  urgentPtr : UInt16
  options : Block
  payload : Block
  rawData : Node
  deriving DecidableEq, Repr

/-- The fields that are written to the header. -/
def SegmentBlocks.fields (seg : SegmentBlocks) : Segment :=
  { srcPort := seg.srcPort
    destPort := seg.destPort
    seq := seg.seq
    ack := seg.ack
    dataOffset := seg.dataOffset
    flags := seg.flags
    win := seg.win
    urgentPtr := seg.urgentPtr
    payload := seg.payload.bytes }

/-- `dblk_merge`, for a block with nothing behind it.  Only the first node of the second block is
linked in: its `next` becomes the one of the last node before it. -/
def dblkMerge : Block → Block → Block
  | b, [] => b
  | b, n :: _ => b ++ [n]

/-- `if (b) sum = checksum_accmulate(sum, b->data, b->size)`; `behind` is what lies behind the data of
the node in memory. -/
def accmulateFirst (sum : ℕ) (behind : List Byte) : Block → ℕ
  | [] => sum
  | n :: _ => checksumAccmulate sum (n.data ++ behind) n.size

/-- The segment with its checksum, and the block that its raw data has become; nothing unless the
header node is larger than the header with its options.  `behindOptions` and `behind` lie behind the
options and behind the payload in memory. -/
def tcpPackBlocks (src dest : V4) (protocol : UInt8) (seg : SegmentBlocks)
    (behindOptions behind : List Byte) : Option (SegmentBlocks × Block) :=
  if 20 + dblkSize seg.options < seg.rawData.size then
    let header := tcpHeader seg.fields 0
    let length := UInt16.ofNat (20 + dblkSize seg.options + dblkSize seg.payload)
    let sum := checksumAccmulate 0 (Udp.pseudoHeaderPack src dest protocol length) 12
    let sum := checksumAccmulate sum header 20
    let sum := accmulateFirst sum behindOptions seg.options
    let sum := accmulateFirst sum behind seg.payload
    let seg := { seg with checksum := checksumComplete sum }
    let rawData := { seg.rawData with data := memWriteAt header 16 (bw16 seg.checksum) }
    some (seg, dblkMerge (dblkMerge [rawData] seg.options) seg.payload)
  else
    none

/-! ## Blocks of one node -/

/-- The block is absent, or one node. -/
def AtMostOne (b : Block) : Prop :=
  b.length ≤ 1

theorem dblkMerge_of_atMostOne {b n : Block} (h : AtMostOne n) : dblkMerge b n = b ++ n := by
  match n, h with
  | [], _ =>
      exact (List.append_nil b).symm
  | [_], _ =>
      rfl

theorem accmulateFirst_of_atMostOne {b : Block} (h : AtMostOne b) (sum : ℕ) (behind : List Byte) :
    accmulateFirst sum behind b = checksumAccmulate sum (b.bytes ++ behind) b.bytes.length := by
  match b, h with
  | [], _ =>
      rfl
  | [n], _ =>
      have hbytes : Block.bytes [n] = n.data := List.append_nil n.data
      rw [hbytes]
      rfl

/-- The block is a list of its own at `q` in the heap: the node at each of the pointers `ps` has the
data of one of its nodes, and `more` joins them. -/
structure HeldAt (heap : OnHeap.Heap) (q : Option ℕ) (ps : List ℕ) (b : Block) : Prop where
  data : ps.map (fun p => (heap p).toVNode) = b.map Node.toVNode
  joined : ps = [] ∧ q = none ∨
    ∃ front last, ps = front ++ [last] ∧ OnHeap.BlockAt heap q front last []

/-- What the loop of `dblk_merge` makes of the links is the block that `dblkMerge` gives. -/
theorem dblkMerge_heldAt {heap : OnHeap.Heap} {p : ℕ} {q : Option ℕ} {ps ns : List ℕ} {b n : Block}
    (hb : HeldAt heap (some p) ps b) (hn : HeldAt heap q ns n) (hone : AtMostOne n)
    (hout : ∀ m ∈ ns, m ∉ ps) :
    ∃ heap', (∀ fuel, ps.length ≤ fuel → OnHeap.dblkMerge fuel heap p q = some heap') ∧
      HeldAt heap' (some p) (ps ++ ns) (dblkMerge b n) := by
  have hlength : ns.length = n.length := by
    have hlen := congrArg List.length hn.data
    simpa using hlen
  rw [dblkMerge_of_atMostOne hone]
  rcases hn.joined with ⟨rfl, rfl⟩ | ⟨front, m, rfl, hblock⟩
  · -- the null pointer
    have hnil : n = [] := List.eq_nil_of_length_eq_zero hlength.symm
    subst hnil
    exact ⟨heap, fun _ _ => rfl, by simpa using hb⟩
  · have hfront : front = [] := by
      have hle : (front ++ [m]).length ≤ 1 := hlength ▸ hone
      simpa using hle
    subst hfront
    rcases hb.joined with ⟨_, hno⟩ | ⟨bfront, last, rfl, hbblock⟩
    · cases hno
    · have hm : m ∉ bfront ++ [last] := hout m (by simp)
      refine ⟨OnHeap.merged heap last m, fun fuel hfuel => ?_, ?_, Or.inr ⟨bfront ++ [last], m, rfl, ?_⟩⟩
      · rw [hblock.head.1, OnHeap.dblkMerge]
        refine hbblock.dblkMergeLoop m ?_
        rw [List.length_append, List.length_singleton] at hfuel
        omega
      · simp only [OnHeap.toVNode_merged, List.map_append, hb.data, hn.data]
      · exact hbblock.merged hm hblock.ended

/-! ## The packed bytes -/

section Pack

variable (src dest : V4) (protocol : UInt8) (seg : SegmentBlocks) (behind : List Byte)

/-- The bytes of the whole segment. -/
def totalSize : ℕ :=
  20 + seg.options.bytes.length + seg.payload.bytes.length

/-- The sum over its pieces without the checksum. -/
def blocksSum : ℕ :=
  wordSum (Udp.pseudoHeaderPack src dest protocol (UInt16.ofNat (totalSize seg))) +
    wordSum (tcpHeader seg.fields 0) + wordSum seg.options.bytes +
    wordSum (coveredBytes (seg.payload.bytes ++ behind) seg.payload.bytes.length)

/-- What a segment must be for `tcp_pack` to be undone: 12-bit flags, options that are absent or
one node and that the data offset counts, a payload that is absent or one node, and a size that the
pseudo header can hold. -/
structure Encodable : Prop where
  flags_lt : seg.flags < 0x1000
  options_one : AtMostOne seg.options
  options_mod : seg.options.bytes.length % 4 = 0
  offset_eq : seg.dataOffset.toNat = 5 + seg.options.bytes.length / 4
  offset_le : seg.dataOffset.toNat ≤ 15
  payload_one : AtMostOne seg.payload
  total_le : totalSize seg ≤ 65535

variable {src dest protocol seg behind} {behindOptions beyond : List Byte}

theorem tcpPackBlocks_eq (h : Encodable seg) {packed : SegmentBlocks × Block}
    (hpack : tcpPackBlocks src dest protocol seg behindOptions behind = some packed) :
    packed.1.checksum = checksumComplete (blocksSum src dest protocol seg behind) ∧
      Block.bytes packed.2 =
        tcpHeader seg.fields packed.1.checksum ++ (seg.options.bytes ++ seg.payload.bytes) := by
  have htotal := h.total_le
  rw [totalSize] at htotal
  have hlength : UInt16.ofNat (20 + dblkSize seg.options + dblkSize seg.payload) =
      UInt16.ofNat (totalSize seg) := by
    rw [dblkSize_eq_length_bytes, dblkSize_eq_length_bytes, totalSize]
  have hpsd := Udp.wordSum_pseudoHeader_le src dest protocol (UInt16.ofNat (totalSize seg))
  have hhdr := wordSum_tcpHeader_le seg.fields 0
  have hoptions : wordSum seg.options.bytes ≤ 65535 * 32768 := by
    have hle := wordSum_le seg.options.bytes
    have hcount : wordCount seg.options.bytes.length ≤ 32768 := by
      simp only [wordCount]
      omega
    omega
  have heven : seg.options.bytes.length % 2 = 0 := by
    have hmod := h.options_mod
    omega
  -- no byte behind the options is summed up
  have hcovered : coveredBytes (seg.options.bytes ++ behindOptions) seg.options.bytes.length =
      seg.options.bytes := by
    have hcongr : coveredBytes (seg.options.bytes ++ behindOptions) seg.options.bytes.length =
        coveredBytes (seg.options.bytes ++ []) seg.options.bytes.length :=
      coveredBytes_congr fun hodd => by omega
    rw [hcongr, List.append_nil, coveredBytes_of_even heven]
  -- piece by piece
  have hsum : accmulateFirst
      (accmulateFirst
        (checksumAccmulate
          (checksumAccmulate 0
            (Udp.pseudoHeaderPack src dest protocol (UInt16.ofNat (totalSize seg))) 12)
          (tcpHeader seg.fields 0) 20)
        behindOptions seg.options)
      behind seg.payload = blocksSum src dest protocol seg behind := by
    rw [accmulate_pseudoHeader, checksumAccmulate_eq (by omega) (by omega), coveredBytes_tcpHeader,
      accmulateFirst_of_atMostOne h.options_one, checksumAccmulate_eq (by omega) (by omega),
      hcovered, accmulateFirst_of_atMostOne h.payload_one,
      checksumAccmulate_eq (by omega) (by omega)]
    rfl
  simp only [tcpPackBlocks, hlength, hsum] at hpack
  split at hpack
  · simp only [Option.some.injEq] at hpack
    subst hpack
    refine ⟨rfl, ?_⟩
    have hmerge : ∀ n : Node, dblkMerge (dblkMerge [n] seg.options) seg.payload =
        [n] ++ seg.options ++ seg.payload := by
      intro n
      rw [dblkMerge_of_atMostOne h.options_one, dblkMerge_of_atMostOne h.payload_one]
    have happ : ∀ b c : Block, Block.bytes (b ++ c) = b.bytes ++ c.bytes :=
      fun b c => List.flatMap_append
    rw [hmerge, happ, happ, List.append_assoc]
    rfl
  · simp at hpack

/-! ## What was packed is read back -/

/-- The fields, the options and the payload that were read are those of the segment. -/
structure ReadBack (seg : SegmentBlocks) (checksum : UInt16) (read : TcpSegment) : Prop where
  srcPort : read.srcPort = seg.srcPort
  destPort : read.destPort = seg.destPort
  seq : read.seq = seg.seq
  ack : read.ack = seg.ack
  dataOffset : read.dataOffset = seg.dataOffset
  flags : read.flags = seg.flags
  win : read.win = seg.win
  checksum : read.checksum = checksum
  urgentPtr : read.urgentPtr = seg.urgentPtr
  options : memRead read.options read.optionsSize.toNat = seg.options.bytes
  payload : memRead read.payload read.payloadSize.toNat = seg.payload.bytes

theorem toNat_totalSize (h : Encodable seg) :
    (UInt16.ofNat (totalSize seg)).toNat = totalSize seg :=
  UInt16.toNat_ofNat_of_lt' (Nat.lt_succ_of_le h.total_le)

/-! ### The sizes that the receiver computes -/

/-- The data offset counts header and options. -/
theorem toNat_headerSize (h : Encodable seg) :
    (seg.dataOffset * 4).toNat = 20 + seg.options.bytes.length := by
  have h4 : (4 : UInt16).toNat = 4 := rfl
  have hmod := h.options_mod
  have hoffset := h.offset_eq
  have hle := h.offset_le
  rw [UInt16.toNat_mul, h4]
  omega

theorem toNat_optionsSize (h : Encodable seg) :
    (seg.dataOffset * 4 - 20).toNat = seg.options.bytes.length := by
  have h20 : (20 : UInt16).toNat = 20 := rfl
  have hheader := toNat_headerSize h
  rw [UInt16.toNat_sub_of_le, h20, hheader, Nat.add_sub_cancel_left]
  rw [UInt16.le_iff_toNat_le, h20, hheader]
  omega

/-- What is left behind header and options is the payload. -/
theorem toNat_payloadBytes (h : Encodable seg) :
    (UInt16.ofNat (totalSize seg) - seg.dataOffset * 4).toNat = seg.payload.bytes.length := by
  have hheader := toNat_headerSize h
  have hsize := toNat_totalSize h
  rw [UInt16.toNat_sub_of_le, hsize, hheader, totalSize, Nat.add_sub_cancel_left]
  rw [UInt16.le_iff_toNat_le, hsize, hheader, totalSize]
  omega

/-- The receiver sums up the same words in one piece. -/
theorem checksumMatches_packed (h : Encodable seg)
    (hodd : seg.payload.bytes.length % 2 = 1 → beyond.getD 0 0 = behind.getD 0 0) :
    checksumMatches src dest protocol
      (tcpHeader seg.fields (checksumComplete (blocksSum src dest protocol seg behind)) ++
        (seg.options.bytes ++ (seg.payload.bytes ++ beyond))) (UInt16.ofNat (totalSize seg)) = true := by
  have htotal := h.total_le
  have hmod := h.options_mod
  let sum := checksumComplete (blocksSum src dest protocol seg behind)
  let rest := seg.options.bytes ++ (seg.payload.bytes ++ beyond)
  let mem := tcpHeader seg.fields sum ++ rest
  have hfield : mem.drop 16 = bw16 sum ++ (bw16 seg.urgentPtr ++ rest) := rfl
  have hclear : memWriteAt mem 16 (bw16 0) = tcpHeader seg.fields 0 ++ rest := rfl
  have hsize : totalSize seg =
      20 + (seg.options.bytes.length + seg.payload.bytes.length) := by
    rw [totalSize, Nat.add_assoc]
  have hsplit : wordSum (coveredBytes rest
      (seg.options.bytes.length + seg.payload.bytes.length)) =
        wordSum seg.options.bytes +
          wordSum (coveredBytes (seg.payload.bytes ++ behind) seg.payload.bytes.length) := by
    rw [coveredBytes_append (by omega), wordSum_append (by omega), coveredBytes_congr hodd]
  have hsum : checksumAccmulate
      (checksumAccmulate 0
        (Udp.pseudoHeaderPack src dest protocol (UInt16.ofNat (totalSize seg))) 12)
      (tcpHeader seg.fields 0 ++ rest) (totalSize seg) = blocksSum src dest protocol seg behind := by
    calc
      _ = checksumAccmulate
            (checksumAccmulate 0
              (Udp.pseudoHeaderPack src dest protocol (UInt16.ofNat (totalSize seg))) 12)
            (tcpHeader seg.fields 0 ++ rest)
            (20 + (seg.options.bytes.length + seg.payload.bytes.length)) := by rw [hsize]
      _ = wordSum (Udp.pseudoHeaderPack src dest protocol (UInt16.ofNat (totalSize seg))) +
            wordSum (tcpHeader seg.fields 0) +
            wordSum (coveredBytes rest (seg.options.bytes.length + seg.payload.bytes.length)) :=
          accmulate_tcpHeader_append src dest protocol seg.fields (by omega)
      _ = blocksSum src dest protocol seg behind := by
          rw [hsplit, blocksSum]
          omega
  have hmatch : checksumMatches src dest protocol mem (UInt16.ofNat (totalSize seg)) = true := by
    rw [checksumMatches, toNat_totalSize h, hclear, hsum, hfield, br16_bw16_append]
    exact beq_self_eq_true sum
  exact hmatch

theorem length_packed (h : Encodable seg) {packed : SegmentBlocks × Block}
    (hpack : tcpPackBlocks src dest protocol seg behindOptions behind = some packed) :
    (Block.bytes packed.2).length = totalSize seg := by
  rw [(tcpPackBlocks_eq h hpack).2, List.length_append, length_tcpHeader, List.length_append, totalSize,
    Nat.add_assoc]

/-- What was packed is read back, and what lies behind it lies behind the payload that is read. -/
theorem readBack_packed (h : Encodable seg) {packed : SegmentBlocks × Block}
    (hpack : tcpPackBlocks src dest protocol seg behindOptions behind = some packed)
    (hodd : seg.payload.bytes.length % 2 = 1 → beyond.getD 0 0 = behind.getD 0 0) :
    ∃ read, tcpUnpack src dest protocol (Block.bytes packed.2 ++ beyond)
        (UInt16.ofNat (Block.bytes packed.2).length) = some read ∧
      ReadBack seg packed.1.checksum read ∧ read.payload = seg.payload.bytes ++ beyond ∧
        read.payloadSize.toNat = seg.payload.bytes.length := by
  obtain ⟨hchecksum, hbytes⟩ := tcpPackBlocks_eq h hpack
  rw [length_packed h hpack, hbytes, hchecksum]
  -- the memory from each field on, the options and the payload last
  let sum := checksumComplete (blocksSum src dest protocol seg behind)
  let rest := seg.options.bytes ++ (seg.payload.bytes ++ beyond)
  let word := (seg.dataOffset <<< 12) ||| seg.flags
  let tail := bw16 seg.win ++ (bw16 sum ++ (bw16 seg.urgentPtr ++ rest))
  let mem := tcpHeader seg.fields sum ++ rest
  have hmem : tcpHeader seg.fields sum ++ (seg.options.bytes ++ seg.payload.bytes) ++ beyond = mem := by
    simp only [mem, rest, List.append_assoc]
  have h2 : mem.drop 2 = bw16 seg.destPort ++ (bw32 seg.seq ++ (bw32 seg.ack ++
    (bw16 word ++ tail))) := rfl
  have h4 : mem.drop 4 = bw32 seg.seq ++ (bw32 seg.ack ++ (bw16 word ++ tail)) := rfl
  have h8 : mem.drop 8 = bw32 seg.ack ++ (bw16 word ++ tail) := rfl
  have h12 : mem.drop 12 = bw16 word ++ tail := rfl
  have h14 : mem.drop 14 = tail := rfl
  have h16 : mem.drop 16 = bw16 sum ++ (bw16 seg.urgentPtr ++ rest) := rfl
  have h18 : mem.drop 18 = bw16 seg.urgentPtr ++ rest := rfl
  have hclear : memWriteAt mem 16 (bw16 0) = tcpHeader seg.fields 0 ++ rest := rfl
  have hoff : readDataOffset mem = seg.dataOffset := by
    rw [readDataOffset, h12, br16_bw16_append]
    exact offset_of_offsetWord h.offset_le h.flags_lt
  have hsize : 20 ≤ (UInt16.ofNat (totalSize seg)).toNat := by
    rw [toNat_totalSize h, totalSize]
    omega
  have hmatch : checksumMatches src dest protocol mem (UInt16.ofNat (totalSize seg)) = true :=
    checksumMatches_packed h hodd
  have hoptions : (memWriteAt mem 16 (bw16 0)).drop 20 = rest := by
    rw [hclear]
    rfl
  have hpayload : (memWriteAt mem 16 (bw16 0)).drop (readDataOffset mem * 4).toNat =
      seg.payload.bytes ++ beyond := by
    rw [hoff, toNat_headerSize h, hclear, ← List.drop_drop]
    exact List.drop_left
  have hpayloadSize : (UInt16.ofNat (totalSize seg) - readDataOffset mem * 4).toNat =
      seg.payload.bytes.length := by
    rw [hoff, toNat_payloadBytes h]
  rw [hmem]
  refine ⟨_, by rw [tcpUnpack, if_pos hsize, hmatch]; rfl, ?_, hpayload, hpayloadSize⟩
  refine ⟨br16_bw16_append _ _, ?_, ?_, ?_, hoff, ?_, ?_, ?_, ?_, ?_, ?_⟩
  · exact (congrArg br16 h2).trans (br16_bw16_append _ _)
  · exact (congrArg br32 h4).trans (br32_bw32_append _ _)
  · exact (congrArg br32 h8).trans (br32_bw32_append _ _)
  · refine (congrArg (br16 · &&& 0x0FFF) h12).trans ?_
    rw [br16_bw16_append]
    exact flags_of_offsetWord h.offset_le h.flags_lt
  · exact (congrArg br16 h14).trans (br16_bw16_append _ _)
  · exact (congrArg br16 h16).trans (br16_bw16_append _ _)
  · exact (congrArg br16 h18).trans (br16_bw16_append _ _)
  · calc
      memRead ((memWriteAt mem 16 (bw16 0)).drop 20) (readDataOffset mem * 4 - 20).toNat
          = memRead rest seg.options.bytes.length := by rw [hoptions, hoff, toNat_optionsSize h]
      _ = seg.options.bytes := memRead_append_of_length rfl _
  · calc
      memRead ((memWriteAt mem 16 (bw16 0)).drop (readDataOffset mem * 4).toNat)
            (UInt16.ofNat (totalSize seg) - readDataOffset mem * 4).toNat
          = memRead (seg.payload.bytes ++ beyond) seg.payload.bytes.length := by
            rw [hpayloadSize, hpayload]
      _ = seg.payload.bytes := memRead_append_of_length rfl _

/-! ## Damage is detected -/

/-- A string that is accepted sums up to a multiple of 0xFFFF, together with its pseudo header. -/
theorem dvd_of_checksumMatches {rawData : List Byte} {size : UInt16} (hsize : 18 ≤ size.toNat)
    (hlen : size.toNat ≤ rawData.length)
    (h : checksumMatches src dest protocol rawData size = true) :
    65535 ∣ wordSum (Udp.pseudoHeaderPack src dest protocol size) +
      wordSum (coveredBytes rawData size.toNat) := by
  have hmax : size.toNat ≤ 65535 := Nat.le_of_lt_succ size.toNat_lt
  have hpsd := Udp.wordSum_pseudoHeader_le src dest protocol size
  let sum := wordSum (Udp.pseudoHeaderPack src dest protocol size) +
    wordSum (coveredBytes (memWriteAt rawData 16 (bw16 0)) size.toNat)
  have hfield : br16 (rawData.drop 16) = checksumComplete sum := by
    have heq := eq_of_beq h
    rwa [accmulate_pseudoHeader, checksumAccmulate_eq hmax (by omega)] at heq
  rw [eq_checksumComplete_iff] at hfield
  have hmod : norm 65535 sum ≡ sum [MOD 65535] := norm_modEq sum
  -- with the field in its place again
  have hwrite := wordSum_coveredBytes_write (by decide : 16 % 2 = 0) hsize hlen 0
  have h0 : (0 : UInt16).toNat = 0 := rfl
  have hsum : sum + (br16 (rawData.drop 16)).toNat =
      wordSum (Udp.pseudoHeaderPack src dest protocol size) +
        wordSum (coveredBytes rawData size.toNat) := by
    simp only [sum]
    omega
  rw [← hsum]
  unfold Nat.ModEq at hmod
  omega

/-- Of two strings that differ in one word at an even place, both are accepted only if the two words
are congruent. -/
theorem modEq_of_accepted {rawData : List Byte} {size : UInt16} {i : ℕ} {x : UInt16}
    (hlen : size.toNat ≤ rawData.length) (heven : i % 2 = 0) (hi : i + 2 ≤ size.toNat)
    (hold : ∃ read, tcpUnpack src dest protocol rawData size = some read)
    (hnew : ∃ read, tcpUnpack src dest protocol (memWriteAt rawData i (bw16 x)) size = some read) :
    x.toNat ≡ (br16 (rawData.drop i)).toNat [MOD 65535] := by
  obtain ⟨hsize, holdsum⟩ := tcpUnpack_eq_some_iff.1 hold
  obtain ⟨-, hnewsum⟩ := tcpUnpack_eq_some_iff.1 hnew
  have hlen' : size.toNat ≤ (memWriteAt rawData i (bw16 x)).length := by
    rw [memWriteAt_word (by omega), List.length_append, List.length_append, List.length_take,
      List.length_drop, length_bw16]
    omega
  have hdvd := dvd_of_checksumMatches (by omega) hlen holdsum
  have hdvd' := dvd_of_checksumMatches (by omega) hlen' hnewsum
  have hwrite := wordSum_coveredBytes_write heven hi hlen x
  unfold Nat.ModEq
  omega

end Pack

/-- Whenever `tcp_pack` returns 1, `tcp_unpack` reads the segment back from the bytes of the block,
and accepts these bytes with no word at an even place replaced by one that is not congruent to it
modulo 0xFFFF.  Behind a payload of odd size the same byte lies on both sides. -/
theorem tcpUnpack_tcpPackBlocks {src dest : V4} {protocol : UInt8} {seg : SegmentBlocks}
    {behindOptions behind beyond : List Byte} (h : Encodable seg) {packed : SegmentBlocks × Block}
    (hpack : tcpPackBlocks src dest protocol seg behindOptions behind = some packed)
    (hodd : seg.payload.bytes.length % 2 = 1 → beyond.getD 0 0 = behind.getD 0 0) :
    let string := Block.bytes packed.2
    let size := UInt16.ofNat string.length
    (∃ read, tcpUnpack src dest protocol (string ++ beyond) size = some read ∧
        ReadBack seg packed.1.checksum read) ∧
      ∀ (i : ℕ) (x : UInt16), i % 2 = 0 → i + 2 ≤ string.length →
        ¬ x.toNat ≡ (br16 ((string ++ beyond).drop i)).toNat [MOD 65535] →
        tcpUnpack src dest protocol (memWriteAt (string ++ beyond) i (bw16 x)) size = none := by
  intro string size
  obtain ⟨read, hread, hback, _⟩ := readBack_packed h hpack hodd
  have hlen : string.length = totalSize seg := length_packed h hpack
  have hsize : size.toNat = string.length := by
    have htotal := toNat_totalSize h
    simp only [size, hlen, htotal]
  have hle : size.toNat ≤ (string ++ beyond).length := by
    rw [hsize, List.length_append]
    exact Nat.le_add_right _ _
  refine ⟨⟨read, hread, hback⟩, ?_⟩
  intro i x heven hi hne
  cases hnew : tcpUnpack src dest protocol (memWriteAt (string ++ beyond) i (bw16 x)) size with
  | none =>
      rfl
  | some damaged =>
      exact absurd (modEq_of_accepted hle heven (by omega) ⟨read, hread⟩ ⟨damaged, hnew⟩) hne

/-- A SYN with a maximum segment size option and three bytes of data. -/
def sampleBlocks : SegmentBlocks :=
  { srcPort := 80, destPort := 5000, seq := 700, ack := 0, dataOffset := 6, flags := segFlagSyn,
    win := 1500, checksum := 0, urgentPtr := 0,
    options := [{ data := [2, 4, 5, 180], offset := 0 }],
    payload := [{ data := [1, 2, 3], offset := 0 }],
    rawData := dblkNodeNewWithBuff 32 }

theorem encodable_sampleBlocks : Encodable sampleBlocks :=
  ⟨by decide, Nat.le_refl 1, by decide, by decide, by decide, Nat.le_refl 1, by decide⟩

/-- The bytes behind the data are 9 and 8 where it was packed, and 9 where it is read. -/
theorem tcpUnpack_tcpPackBlocks_sample :
    ∃ packed, tcpPackBlocks ⟨192, 168, 1, 2⟩ ⟨192, 168, 1, 1⟩ 6 sampleBlocks [] [9, 8] = some packed ∧
      (∃ read, tcpUnpack ⟨192, 168, 1, 2⟩ ⟨192, 168, 1, 1⟩ 6 (Block.bytes packed.2 ++ [9])
          (UInt16.ofNat (Block.bytes packed.2).length) = some read ∧
        ReadBack sampleBlocks packed.1.checksum read) ∧
      tcpUnpack ⟨192, 168, 1, 2⟩ ⟨192, 168, 1, 1⟩ 6
          (memWriteAt (Block.bytes packed.2 ++ [9]) 24 (bw16 0x0103))
          (UInt16.ofNat (Block.bytes packed.2).length) = none := by
  have hpack : tcpPackBlocks ⟨192, 168, 1, 2⟩ ⟨192, 168, 1, 1⟩ 6 sampleBlocks [] [9, 8] =
      some ((tcpPackBlocks ⟨192, 168, 1, 2⟩ ⟨192, 168, 1, 1⟩ 6 sampleBlocks [] [9, 8]).get rfl) := rfl
  have hodd : sampleBlocks.payload.bytes.length % 2 = 1 →
      ([9] : List Byte).getD 0 0 = ([9, 8] : List Byte).getD 0 0 :=
    fun _ => rfl
  obtain ⟨hback, hdamage⟩ := tcpUnpack_tcpPackBlocks encodable_sampleBlocks hpack hodd
  exact ⟨_, hpack, hback, hdamage 24 0x0103 (by decide) (by decide +kernel) (by decide +kernel)⟩

end Tcp
end DtsNet
