import DtsNet.Dblk.Fragment
import DtsNet.Ip.Header
import DtsNet.Library.Tiling

/-!
# Output — `ip_hl_send`

A payload of less than 1400 bytes is sent in one datagram, a longer one in fragments.
-/

namespace DtsNet
namespace Ip

open Dblk Tiling

/-! ## `ip_hl_send` -/

/-- What `ll_send` gets: the header record, the bytes of the raw data node, and the nodes chained
behind it. -/
structure IpDatagram where
  header : Header
  rawData : List Byte
  payload : List VNode
  deriving DecidableEq, Repr

variable {σ : Type}

def mkFlags (df mf : ℕ) : BitVec 3 :=
  BitVec.ofNat 3 (df <<< 1 ||| mf)

/-- "do header": the fields of one fragment. -/
def fragmentHeader (hdr : Header) (curr : VNode) (next : List VNode) : Header :=
  { hdr with
    totalLength := UInt16.ofNat (dblkNodeSize curr)
    flags := mkFlags 0 (if next.isEmpty then 0 else 1) }

/-- "update header", of the packed one: its total length has taken in the header by now. -/
def updateHeader (hdr : Header) : Header :=
  { hdr with
    fragmentOffset := hdr.fragmentOffset + BitVec.ofNat 13 (hdr.totalLength.toNat / 8) }

/-- The loop over the fragments; `rawSize` is the size of the raw data node, which becomes that of
the header once it is packed. -/
def sendFragments (llSend : σ → IpDatagram → σ × Bool) :
    List VNode → Header → ℕ → σ → σ × Bool
  | [], _, _, s => (s, true)
  | curr :: next, hdr, rawSize, s =>
      let packed := ipHeaderPack (fragmentHeader hdr curr next) rawSize
      let sent := llSend s { header := packed.1, rawData := packed.2, payload := [curr] }
      if sent.2 then
        sendFragments llSend next (updateHeader packed.1) packed.2.length sent.1
      else
        (sent.1, false)

/-- `ident` is the static counter before the call; the payload is a block that ends its list.  The
memory that the function releases is not modelled. -/
def ipHlSend (llSend : σ → IpDatagram → σ × Bool) (ip : Netif) (ident : ℕ) (hdr : Header)
    (payload : Block) (s : σ) : σ × Bool :=
  let payloadSize := dblkSize payload
  let hdr :=
    { hdr with
      version := BitVec.ofNat 4 ip.addr.version.toNat
      src := ip.addr
      identification := UInt16.ofNat (ident + 1) }
  if payloadSize < 1400 then
    -- the flags stay as the caller left them
    let hdr :=
      { hdr with
        totalLength := UInt16.ofNat payloadSize
        fragmentOffset := 0 }
    let packed := ipHeaderPack hdr 64
    llSend s
      { header := packed.1, rawData := packed.2, payload := payload.map Node.toVNode }
  else
    -- the flags are set for each fragment, in `fragmentHeader`
    sendFragments llSend (dblkFragment (blockChain payload) 1400) { hdr with fragmentOffset := 0 }
      64 s

/-! ## Datagrams on the wire -/

namespace IpDatagram

def totalLength (d : IpDatagram) : ℕ :=
  (br16 (d.rawData.drop 2)).toNat

def identification (d : IpDatagram) : UInt16 :=
  br16 (d.rawData.drop 4)

def moreFragments (d : IpDatagram) : Bool :=
  decide ((br16 (d.rawData.drop 6)).toNat / 8192 % 2 = 1)

def fragmentOffset (d : IpDatagram) : ℕ :=
  (br16 (d.rawData.drop 6)).toNat % 8192

def payloadBytes (d : IpDatagram) : List Byte :=
  vbytes d.payload

/-- The payload at the position where a receiver places it. -/
def piece (d : IpDatagram) : Piece Byte :=
  (8 * d.fragmentOffset, d.payloadBytes)

end IpDatagram

/-- The datagrams are the fragments of the payload: a receiver that places each at its offset, and
waits for the one without the more-fragments flag, gets exactly the payload. -/
structure Reassembles (ds : List IpDatagram) (payload : List Byte) : Prop where
  identification : ∃ ident, ∀ d ∈ ds, d.identification = ident
  totalLength : ∀ d ∈ ds, d.totalLength = 20 + d.payloadBytes.length
  checksum : ∀ d ∈ ds, checksum d.rawData d.rawData.length = 0
  moreFragments : ∃ init last, ds = init ++ [last] ∧ (∀ d ∈ init, d.moreFragments = true) ∧
    last.moreFragments = false
  tiles : Tiles (ds.map IpDatagram.piece) payload

/-! ## The datagram of a packed header -/

/-- The datagram that carries the nodes behind a header without options. -/
def packedDatagram (hdr : Header) (bufSize : ℕ) (payload : List VNode) : IpDatagram :=
  let packed := ipHeaderPack hdr bufSize
  { header := packed.1, rawData := packed.2, payload := payload }

section Packed

variable {hdr : Header} {bufSize : ℕ} (hopt : hdr.optionSize = 0) (hbuf : 20 ≤ bufSize)
  (payload : List VNode)
include hopt hbuf

theorem packedDatagram_eq :
    ∃ sum rest, rest.length = 8 ∧
      (packedDatagram hdr bufSize payload).header =
        { hdr with totalLength := hdr.totalLength + 20, checksum := sum } ∧
      (packedDatagram hdr bufSize payload).rawData =
        headerFront { hdr with totalLength := hdr.totalLength + 20 } 20 ++ (bw16 sum ++ rest) := by
  have hsize : hdr.optionSize.toNat = 0 := by simp [hopt]
  have hfits : hdr.optionSize.toNat + 20 ≤ bufSize := by omega
  obtain ⟨sum, -, hpack⟩ := ipHeaderPack_eq hfits
  have hwith : withHeaderSize hdr = { hdr with totalLength := hdr.totalLength + 20 } := by
    simp [withHeaderSize, hsize]
  rw [hsize, headerSize_zero, hwith] at hpack
  refine ⟨sum, _, length_memRead (headerRest hdr) 8, ?_, ?_⟩
  · simp only [packedDatagram, hpack]
  · simp only [packedDatagram, hpack, List.append_assoc]

theorem length_rawData : (packedDatagram hdr bufSize payload).rawData.length = 20 := by
  obtain ⟨sum, rest, hrest, -, hraw⟩ := packedDatagram_eq hopt hbuf payload
  simp [hraw, hrest]

theorem checksum_rawData :
    checksum (packedDatagram hdr bufSize payload).rawData
      (packedDatagram hdr bufSize payload).rawData.length = 0 := by
  have hsize : hdr.optionSize.toNat = 0 := by simp [hopt]
  exact checksum_ipHeaderPack (by omega)

theorem identification_packed :
    (packedDatagram hdr bufSize payload).identification = hdr.identification := by
  obtain ⟨sum, rest, -, -, hraw⟩ := packedDatagram_eq hopt hbuf payload
  rw [IpDatagram.identification, hraw, br16_drop_four]

theorem totalLength_packed {n : ℕ} (hn : hdr.totalLength = UInt16.ofNat n) (hlt : n < 65516) :
    (packedDatagram hdr bufSize payload).totalLength = 20 + n := by
  obtain ⟨sum, rest, -, -, hraw⟩ := packedDatagram_eq hopt hbuf payload
  have h20 : (20 : UInt16).toNat = 20 := rfl
  have hofNat : (UInt16.ofNat n).toNat = n := UInt16.toNat_ofNat_of_lt' (show n < 65536 by omega)
  rw [IpDatagram.totalLength, hraw, br16_drop_two, hn, UInt16.toNat_add, hofNat, h20]
  omega

theorem fragmentOffset_packed :
    (packedDatagram hdr bufSize payload).fragmentOffset = hdr.fragmentOffset.toNat := by
  obtain ⟨sum, rest, -, -, hraw⟩ := packedDatagram_eq hopt hbuf payload
  have hoff : hdr.fragmentOffset.toNat < 8192 := hdr.fragmentOffset.isLt
  rw [IpDatagram.fragmentOffset, hraw, br16_drop_six, toNat_flagsWord]
  dsimp only
  omega

theorem moreFragments_packed :
    (packedDatagram hdr bufSize payload).moreFragments = hdr.flags.getLsbD 0 := by
  obtain ⟨sum, rest, -, -, hraw⟩ := packedDatagram_eq hopt hbuf payload
  have hoff : hdr.fragmentOffset.toNat < 8192 := hdr.fragmentOffset.isLt
  have hdiv : (hdr.flags.toNat * 8192 + hdr.fragmentOffset.toNat) / 8192 = hdr.flags.toNat := by
    omega
  rw [IpDatagram.moreFragments, hraw, br16_drop_six, toNat_flagsWord]
  dsimp only
  rw [hdiv, BitVec.getLsbD, Nat.testBit_zero]

/-- A single datagram at offset zero carries the whole payload if it says that it is the last. -/
theorem reassembles_single_iff {n : ℕ} {data : List Byte}
    (hn : hdr.totalLength = UInt16.ofNat n) (hlt : n < 65516) (hoff : hdr.fragmentOffset = 0)
    (hdata : vbytes payload = data) (hlen : data.length = n) :
    Reassembles [packedDatagram hdr bufSize payload] data ↔ hdr.flags.getLsbD 0 = false := by
  have hpiece : (packedDatagram hdr bufSize payload).piece = (0, data) := by
    rw [IpDatagram.piece, fragmentOffset_packed hopt hbuf, hoff]
    exact Prod.ext rfl hdata
  have hmore := moreFragments_packed hopt hbuf payload
  constructor
  · intro h
    obtain ⟨init, last, hds, -, hlast⟩ := h.moreFragments
    have hds' : [] ++ [packedDatagram hdr bufSize payload] = init ++ [last] := hds
    obtain ⟨rfl, hd⟩ := List.append_inj' hds' rfl
    obtain rfl := List.head_eq_of_cons_eq hd
    rw [← hmore]
    exact hlast
  · intro hflag
    refine ⟨⟨hdr.identification, ?_⟩, ?_, ?_, ⟨[], _, rfl, by simp, hmore.trans hflag⟩, ?_⟩
    · intro d hd
      obtain rfl := List.mem_singleton.1 hd
      exact identification_packed hopt hbuf payload
    · intro d hd
      obtain rfl := List.mem_singleton.1 hd
      have hbytes : (packedDatagram hdr bufSize payload).payloadBytes = data := hdata
      rw [totalLength_packed hopt hbuf payload hn hlt, hbytes, hlen]
    · intro d hd
      obtain rfl := List.mem_singleton.1 hd
      exact checksum_rawData hopt hbuf payload
    · rw [List.map_singleton, hpiece]
      exact tiles_single data

end Packed

/-! ## The run of one call -/

/-- A lower layer that accepts every datagram, and keeps them. -/
def logSend (sent : List IpDatagram) (d : IpDatagram) : List IpDatagram × Bool :=
  (sent ++ [d], true)

theorem sendFragments_log_cons (v : VNode) (vs : List VNode) (hdr : Header) (rawSize : ℕ)
    (sent : List IpDatagram) :
    sendFragments logSend (v :: vs) hdr rawSize sent =
      let d := packedDatagram (fragmentHeader hdr v vs) rawSize [v]
      sendFragments logSend vs (updateHeader d.header) d.rawData.length (sent ++ [d]) := rfl

/-- Behind a full fragment the offset goes on by the 1420 bytes of its datagram. -/
theorem updateHeader_full {hdr : Header} {rawSize : ℕ} {v : VNode} (hopt : hdr.optionSize = 0)
    (hraw : 20 ≤ rawSize) (hv : dblkNodeSize v = 1400) (vs : List VNode) :
    updateHeader (packedDatagram (fragmentHeader hdr v vs) rawSize [v]).header =
      { (packedDatagram (fragmentHeader hdr v vs) rawSize [v]).header with
        fragmentOffset := hdr.fragmentOffset + 177#13 } ∧
    (updateHeader (packedDatagram (fragmentHeader hdr v vs) rawSize [v]).header).optionSize = 0 := by
  have hopt' : (fragmentHeader hdr v vs).optionSize = 0 := hopt
  obtain ⟨sum, rest, -, hheader, -⟩ := packedDatagram_eq hopt' hraw [v]
  have htotal : (UInt16.ofNat (dblkNodeSize v) + 20).toNat / 8 = 177 := by
    rw [hv]
    decide
  rw [hheader]
  refine ⟨?_, hopt⟩
  simp only [updateHeader, fragmentHeader, htotal]

/-- The offsets of the fragments go up, by 177 units for every full fragment before. -/
theorem sendFragments_offset {vs : List VNode} {hdr : Header} {rawSize : ℕ}
    {sent : List IpDatagram} (hopt : hdr.optionSize = 0) (hraw : 20 ≤ rawSize)
    (hfull : ∀ v ∈ vs.dropLast, dblkNodeSize v = 1400)
    (hwrap : hdr.fragmentOffset.toNat + 177 * (vs.length - 1) < 8192) :
    ∀ d ∈ (sendFragments logSend vs hdr rawSize sent).1,
      d ∈ sent ∨ hdr.fragmentOffset.toNat ≤ d.fragmentOffset := by
  -- the offset is that of the next fragment; as long as it does not wrap, all later ones are behind
  induction vs generalizing hdr rawSize sent with
  | nil =>
      intro d hd
      exact Or.inl hd
  | cons v vs ih =>
      have hopt' : (fragmentHeader hdr v vs).optionSize = 0 := hopt
      have hhere : (packedDatagram (fragmentHeader hdr v vs) rawSize [v]).fragmentOffset =
          hdr.fragmentOffset.toNat := fragmentOffset_packed hopt' hraw [v]
      have hnow : ∀ d ∈ sent ++ [packedDatagram (fragmentHeader hdr v vs) rawSize [v]],
          d ∈ sent ∨ hdr.fragmentOffset.toNat ≤ d.fragmentOffset := by
        intro d hd
        rcases List.mem_append.1 hd with hd | hd
        · exact Or.inl hd
        · obtain rfl := List.mem_singleton.1 hd
          exact Or.inr (Nat.le_of_eq hhere.symm)
      intro d hd
      rw [sendFragments_log_cons] at hd
      cases vs with
      | nil =>
          exact hnow d hd
      | cons w vs =>
          have hv : dblkNodeSize v = 1400 := hfull v (by simp)
          obtain ⟨hupdate, hopt''⟩ := updateHeader_full hopt hraw hv (w :: vs)
          have htoNat : (updateHeader (packedDatagram (fragmentHeader hdr v (w :: vs)) rawSize
              [v]).header).fragmentOffset.toNat = hdr.fragmentOffset.toNat + 177 := by
            simp only [List.length_cons] at hwrap
            rw [hupdate, BitVec.toNat_add, BitVec.toNat_ofNat]
            omega
          have hrest := ih hopt'' (Nat.le_of_eq (length_rawData hopt' hraw [v]).symm)
            (fun u hu => hfull u (List.mem_cons_of_mem v hu))
            (by
              rw [htoNat]
              simp only [List.length_cons] at hwrap ⊢
              omega)
            d hd
          rcases hrest with hd | hd
          · exact hnow d hd
          · exact Or.inr (by omega)

/-- Byte 1400 of a longer payload is in no datagram: the first one ends before it, and the next
one starts at byte 1416. -/
theorem gap_of_long {vs : List VNode} {hdr : Header} (hopt : hdr.optionSize = 0)
    (hoff : hdr.fragmentOffset = 0) (hlen : 1 < vs.length) (hmax : vs.length ≤ 47)
    (hfull : ∀ v ∈ vs.dropLast, dblkNodeSize v = 1400) :
    ∀ d ∈ (sendFragments logSend vs hdr 64 []).1, ¬ Covers 1400 d.piece := by
  cases vs with
  | nil =>
      simp at hlen
  | cons v vs =>
      have hopt' : (fragmentHeader hdr v vs).optionSize = 0 := hopt
      have hne : vs ≠ [] := by
        rintro rfl
        simp at hlen
      have hv : dblkNodeSize v = 1400 := by
        refine hfull v ?_
        rw [List.dropLast_cons_of_ne_nil hne]
        exact List.mem_cons_self
      obtain ⟨hupdate, hopt''⟩ := updateHeader_full hopt (show 20 ≤ 64 by omega) hv vs
      have htoNat : (updateHeader (packedDatagram (fragmentHeader hdr v vs) 64
          [v]).header).fragmentOffset.toNat = 177 := by
        rw [hupdate, hoff]
        rfl
      have hhere : (packedDatagram (fragmentHeader hdr v vs) 64 [v]).fragmentOffset =
          hdr.fragmentOffset.toNat := fragmentOffset_packed hopt' (by omega) [v]
      intro d hd hcovers
      rw [sendFragments_log_cons] at hd
      have hmem := sendFragments_offset hopt''
        (Nat.le_of_eq (length_rawData hopt' (by omega) [v]).symm)
        (fun u hu => hfull u (by
          rw [List.dropLast_cons_of_ne_nil hne]
          exact List.mem_cons_of_mem v hu))
        (by
          rw [htoNat]
          simp only [List.length_cons] at hmax
          omega)
        d hd
      rcases hmem with hd | hd
      · obtain rfl := List.mem_singleton.1 hd
        have hbytes : vbytes [v] = v.bytes := by simp [vbytes]
        have hle := length_bytes_le v
        have hzero : (0 : BitVec 13).toNat = 0 := rfl
        have hend := hcovers.2
        simp only [IpDatagram.piece, IpDatagram.payloadBytes, hhere, hoff, hzero] at hend
        simp only [packedDatagram, hbytes] at hend
        omega
      · have hstart := hcovers.1
        simp only [IpDatagram.piece] at hstart
        omega

/-! ## When the output reassembles -/

theorem not_reassembles_nil (data : List Byte) : ¬ Reassembles [] data := by
  intro h
  obtain ⟨init, last, hds, -⟩ := h.moreFragments
  simp at hds

/-- The header when the payload size is looked at. -/
def callHeader (ip : Netif) (ident : ℕ) (hdr : Header) : Header :=
  { hdr with
    version := BitVec.ofNat 4 ip.addr.version.toNat
    src := ip.addr
    identification := UInt16.ofNat (ident + 1) }

/-- A short payload goes out in one datagram, with the flags as the caller left them. -/
theorem ipHlSend_short (llSend : σ → IpDatagram → σ × Bool) (ip : Netif) (ident : ℕ) (hdr : Header)
    {payload : Block} (h : payload.bytes.length < 1400) (s : σ) :
    ipHlSend llSend ip ident hdr payload s =
      llSend s
        (packedDatagram
          { callHeader ip ident hdr with
            totalLength := UInt16.ofNat payload.bytes.length, fragmentOffset := 0 }
          64 (payload.map Node.toVNode)) := by
  rw [← dblkSize_eq_length_bytes] at h ⊢
  rw [ipHlSend, if_pos h]
  rfl

theorem ipHlSend_long (ip : Netif) (ident : ℕ) (hdr : Header) {payload : Block}
    (h : 1400 ≤ payload.bytes.length) :
    (ipHlSend logSend ip ident hdr payload []).1 =
      (sendFragments logSend (dblkFragment (blockChain payload) 1400)
        { callHeader ip ident hdr with fragmentOffset := 0 } 64 []).1 := by
  rw [← dblkSize_eq_length_bytes] at h
  rw [ipHlSend, if_neg (Nat.not_lt.2 h)]
  rfl

/-- More than 1400 bytes leave a gap, or are not sent at all. -/
theorem not_reassembles_of_long (ip : Netif) (ident : ℕ) {hdr : Header} {payload : Block}
    (hopt : hdr.optionSize = 0) (hlong : 1400 < payload.bytes.length)
    (hmax : payload.bytes.length ≤ 65515) :
    ¬ Reassembles (ipHlSend logSend ip ident hdr payload []).1 payload.bytes := by
  rw [ipHlSend_long ip ident hdr (Nat.le_of_lt hlong)]
  by_cases hhead : headSize payload = 0
  · rw [dblkFragment_of_headSize_eq_zero hhead]
    exact not_reassembles_nil payload.bytes
  · obtain ⟨hcount, hone, hfull⟩ :=
      dblkFragment_many (by omega) (by omega) hhead hlong
    have hopt' : ({ callHeader ip ident hdr with fragmentOffset := 0 } : Header).optionSize = 0 :=
      hopt
    have hgap := gap_of_long hopt' rfl hone (by omega) hfull
    intro h
    refine not_tiles_of_gap hlong ?_ h.tiles
    intro p hp
    obtain ⟨d, hd, rfl⟩ := List.mem_map.1 hp
    exact hgap d hd

/-- The output of a call reassembles to the payload only up to 1400 bytes: below that if the
caller happened to leave the more-fragments flag clear, and at 1400 if the block does not begin
with an empty node. -/
theorem ipHlSend_reassembles_iff (ip : Netif) (ident : ℕ) (hdr : Header) (payload : Block)
    (hopt : hdr.optionSize = 0) (hmax : payload.bytes.length ≤ 65515) :
    Reassembles (ipHlSend logSend ip ident hdr payload []).1 payload.bytes ↔
      (payload.bytes.length < 1400 ∧ hdr.flags.getLsbD 0 = false) ∨
        (payload.bytes.length = 1400 ∧ headSize payload ≠ 0) := by
  by_cases hshort : payload.bytes.length < 1400
  · -- one datagram, with the flags as they were
    have hopt' : ({ callHeader ip ident hdr with
        totalLength := UInt16.ofNat payload.bytes.length, fragmentOffset := 0 } :
          Header).optionSize = 0 := hopt
    have hsent : (ipHlSend logSend ip ident hdr payload []).1 =
        [packedDatagram _ 64 (payload.map Node.toVNode)] :=
      congrArg Prod.fst (ipHlSend_short logSend ip ident hdr hshort [])
    rw [hsent,
      reassembles_single_iff hopt' (by omega) _ rfl (by omega) rfl (vbytes_toVNode payload) rfl]
    have hne : payload.bytes.length ≠ 1400 := Nat.ne_of_lt hshort
    simp [hshort, hne, callHeader]
  · by_cases hlen : payload.bytes.length = 1400
    · rw [ipHlSend_long ip ident hdr (Nat.not_lt.1 hshort)]
      by_cases hhead : headSize payload = 0
      · have hnil := not_reassembles_nil payload.bytes
        simp [dblkFragment_of_headSize_eq_zero hhead, sendFragments, hnil, hshort, hhead]
      · -- one fragment, which is the last
        obtain ⟨v, hfrag, hbytes, hsize⟩ := dblkFragment_one (by omega) hhead hlen
        have hopt' : (fragmentHeader { callHeader ip ident hdr with fragmentOffset := 0 } v
            []).optionSize = 0 := hopt
        have htotal : (fragmentHeader { callHeader ip ident hdr with fragmentOffset := 0 } v
            []).totalLength = UInt16.ofNat 1400 := by
          rw [← hsize]
          rfl
        have hdata : vbytes [v] = payload.bytes := by simp [vbytes, hbytes]
        have hflag : (mkFlags 0 0).getLsbD 0 = false := by decide
        have hiff := reassembles_single_iff hopt' (show 20 ≤ 64 by omega) [v] htotal (by omega)
          rfl hdata hlen
        rw [hfrag]
        exact ⟨fun _ => Or.inr ⟨hlen, hhead⟩, fun _ => hiff.2 hflag⟩
    · have hnot := not_reassembles_of_long ip ident hopt (show 1400 < payload.bytes.length by omega)
        hmax
      refine ⟨fun h => absurd h hnot, ?_⟩
      rintro (⟨h, -⟩ | ⟨h, -⟩)
      · exact absurd h hshort
      · exact absurd h hlen

/-- A header as a caller may pass it, and an interface. -/
def sampleHeader : Header :=
  { version := 0, ihl := 0, typeOfService := 0, totalLength := 0, identification := 0, flags := 0,
    fragmentOffset := 0, timeToLive := 128, protocol := 17, checksum := 0, src := IpAddr.zero,
    dest := ⟨4, ⟨10, 0, 0, 2⟩, ⟨255, 0, 0, 0⟩⟩, options := [], optionSize := 0 }

def sampleNetif : Netif :=
  { handle := 1, addr := ⟨4, ⟨10, 0, 0, 1⟩, ⟨255, 0, 0, 0⟩⟩ }

theorem ipHlSend_reassembles_sample :
    Reassembles (ipHlSend logSend sampleNetif 0 sampleHeader [⟨[1, 2, 3], 0⟩] []).1 [1, 2, 3] :=
  (ipHlSend_reassembles_iff sampleNetif 0 sampleHeader [⟨[1, 2, 3], 0⟩] rfl (by decide)).2
    (Or.inl (by decide))

theorem not_reassembles_1401_bytes :
    ¬ Reassembles (ipHlSend logSend sampleNetif 0 sampleHeader [⟨List.replicate 1401 7, 0⟩] []).1
      (Block.bytes [⟨List.replicate 1401 7, 0⟩]) := by
  have hlen : (Block.bytes [⟨List.replicate 1401 7, 0⟩]).length = 1401 := by
    rw [Block.bytes, List.flatMap_singleton]
    exact List.length_replicate
  exact not_reassembles_of_long sampleNetif 0 rfl (by omega) (by omega)

end Ip
end DtsNet
