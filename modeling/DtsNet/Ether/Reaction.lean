import DtsNet.Dblk.Cutting
import DtsNet.Ether.Resolution
import DtsNet.Icmp

/-!
# Reaction — what a received frame makes a host send

A frame has a rank: an echo request in more than one fragment's worth of bytes the highest, then
other echo requests, then ARP requests, and last everything that is not answered at all.  The rank is
read from the bytes in the receive buffer, whatever they are, as `ether_ll_recv` reads them.  Every
frame that a host sends because of another one has a smaller rank.
-/

namespace DtsNet
namespace Ether

open Dblk Ip Arp Icmp
open Tcp (TimerLib)

/-! ## Ranks -/

def arpRank (data : List Byte) (dataSize : ℕ) : ℕ :=
  match arpUnpack data dataSize with
  | none => 0
  | some pkt => if pkt.op = arpOpReq then 1 else 0

/-- A reply to 1400 bytes is one fragment, a reply to more are several. -/
def icmpRank (data : List Byte) (size : ℕ) : ℕ :=
  match icmpUnpack data size with
  | none => 0
  | some datagram =>
      if datagram.type = icmpTypeEcho then
        if size ≤ 1400 then 2 else 3
      else
        0

/-- The rank of what `ip_ll_recv` hands up; no other protocol answers. -/
def ipRank (rawData : List Byte) (size : ℕ) : ℕ :=
  ipLlRecv (fun _ _ data size _ => icmpRank data size) (fun _ _ _ _ r => r) (fun _ _ _ _ r => r) none
    Header.zero rawData size 0

def frameRank (data : List Byte) (dataSize : ℕ) : ℕ :=
  match etherUnpack data dataSize with
  | none => 0
  | some frame =>
      if frame.type = etherTypeArp then
        arpRank frame.payload (UInt8.ofNat frame.payloadSize).toNat
      else if frame.type = etherTypeIp then
        ipRank frame.payload frame.payloadSize
      else
        0

theorem arpRank_le (data : List Byte) (dataSize : ℕ) : arpRank data dataSize ≤ 1 := by
  unfold arpRank
  split
  · exact Nat.zero_le 1
  · split
    · exact Nat.le_refl 1
    · exact Nat.zero_le 1

theorem icmpRank_le {data : List Byte} {size : ℕ} (h : size ≤ 1400) : icmpRank data size ≤ 2 := by
  unfold icmpRank
  split
  · exact Nat.zero_le 2
  · split
    · exact Nat.le_refl 2
    · exact Nat.zero_le 2

/-! ## A frame on the wire -/

/-- The padding is zero, the checksum of the frame may be anything. -/
def zeroPadded (frame : List Byte) (crc : UInt32) : OnWire frame :=
  { pad := List.replicate (60 - frame.length) 0
    crc := bw32 crc
    length_pad := List.length_replicate
    length_crc := rfl }

/-- Wherever the frame is received, it has a rank below `r`. -/
def RanksBelow (r : ℕ) (frame : List Byte) : Prop :=
  ∀ (crc : UInt32) (rest : List Byte),
    frameRank ((zeroPadded frame crc).bytes ++ rest) (zeroPadded frame crc).bytes.length < r

theorem RanksBelow.mono {r r' : ℕ} {frame : List Byte} (h : RanksBelow r frame) (hle : r ≤ r') :
    RanksBelow r' frame :=
  fun crc rest => Nat.lt_of_lt_of_le (h crc rest) hle

/-- What a receiver finds in a frame of at most 1500 bytes or so. -/
theorem etherUnpack_zeroPadded (dest src : Mac) (type : UInt16) {payload : List Byte}
    (hlen : payload.length ≤ 60000) (crc : UInt32) (rest : List Byte) :
    let wire := zeroPadded (frameBytes dest src type payload) crc
    ∃ u, etherUnpack (wire.bytes ++ rest) wire.bytes.length = some u ∧ u.type = type ∧
      u.payload = payload ++ (wire.tail ++ rest) ∧ u.payloadSize = wire.bytes.length - 18 := by
  intro wire
  have hframe := length_frameBytes dest src type payload
  have htail := wire.length_tail
  have hbytes := wire.length_bytes
  have hsize : wire.bytes.length = 14 + payload.length + wire.tail.length := by
    rw [OnWire.bytes, List.length_append, hframe]
  rcases @etherUnpack_frameBytes dest src type payload wire.tail rest wire.bytes.length hsize
    (by omega) (by omega) with ⟨sum, hunpack⟩
  exact ⟨_, hunpack, rfl, List.append_assoc _ _ _, rfl⟩

/-- An ARP packet is at most a request. -/
theorem ranksBelow_arp (dest src : Mac) {payload : List Byte} (hlen : payload.length ≤ 60000) :
    RanksBelow 2 (frameBytes dest src etherTypeArp payload) := by
  intro crc rest
  rcases etherUnpack_zeroPadded dest src etherTypeArp hlen crc rest with ⟨u, hu, htype, -, -⟩
  simp only [frameRank, hu, htype, if_true]
  exact Nat.lt_succ_of_le (arpRank_le _ _)

theorem length_arpPack_le (pkt : ArpPacket) : (arpPack pkt 32).length ≤ 32 := by
  unfold arpPack
  split
  · exact Nat.zero_le 32
  · next hfits =>
      simp only [arpSize] at hfits
      simp only [List.length_append, length_bw16, length_memRead, List.length_cons, List.length_nil]
      omega

/-- A packet that is packed shows its operation, and one that is not packed shows only padding. -/
theorem op_of_arpPack {pkt read : ArpPacket} {behind : List Byte} {size : ℕ}
    (hpad : arpPack pkt 32 = [] → br16 (behind.drop 6) = 0)
    (h : arpUnpack (arpPack pkt 32 ++ behind) size = some read) : read.op = pkt.op ∨ read.op = 0 := by
  rcases arpUnpack_some h with ⟨-, -, -, -, -, hop, -⟩
  by_cases hfits : 32 < arpSize pkt
  · have hnil : arpPack pkt 32 = [] := if_pos hfits
    right
    rw [hop, hnil, List.nil_append]
    exact hpad hnil
  · left
    rw [hop, arpPack, if_neg hfits]
    simp only [List.append_assoc]
    exact br16_bw16_append pkt.op _

/-- A frame without a payload is padding at the place of the operation. -/
theorem br16_padding (dest src : Mac) (crc : UInt32) (rest : List Byte) :
    br16 (((zeroPadded (frameBytes dest src etherTypeArp []) crc).tail ++ rest).drop 6) = 0 := by
  have hlen : (frameBytes dest src etherTypeArp []).length = 14 := length_frameBytes dest src _ []
  have htail : (zeroPadded (frameBytes dest src etherTypeArp []) crc).tail =
      List.replicate 46 0 ++ bw32 crc := by
    simp only [OnWire.tail, zeroPadded, hlen]
  have hzero : bw16 0 = [0, 0] := by decide
  have hdrop : (List.replicate 46 0 ++ bw32 crc ++ rest).drop 6 =
      [0, 0] ++ (List.replicate 38 0 ++ bw32 crc ++ rest) := rfl
  rw [htail, hdrop, ← hzero, br16_bw16_append]

/-- A reply is not answered. -/
theorem ranksBelow_arpReply (dest src : Mac) {pkt : ArpPacket} (hop : pkt.op = arpOpRpl) :
    RanksBelow 1 (frameBytes dest src etherTypeArp (arpPack pkt 32)) := by
  intro crc rest
  have hlen := length_arpPack_le pkt
  rcases etherUnpack_zeroPadded dest src etherTypeArp (by omega : (arpPack pkt 32).length ≤ 60000) crc
    rest with ⟨u, hu, htype, hpayload, -⟩
  simp only [frameRank, hu, htype, if_true, arpRank, hpayload]
  split
  · exact Nat.one_pos
  · next read hread =>
      have hpad : arpPack pkt 32 = [] →
          br16 (((zeroPadded (frameBytes dest src etherTypeArp (arpPack pkt 32)) crc).tail ++
            rest).drop 6) = 0 := by
        intro hnil
        rw [hnil]
        exact br16_padding dest src crc rest
      have hne : read.op ≠ arpOpReq := by
        rcases op_of_arpPack hpad hread with h | h
        · rw [h, hop]
          decide
        · rw [h]
          decide
      rw [if_neg hne]
      exact Nat.one_pos

/-! ## Datagrams on the wire -/

section Datagram

variable {dest src : Mac} {sent : Header} {sum : UInt16} {bytes : List Byte}

/-- The rank of a datagram whose header tells its length is that of its message. -/
theorem frameRank_datagram (hver : sent.version = 4)
    (htotal : sent.totalLength = UInt16.ofNat bytes.length + 20) (hlen : bytes.length ≤ 1400)
    (crc : UInt32) (rest : List Byte) :
    ∃ behind,
      let wire := zeroPadded (frameBytes dest src etherTypeIp (plainHeader sent sum ++ bytes)) crc
      frameRank (wire.bytes ++ rest) wire.bytes.length = 0 ∨
        frameRank (wire.bytes ++ rest) wire.bytes.length = icmpRank (bytes ++ behind) bytes.length := by
  let wire := zeroPadded (frameBytes dest src etherTypeIp (plainHeader sent sum ++ bytes)) crc
  have hplain : (plainHeader sent sum ++ bytes).length = 20 + bytes.length := by
    rw [List.length_append, length_plainHeader]
  have hbytes := wire.length_bytes
  rcases etherUnpack_zeroPadded dest src etherTypeIp
    (by omega : (plainHeader sent sum ++ bytes).length ≤ 60000) crc rest with
    ⟨u, hu, htype, hpayload, hsize⟩
  have hne : etherTypeIp ≠ etherTypeArp := by decide
  have hmem : u.payload = plainHeader sent sum ++ (bytes ++ (wire.tail ++ rest)) := by
    rw [hpayload, List.append_assoc]
  have hsize' : u.payloadSize = wire.bytes.length - 18 := hsize
  rcases ipHeaderUnpack_plain hver sum (bytes ++ (wire.tail ++ rest)) Header.zero
    (show 20 ≤ u.payloadSize by omega) with ⟨read, hread, hihl, htotal', hproto, -, -⟩
  have hhdrSz : read.ihl.toNat * 4 = 20 := by
    rw [hihl]
    rfl
  have hdrop : (plainHeader sent sum ++ (bytes ++ (wire.tail ++ rest))).drop 20 =
      bytes ++ (wire.tail ++ rest) :=
    List.drop_left' (length_plainHeader sent sum)
  have hpayloadSize : (read.totalLength - UInt16.ofNat 20).toNat = bytes.length := by
    have h20 : UInt16.ofNat 20 = 20 := rfl
    rw [htotal', htotal, h20, UInt16.add_sub_cancel]
    exact UInt16.toNat_ofNat_of_lt' (show bytes.length < 65536 by omega)
  refine ⟨wire.tail ++ rest, ?_⟩
  simp only [frameRank, hu, htype, if_neg hne, if_true, ipRank, ipLlRecv, hmem, hread, hhdrSz, hdrop,
    hpayloadSize]
  split
  · exact Or.inr rfl
  · left
    split
    · rfl
    · split <;> rfl

/-- Datagrams of at most 1400 bytes have no rank above the second. -/
theorem ranksBelow_datagram (hver : sent.version = 4)
    (htotal : sent.totalLength = UInt16.ofNat bytes.length + 20) (hlen : bytes.length ≤ 1400) :
    RanksBelow 3 (frameBytes dest src etherTypeIp (plainHeader sent sum ++ bytes)) := by
  intro crc rest
  rcases @frameRank_datagram dest src sent sum bytes hver htotal hlen crc rest with ⟨_, h | h⟩
  · rw [h]
    decide
  · rw [h]
    exact Nat.lt_succ_of_le (icmpRank_le hlen)

/-- An echo reply is not answered. -/
theorem ranksBelow_echoReply (hver : sent.version = 4)
    (htotal : sent.totalLength = UInt16.ofNat bytes.length + 20) (hlen : bytes.length ≤ 1400)
    (hfirst : bytes.head? = some icmpTypeEchoReply) :
    RanksBelow 1 (frameBytes dest src etherTypeIp (plainHeader sent sum ++ bytes)) := by
  intro crc rest
  rcases @frameRank_datagram dest src sent sum bytes hver htotal hlen crc rest with ⟨behind, h | h⟩
  · rw [h]
    exact Nat.one_pos
  · rw [h, icmpRank]
    split
    · exact Nat.one_pos
    · next datagram hunpack =>
        have htype : datagram.type = icmpTypeEchoReply := by
          rw [(icmpUnpack_some hunpack).2]
          cases bytes with
          | nil =>
              cases hfirst
          | cons b bytes =>
              exact Option.some.inj hfirst
        have hne : datagram.type ≠ icmpTypeEcho := by
          rw [htype]
          decide
        rw [if_neg hne]
        exact Nat.one_pos

end Datagram

/-! ## The fragments of one node -/

/-- The node has the bytes that it says, and no more than fit into a fragment. -/
structure Short (fsize : ℕ) (v : VNode) : Prop where
  wellFormed : v.WellFormed
  length_le : v.bytes.length ≤ fsize

theorem short_vnode {fsize vsize : ℕ} {data : List Byte} (hle : vsize ≤ fsize)
    (hdata : vsize ≤ data.length) (hzero : vsize = 0 → data = []) :
    Short fsize { data := data, vsize := vsize, vmem := [] } := by
  by_cases h0 : vsize = 0
  · subst h0
    rw [hzero rfl]
    exact ⟨rfl, Nat.zero_le _⟩
  · have hpos : 0 < vsize := Nat.pos_of_ne_zero h0
    have hbytes : ({ data := data, vsize := vsize, vmem := [] } : VNode).bytes = data.take vsize := by
      rw [bytes_vnode hpos]
      exact congrArg (List.take vsize) (List.append_nil data)
    have hlen : (data.take vsize).length = vsize := List.length_take_of_le hdata
    refine ⟨?_, ?_⟩
    · rw [VNode.WellFormed, hbytes, dblkNodeSize_vnode hpos, hlen]
    · rw [hbytes, hlen]
      exact hle

theorem fragmentLoop_nil {fsize n offset : ℕ} {v : VNode} (hv : v ∈ fragmentLoop fsize n [] offset) :
    Short fsize v := by
  cases n with
  | zero =>
      cases hv
  | succ n =>
      rw [fragmentLoop, List.mem_replicate] at hv
      rw [hv.2]
      exact ⟨rfl, Nat.zero_le _⟩

/-- A block of one node is cut without a remainder that goes wrong. -/
theorem fragmentLoop_single {fsize n : ℕ} {node : Node} {offset : ℕ} (hpos : 0 < fsize)
    (hfsize : fsize < 65536) (hnode : node.size < 65536) (hoff : offset ≤ node.size) :
    ∀ v ∈ fragmentLoop fsize n [(node, false)] offset, Short fsize v := by
  induction n generalizing offset with
  | zero =>
      intro v hv
      cases hv
  | succ n ih =>
      let p : Place :=
        { node := node
          offset := offset
          rest := []
          offset_le := hoff
          size_lt := fun m hm => (List.mem_singleton.1 hm) ▸ hnode }
      have hown : p.own.length = node.size - offset := p.length_own
      have hloop : fragmentLoop fsize (n + 1) [(node, false)] offset = _ :=
        fragmentLoop_place hfsize n p []
      rw [hloop]
      split
      -- the next fragment starts in the node as well
      · next hlong =>
          have hlong : offset + fsize < node.size := hlong
          intro v hv
          rcases List.mem_cons.1 hv with rfl | hv
          · exact short_vnode (Nat.le_refl _) (by omega) fun h0 =>
              absurd h0 (Nat.ne_of_gt hpos)
          · exact ih (Nat.le_of_lt hlong) v hv
      · split
        -- the fragment ends with the block
        · next hshort =>
            have hshort : node.size < offset + fsize := hshort
            have hvsize : (UInt16.ofNat fsize - UInt16.ofNat (offset + fsize - node.size)).toNat =
                node.size - offset := by
              have hlt : offset + fsize - node.size < 65536 := by omega
              have hle : UInt16.ofNat (offset + fsize - node.size) ≤ UInt16.ofNat fsize := by
                rw [UInt16.le_iff_toNat_le, UInt16.toNat_ofNat_of_lt' hlt,
                  UInt16.toNat_ofNat_of_lt' hfsize]
                omega
              rw [UInt16.toNat_sub_of_le _ _ hle, UInt16.toNat_ofNat_of_lt' hlt,
                UInt16.toNat_ofNat_of_lt' hfsize]
              omega
            intro v hv
            rcases List.mem_cons.1 hv with rfl | hv
            · have hshape : Short fsize { data := p.own, vsize := node.size - offset, vmem := [] } :=
                short_vnode (by omega) (Nat.le_of_eq hown.symm) fun h0 =>
                  List.eq_nil_of_length_eq_zero (hown.trans h0)
              rw [← hvsize] at hshape
              exact hshape
            · exact fragmentLoop_nil hv
        · next hnot hnot' =>
            have hend : node.size = offset + fsize :=
              Nat.le_antisymm (Nat.not_lt.1 hnot) (Nat.not_lt.1 hnot')
            intro v hv
            rcases List.mem_cons.1 hv with rfl | hv
            · exact short_vnode (Nat.le_refl _) (by omega) fun h0 =>
                List.eq_nil_of_length_eq_zero (hown.trans (by omega))
            · exact fragmentLoop_nil hv

/-- The fragments of a message of more than one fragment's worth of bytes. -/
theorem dblkFragment_message {node : Node} (hlong : 1400 < node.size) (hnode : node.size < 65536) :
    (dblkFragment (blockChain [node]) 1400).length ≤ 47 ∧
      ∀ v ∈ dblkFragment (blockChain [node]) 1400, Short 1400 v := by
  have hhead : headSize [node] ≠ 0 := Nat.ne_of_gt (Nat.zero_lt_of_lt hlong)
  have hbytes : Block.bytes [node] = node.data := List.append_nil _
  have hlen : (Block.bytes [node]).length = node.size := congrArg List.length hbytes
  constructor
  · have hcount := (dblkFragment_many (by omega) (by omega) hhead (hlen ▸ hlong)).1
    rw [hlen] at hcount
    omega
  · have hne : node.size ≠ 0 := hhead
    have hchain : dblkFragment (blockChain [node]) 1400 = _ := dblkFragment_cons hne false [] 1400
    rw [hchain]
    exact fragmentLoop_single (by omega) (by omega) hnode (Nat.zero_le _)

/-! ## The lower layer -/

/-- What was given to the driver besides: at most `n` frames, each with a rank below `r` wherever it
arrives. -/
def Sends (r n : ℕ) (sent sent' : List (EtherT × List Byte)) : Prop :=
  ∃ new, sent' = sent ++ new ∧ new.length ≤ n ∧ ∀ f ∈ new, RanksBelow r f.2

namespace Sends

variable {r n m : ℕ} {sent s s' : List (EtherT × List Byte)}

theorem refl (r n : ℕ) (sent : List (EtherT × List Byte)) : Sends r n sent sent :=
  ⟨[], (List.append_nil sent).symm, Nat.zero_le n, fun _ hf => nomatch hf⟩

theorem one {eth : EtherT} {frame : List Byte} (h : RanksBelow r frame) :
    Sends r 1 sent (sent ++ [(eth, frame)]) := by
  refine ⟨[(eth, frame)], rfl, Nat.le_refl 1, ?_⟩
  intro f hf
  rw [List.mem_singleton.1 hf]
  exact h

theorem trans (h : Sends r n sent s) (h' : Sends r m s s') : Sends r (m + n) sent s' := by
  rcases h with ⟨new, rfl, hlen, hnew⟩
  rcases h' with ⟨new', rfl, hlen', hnew'⟩
  refine ⟨new ++ new', List.append_assoc _ _ _, ?_, ?_⟩
  · rw [List.length_append]
    omega
  · intro f hf
    rcases List.mem_append.1 hf with hf | hf
    · exact hnew f hf
    · exact hnew' f hf

theorem mono {r' : ℕ} (h : Sends r n sent s) (hr : r ≤ r') (hn : n ≤ m) : Sends r' m sent s := by
  rcases h with ⟨new, hs, hlen, hnew⟩
  exact ⟨new, hs, Nat.le_trans hlen hn, fun f hf => (hnew f hf).mono hr⟩

end Sends

section Sending

variable {τ : Type} [ListLib] {h : EtherArp τ} {malloc : Bool}

/-- An unknown address costs one request. -/
theorem etherArpGetMacAddress_sends {eth : EtherT} {target : V4} {sent s : List (EtherT × List Byte)}
    {mac : Option Mac} (hget : etherArpGetMacAddress logFrame h eth target sent = some (s, mac)) :
    (s = sent ∧ mac ≠ none) ∨ (Sends 2 1 sent s ∧ mac = none) := by
  unfold etherArpGetMacAddress at hget
  split at hget
  · cases hget
    exact Or.inl ⟨rfl, Option.some_ne_none _⟩
  · rcases Option.map_eq_some_iff.1 hget with ⟨localhost, -, hsent⟩
    have hlen : (etherArpAskIp eth.macAddress localhost.addr.addr target).length ≤ 32 :=
      length_arpPack_le _
    have hsend := etherHlSend_arpFrame logFrame eth ethernetBroadcastAddress
      (Nat.le_trans hlen (by decide)) sent
    simp only [hsend, logFrame, Prod.mk.injEq] at hsent
    rcases hsent with ⟨rfl, rfl⟩
    exact Or.inr ⟨Sends.one (ranksBelow_arp _ _ (Nat.le_trans hlen (by decide))), rfl⟩

/-- One datagram is at most one frame: the request for the address, or the datagram itself. -/
theorem ipEtherSend_sends {r : ℕ} (hr : 2 ≤ r) {eth : EtherT} {dest : IpAddr} {block : List VNode}
    (hwf : ∀ n ∈ block, n.WellFormed) (hsize : (vbytes block).length + 14 ≤ 2048)
    (hframe : ∀ mac, RanksBelow r (frameBytes mac eth.macAddress etherTypeIp (vbytes block)))
    {sent s : List (EtherT × List Byte)} {ok : Bool}
    (hsend : ipEtherSend logFrame malloc h eth dest [block] sent = some (s, ok)) :
    Sends r 1 sent s := by
  -- with the address known, only the buffer may be missing
  have hknown : ∀ mac : Mac,
      (if malloc then
        (etherSendLoop logFrame eth [block]
          { destMacAddr := mac
            srcMacAddr := ⟨0, 0, 0, 0, 0, 0⟩
            payload := []
            type := etherTypeIp
            data := List.replicate 2048 0
            dataSize := 2048 } sent, true)
      else (sent, false)) = (s, ok) → Sends r 1 sent s := by
    intro mac hs
    cases malloc with
    | false =>
        cases hs
        exact Sends.refl _ _ _
    | true =>
        rw [if_pos rfl, etherSendLoop_single sent (show ¬ etherTypeIp < 0x05DC by decide) hwf hsize] at hs
        cases hs
        exact Sends.one (hframe mac)
  unfold ipEtherSend at hsend
  by_cases hb : ipAddrBroadcast dest = true
  · simp only [hb, if_true, Option.map_some, Option.some.injEq] at hsend
    exact hknown _ hsend
  · rw [if_neg hb] at hsend
    rcases Option.map_eq_some_iff.1 hsend with ⟨⟨s', mac⟩, hget, hs⟩
    rcases etherArpGetMacAddress_sends hget with ⟨rfl, hmac⟩ | ⟨hasked, rfl⟩
    · rcases Option.ne_none_iff_exists'.1 hmac with ⟨mac, rfl⟩
      exact hknown mac hs
    · cases hs
      exact hasked.mono hr (Nat.le_refl 1)

/-- The header and the message of a datagram, as they lie in its frame. -/
structure DatagramBelow (r : ℕ) (d : IpDatagram) : Prop where
  wellFormed : ∀ n ∈ d.payload, n.WellFormed
  length_le : d.rawData.length + (vbytes d.payload).length ≤ 1420
  rank : ∀ mac src, RanksBelow r (frameBytes mac src etherTypeIp (d.rawData ++ vbytes d.payload))

theorem ipLlSend_sends {r : ℕ} (hr : 2 ≤ r) {ip : Netif} {d : IpDatagram} (hd : DatagramBelow r d)
    {sent s : List (EtherT × List Byte)} {ok : Bool}
    (hsend : ipLlSend logFrame malloc h ip (some sent) d = (some s, ok)) : Sends r 1 sent s := by
  unfold ipLlSend at hsend
  cases hll : h.ll ip.handle with
  | none =>
      simp [hll] at hsend
  | some eth =>
      simp only [hll] at hsend
      split at hsend
      · next s' ok' hok =>
          cases hsend
          have hbytes : vbytes (dblkNodeInit d.rawData :: d.payload) = d.rawData ++ vbytes d.payload := by
            rw [vbytes_cons, bytes_init]
          refine ipEtherSend_sends hr ?_ ?_ ?_ hok
          · intro n hn
            rcases List.mem_cons.1 hn with rfl | hn
            · exact wellFormed_init d.rawData
            · exact hd.wellFormed n hn
          · have hle := hd.length_le
            rw [hbytes, List.length_append]
            omega
          · intro mac
            rw [hbytes]
            exact hd.rank mac eth.macAddress
      · simp at hsend

omit [ListLib] in
/-- A datagram with a plain header, whose message is no longer than a fragment. -/
theorem datagramBelow_packed {r : ℕ} {hdr : Header} {bufSize : ℕ} {payload : List VNode}
    (hver : hdr.version = 4) (hopt : hdr.optionSize = 0) (hbuf : 20 ≤ bufSize)
    (htotal : hdr.totalLength = UInt16.ofNat (vbytes payload).length)
    (hwf : ∀ n ∈ payload, n.WellFormed) (hlen : (vbytes payload).length ≤ 1400)
    (hr : 3 ≤ r ∨ 1 ≤ r ∧ (vbytes payload).head? = some icmpTypeEchoReply) :
    DatagramBelow r (packedDatagram hdr bufSize payload) := by
  rcases ipHeaderPack_plain hver hopt hbuf with ⟨sum, hraw⟩
  have hrawData : (packedDatagram hdr bufSize payload).rawData =
      plainHeader { hdr with totalLength := hdr.totalLength + 20 } sum := hraw
  have hpayload : (packedDatagram hdr bufSize payload).payload = payload := rfl
  have hver' : ({ hdr with totalLength := hdr.totalLength + 20 } : Header).version = 4 := hver
  have htotal' : ({ hdr with totalLength := hdr.totalLength + 20 } : Header).totalLength =
      UInt16.ofNat (vbytes payload).length + 20 :=
    congrArg (· + 20) htotal
  refine ⟨hwf, ?_, ?_⟩
  · rw [hrawData, hpayload, length_plainHeader]
    omega
  · intro mac src
    rw [hrawData, hpayload]
    rcases hr with hr | ⟨hr, hfirst⟩
    · exact RanksBelow.mono (ranksBelow_datagram hver' htotal' hlen) hr
    · exact RanksBelow.mono (ranksBelow_echoReply hver' htotal' hlen hfirst) hr

/-! ## Fragments of a reply -/

/-- Behind a null pointer the loop does nothing. -/
theorem sendFragments_lost (h : EtherArp τ) (malloc : Bool) (ip : Netif) (vs : List VNode) (hdr : Header) (rawSize : ℕ) :
    (sendFragments (ipLlSend logFrame malloc h ip) vs hdr rawSize none).1 = none := by
  cases vs with
  | nil =>
      rfl
  | cons v vs =>
      cases hll : h.ll ip.handle <;> simp [sendFragments, ipLlSend, hll]

/-- Each fragment is at most one frame, and after a refusal there are no others. -/
theorem sendFragments_sends {ip : Netif} {vs : List VNode} {hdr : Header} {rawSize : ℕ}
    {sent s : List (EtherT × List Byte)} {ok : Bool} (hver : hdr.version = 4)
    (hopt : hdr.optionSize = 0) (hraw : 20 ≤ rawSize) (hvs : ∀ v ∈ vs, Short 1400 v)
    (hsend : sendFragments (ipLlSend logFrame malloc h ip) vs hdr rawSize (some sent) =
      (some s, ok)) : Sends 3 vs.length sent s := by
  induction vs generalizing hdr rawSize sent with
  | nil =>
      cases hsend
      exact Sends.refl _ _ _
  | cons v vs ih =>
      have hv := hvs v List.mem_cons_self
      have hbytes : vbytes [v] = v.bytes := List.append_nil _
      let d := packedDatagram (fragmentHeader hdr v vs) rawSize [v]
      have hver' : (fragmentHeader hdr v vs).version = 4 := hver
      have hopt' : (fragmentHeader hdr v vs).optionSize = 0 := hopt
      have hd : DatagramBelow 3 d := by
        apply datagramBelow_packed hver' hopt' hraw
        · rw [hbytes, hv.wellFormed]
          rfl
        · intro n hn
          rw [List.mem_singleton.1 hn]
          exact hv.wellFormed
        · rw [hbytes]
          exact hv.length_le
        · exact Or.inl (Nat.le_refl 3)
      have hloop : sendFragments (ipLlSend logFrame malloc h ip) (v :: vs) hdr rawSize (some sent) =
          let out := ipLlSend logFrame malloc h ip (some sent) d
          if out.2 then
            sendFragments (ipLlSend logFrame malloc h ip) vs (updateHeader d.header) d.rawData.length
              out.1
          else (out.1, false) := rfl
      rw [hloop] at hsend
      dsimp only at hsend
      cases hout : ipLlSend logFrame malloc h ip (some sent) d with
      | mk s₁ ok₁ =>
          rw [hout] at hsend
          cases ok₁ with
          | false =>
              cases hsend
              exact (ipLlSend_sends (by decide) hd hout).mono (Nat.le_refl 3) (Nat.le_add_left 1 _)
          | true =>
              cases s₁ with
              | none =>
                  have hlost := sendFragments_lost h malloc ip vs (updateHeader d.header)
                    d.rawData.length
                  rw [if_pos rfl] at hsend
                  rw [hsend] at hlost
                  cases hlost
              | some s₁ =>
                  have hone := ipLlSend_sends (by decide) hd hout
                  rcases packedDatagram_eq hopt' hraw [v] with ⟨checksum, rest, -, hheader, -⟩
                  have hver₁ : (updateHeader d.header).version = 4 := by
                    rw [updateHeader, hheader]
                    exact hver
                  have hopt₁ : (updateHeader d.header).optionSize = 0 := by
                    rw [updateHeader, hheader]
                    exact hopt
                  have hraw₁ : 20 ≤ d.rawData.length :=
                    Nat.le_of_eq (length_rawData hopt' hraw [v]).symm
                  exact hone.trans
                    (ih hver₁ hopt₁ hraw₁ (fun w hw => hvs w (List.mem_cons_of_mem v hw)) hsend)

/-! ## Replies -/

omit [ListLib] in
/-- The reply that is packed over a request begins with its type. -/
theorem head_icmpPack (datagram : IcmpT) (htype : datagram.type = icmpTypeEchoReply)
    (data : List Byte) : ∃ rest, (icmpPack datagram data).2.1 = icmpTypeEchoReply :: rest := by
  -- every later write is behind the first byte
  have hwrite : ∀ (a : Byte) (mem : List Byte) (i : ℕ) (bs : List Byte),
      memWriteAt (a :: mem) (i + 1) bs = a :: memWriteAt mem i bs := fun _ _ _ _ => rfl
  have hfirst : ∃ rest, memWriteAt data 0 ([icmpTypeEchoReply, 0] ++ bw16 0) =
      icmpTypeEchoReply :: rest := ⟨_, rfl⟩
  rcases hfirst with ⟨rest, hfirst⟩
  simp only [icmpPack, htype, true_or, if_true, hfirst]
  split
  · exact ⟨rest, rfl⟩
  · exact ⟨_, (hwrite _ _ 1 _).trans rfl⟩

omit [ListLib] in
theorem head_memRead (a : Byte) (mem : List Byte) {size : ℕ} (hsize : 0 < size) :
    (memRead (a :: mem) size).head? = some a := by
  cases size with
  | zero =>
      cases hsize
  | succ size =>
      rfl

omit [ListLib] in
/-- A message of at least one fragment's worth of bytes is sent in fragments. -/
theorem ipHlSend_fragments {σ : Type} (llSend : σ → IpDatagram → σ × Bool) (ip : Netif) (ident : ℕ)
    (hdr : Header) {payload : Block} (hlong : 1400 ≤ payload.bytes.length) (s : σ) :
    ipHlSend llSend ip ident hdr payload s =
      sendFragments llSend (dblkFragment (blockChain payload) 1400)
        { callHeader ip ident hdr with fragmentOffset := 0 } 64 s := by
  rw [← dblkSize_eq_length_bytes] at hlong
  rw [ipHlSend, if_neg (Nat.not_lt.2 hlong)]
  rfl

omit [ListLib] in
theorem sendFragments_one {σ : Type} (llSend : σ → IpDatagram → σ × Bool) (v : VNode) (hdr : Header)
    (rawSize : ℕ) (s : σ) :
    (sendFragments llSend [v] hdr rawSize s).1 =
      (llSend s (packedDatagram (fragmentHeader hdr v []) rawSize [v])).1 := by
  have hloop : sendFragments llSend [v] hdr rawSize s =
      let out := llSend s (packedDatagram (fragmentHeader hdr v []) rawSize [v])
      if out.2 then (out.1, true) else (out.1, false) := rfl
  rw [hloop]
  dsimp only
  split <;> rfl

/-- A reply to at most 1400 bytes is one datagram, alone or as the only fragment. -/
theorem ipHlSend_echoReply {ip : Netif} (hver : ip.addr.version = 4) (ident : ℕ) {hdr : Header}
    (hopt : hdr.optionSize = 0) {node : Node} (hpos : 0 < node.size) (hle : node.size ≤ 1400)
    (hfirst : node.data.head? = some icmpTypeEchoReply) {sent s : List (EtherT × List Byte)}
    (hsend : (ipHlSend (ipLlSend logFrame malloc h ip) ip ident hdr [node] (some sent)).1 = some s) :
    Sends 2 1 sent s := by
  have hbytes : Block.bytes [node] = node.data := List.append_nil _
  have hlen : (Block.bytes [node]).length = node.size := congrArg List.length hbytes
  have hver' : (callHeader ip ident hdr).version = 4 := by
    simp only [callHeader, hver]
    rfl
  by_cases hshort : node.size < 1400
  · rw [ipHlSend_short _ ip ident hdr (hlen ▸ hshort)] at hsend
    have hvbytes : vbytes ([node].map Node.toVNode) = node.data := (vbytes_toVNode [node]).trans hbytes
    let call : Header :=
      { callHeader ip ident hdr with
        totalLength := UInt16.ofNat (Block.bytes [node]).length, fragmentOffset := 0 }
    have hd : DatagramBelow 2 (packedDatagram call 64 ([node].map Node.toVNode)) := by
      have hcall : call.version = 4 := hver'
      have hoptCall : call.optionSize = 0 := hopt
      apply datagramBelow_packed hcall hoptCall (by decide)
      · rw [hvbytes, ← hbytes]
      · intro n hn
        rcases List.mem_map.1 hn with ⟨m, -, rfl⟩
        exact wellFormed_init m.data
      · rw [hvbytes]
        exact hle
      · rw [hvbytes]
        exact Or.inr ⟨by decide, hfirst⟩
    exact ipLlSend_sends (Nat.le_refl 2) hd (Prod.ext hsend rfl)
  · have hfull : node.size = 1400 := Nat.le_antisymm hle (Nat.not_lt.1 hshort)
    rw [ipHlSend_fragments _ ip ident hdr (Nat.le_of_eq (hlen.trans hfull).symm)] at hsend
    have hhead : headSize [node] ≠ 0 := Nat.ne_of_gt hpos
    rcases dblkFragment_one (by decide) hhead (hlen.trans hfull) with
      ⟨v, hfragments, hv, hvsize⟩
    rw [hfragments, sendFragments_one] at hsend
    have hvbytes : vbytes [v] = node.data := (List.append_nil _).trans (hv.trans hbytes)
    have hvlen : v.bytes.length = 1400 := by
      rw [hv, hlen, hfull]
    let call : Header := fragmentHeader { callHeader ip ident hdr with fragmentOffset := 0 } v []
    have hd : DatagramBelow 2 (packedDatagram call 64 [v]) := by
      have hcall : call.version = 4 := hver'
      have hoptCall : call.optionSize = 0 := hopt
      apply datagramBelow_packed hcall hoptCall (by decide)
      · have htotal : call.totalLength = UInt16.ofNat (dblkNodeSize v) := rfl
        rw [htotal, hvsize, hvbytes]
        exact congrArg UInt16.ofNat hfull.symm
      · intro n hn
        rw [List.mem_singleton.1 hn, VNode.WellFormed, hvlen, hvsize]
      · rw [hvbytes]
        exact hle
      · rw [hvbytes]
        exact Or.inr ⟨by decide, hfirst⟩
    exact ipLlSend_sends (Nat.le_refl 2) hd (Prod.ext hsend rfl)

/-- What `icmp_ip_recv` has sent when it returns. -/
theorem icmpIpRecv_sends {ip : Netif} (hver : ip.addr.version = 4) (ident : ℕ) {hdr : Header}
    (hopt : hdr.optionSize = 0) {data : List Byte} {size : ℕ} (hsize : size < 65536)
    {sent s : List (EtherT × List Byte)}
    (hrecv : icmpIpRecv (ipLlSend logFrame malloc h ip) ip ident hdr data size (some sent) =
      some s) : Sends (icmpRank data size) 47 sent s := by
  unfold icmpIpRecv at hrecv
  cases hunpack : icmpUnpack data size with
  | none =>
      simp only [hunpack, Option.some.injEq] at hrecv
      rw [hrecv]
      exact Sends.refl _ _ _
  | some datagram =>
      by_cases htype : datagram.type = icmpTypeEcho
      · have hrank : icmpRank data size = if size ≤ 1400 then 2 else 3 := by
          simp only [icmpRank, hunpack, if_pos htype]
        have h8 := (icmpUnpack_some hunpack).1
        rcases head_icmpPack { datagram with type := icmpTypeEchoReply, dataSize := size } rfl data with
          ⟨rest, hpacked⟩
        let node : Node := { data := memRead (icmpTypeEchoReply :: rest) size, offset := 0 }
        let reply := { hdr with dest := hdr.src, src := ip.addr }
        have hoptReply : reply.optionSize = 0 := hopt
        have hnode : node.size = size := length_memRead _ _
        have hbytes : Block.bytes [node] = node.data := List.append_nil _
        have hlen : (Block.bytes [node]).length = size := (congrArg List.length hbytes).trans hnode
        have hsent : (ipHlSend (ipLlSend logFrame malloc h ip) ip ident reply [node] (some sent)).1 =
            some s := by
          simp only [hunpack, if_pos htype, hpacked] at hrecv
          exact hrecv
        by_cases hle : size ≤ 1400
        · rw [hrank, if_pos hle]
          have hpos : 0 < node.size := by omega
          have hfirst : node.data.head? = some icmpTypeEchoReply := head_memRead _ rest (by omega)
          have hone := ipHlSend_echoReply hver ident hoptReply hpos (hnode ▸ hle) hfirst hsent
          exact hone.mono (Nat.le_refl 2) (by decide)
        · rw [hrank, if_neg hle]
          rw [ipHlSend_fragments _ ip ident reply (by omega)] at hsent
          have hlong : 1400 < node.size := by omega
          have hsmall : node.size < 65536 := by omega
          rcases dblkFragment_message hlong hsmall with ⟨hcount, hshort⟩
          let call : Header := { callHeader ip ident reply with fragmentOffset := 0 }
          have hverCall : call.version = 4 := by
            simp only [call, callHeader, hver]
            rfl
          have hoptCall : call.optionSize = 0 := hopt
          have hmany := sendFragments_sends hverCall hoptCall (by decide) hshort (Prod.ext hsent rfl)
          exact hmany.mono (Nat.le_refl 3) hcount
      · simp only [hunpack, if_neg htype, Option.some.injEq] at hrecv
        rw [hrecv]
        exact Sends.refl _ _ _

end Sending

/-! ## A received frame -/

theorem ipHeaderUnpack_optionSize {hdr read : Header} {data : List Byte} {size : ℕ}
    (hopt : hdr.optionSize = 0) (hread : ipHeaderUnpack hdr data size = some read) :
    read.optionSize = 0 := by
  unfold ipHeaderUnpack at hread
  dsimp only at hread
  split at hread
  · cases hread
  · split at hread
    · cases hread
    · cases hread
      split
      · rfl
      · split <;> exact hopt

section Receiving

variable {τ κ : Type} [ListLib] [TimerLib τ] [TimerRemain τ]

/-- `icmp_ip_recv` on a host.  Where it goes through a null pointer, it does so with the first
datagram, before anything is sent.  One answer of `malloc` stands for all frames of an arrival: a frame
that is missing for want of memory is one that is sent and then lost. -/
def icmpReceive (malloc : Bool) (ident : ℕ) : Receiver (Stack τ (List (EtherT × List Byte)) κ) :=
  fun ip hdr rawData size st =>
    match ip with
    | none => st
    | some ip =>
        match icmpIpRecv (ipLlSend logFrame malloc st.arp ip) ip ident hdr rawData size
          (some st.driver) with
        | none => st
        | some driver => { st with driver := driver }

/-- `tcp_ip_recv` on a host that has no connections. -/
def dropSegment {ρ : Type} : Receiver ρ := fun _ _ _ _ st => st

theorem etherArpEtherRecv_sends (now : ℕ) (ether : EtherT) (data : List Byte) (dataSize : ℕ)
    (h : EtherArp τ) (sent : List (EtherT × List Byte)) :
    Sends (arpRank data dataSize) 1 sent
      (etherArpEtherRecv logFrame now ether data dataSize h sent).2 := by
  unfold etherArpEtherRecv
  cases hunpack : arpUnpack data dataSize with
  | none =>
      exact Sends.refl _ _ _
  | some pkt =>
      simp only [etherArpReceive]
      split
      · exact Sends.refl _ _ _
      · split
        · next hreq =>
            have hrank : arpRank data dataSize = 1 := by
              simp only [arpRank, hunpack, if_pos hreq]
            split
            · exact Sends.refl _ _ _
            · next nif _ =>
                have hlen := length_arpPack_le (replyPacket pkt nif)
                have hsend := etherHlSend_arpFrame logFrame ether
                  (Mac.ofMem (replyPacket pkt nif).tha) (Nat.le_trans hlen (by decide)) sent
                rw [hrank]
                simp only [hsend, logFrame]
                exact Sends.one (ranksBelow_arpReply _ _ rfl)
        · exact Sends.refl _ _ _

omit [TimerLib τ] [TimerRemain τ] in
theorem icmpReceive_sends (malloc : Bool) (ident : ℕ) {ip : Option Netif}
    (hver : ∀ i, ip = some i → i.addr.version = 4) {hdr : Header} (hopt : hdr.optionSize = 0)
    (data : List Byte) {size : ℕ} (hsize : size < 65536)
    (st : Stack τ (List (EtherT × List Byte)) κ) :
    Sends (icmpRank data size) 47 st.driver (icmpReceive malloc ident ip hdr data size st).driver := by
  cases ip with
  | none =>
      exact Sends.refl _ _ _
  | some i =>
      unfold icmpReceive
      dsimp only
      split
      · exact Sends.refl _ _ _
      · next driver hrecv => exact icmpIpRecv_sends (hver i rfl) ident hopt hsize hrecv

/-- Every frame that a host without connections sends because of a received one has a smaller rank,
whatever was received; and there are at most as many as a message has fragments. -/
theorem etherLlRecv_sends [LawfulListLib] (malloc : Bool) (ident now : ℕ) (ether : EtherT)
    (data : List Byte) (dataSize : ℕ) {st : Stack τ (List (EtherT × List Byte)) κ}
    (hver : ∀ nif ∈ st.arp.nifList, nif.ip.addr.version = 4) :
    Sends (frameRank data dataSize) 47 st.driver
      (Stack.etherLlRecv logFrame (icmpReceive malloc ident) dropSegment now ether data dataSize
        st).1.driver := by
  unfold Stack.etherLlRecv
  split
  · cases hunpack : etherUnpack data dataSize with
    | none =>
        exact Sends.refl _ _ _
    | some frame =>
        by_cases harp : frame.type = etherTypeArp
        · have hip : frame.type ≠ etherTypeIp := by
            rw [harp]
            decide
          simp only [frameRank, hunpack, if_pos harp, if_neg hip]
          exact (etherArpEtherRecv_sends _ _ _ _ _ _).mono (Nat.le_refl _) (by decide)
        · by_cases hip : frame.type = etherTypeIp
          · simp only [frameRank, hunpack, if_neg harp, if_pos hip, ipRank, ipLlRecv]
            cases hread : ipHeaderUnpack Header.zero frame.payload frame.payloadSize with
            | none =>
                exact Sends.refl _ _ _
            | some read =>
                dsimp only
                split
                · refine icmpReceive_sends malloc ident ?_ (ipHeaderUnpack_optionSize rfl hread) _
                    (UInt16.toNat_lt _) st
                  -- the interface is a registered one
                  intro i hi
                  rcases Option.map_eq_some_iff.1 hi with ⟨nif, hfind, rfl⟩
                  exact hver nif (LawfulListLib.of_find_some hfind).1
                · split
                  · exact Sends.refl _ _ _
                  · split
                    · unfold Stack.udpReceive
                      split <;> exact Sends.refl _ _ _
                    · exact Sends.refl _ _ _
          · simp only [if_neg harp, if_neg hip]
            exact Sends.refl _ _ _
  · exact Sends.refl _ _ _

end Receiving

end Ether
end DtsNet
