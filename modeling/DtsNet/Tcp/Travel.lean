import DtsNet.Release.Path
import DtsNet.Tcp.Codec
import DtsNet.Tcp.Table
import DtsNet.Udp.Travel

/-!
# Travel — a TCP segment from one host to another

The way of a segment from `tcp_pack` through `tcp_ip_send` to the driver of the sender, over the wire,
and up through `ether_ll_recv` to the control block of the receiver.  What the machine of the
connections calls the arrival of a datagram is what is left of this way.
-/

namespace DtsNet
namespace Tcp

open Ip Dblk Ether

/-! ## What `tcp_pack` made -/

/-- Behind the segment lies the padding or the checksum of the frame; the handlers see the fields and
the payload that were packed. -/
theorem received_packed {src dest : V4} {protocol : UInt8} {seg : SegmentBlocks}
    {packed : SegmentBlocks × Block} {behindOptions behind beyond : List Byte} (h : Encodable seg)
    (hpack : tcpPackBlocks src dest protocol seg behindOptions behind = some packed) (sender : IpAddr)
    (hodd : seg.payload.bytes.length % 2 = 1 → beyond.getD 0 0 = behind.getD 0 0) :
    ∃ u, tcpUnpack src dest protocol (Block.bytes packed.2 ++ beyond)
        (UInt16.ofNat (totalSize seg)) = some u ∧
      u.received sender = { seg.fields with src := sender, beyond := beyond } := by
  rcases readBack_packed h hpack hodd with ⟨read, hread, hback, hpayload, hsize⟩
  rw [length_packed h hpack] at hread
  refine ⟨read, hread, ?_⟩
  have hdrop : read.payload.drop read.payloadSize.toNat = beyond := by
    rw [hpayload, hsize]
    exact List.drop_left
  simp only [TcpSegment.received, hback.payload, hdrop, hback.srcPort, hback.destPort, hback.seq,
    hback.ack, hback.dataOffset, hback.flags, hback.win, hback.urgentPtr, SegmentBlocks.fields]

/-! ## The sender -/

/-- The copy that `tcp_ip_send` makes has the bytes of the segment. -/
theorem bytes_copyOf {raw : Block} (h : raw.bytes.length < 65536) :
    Block.bytes [Release.copyOf raw] = raw.bytes := by
  have hsize : dblkSize raw % 65536 = raw.bytes.length := by
    rw [dblkSize_eq_length_bytes, Nat.mod_eq_of_lt h]
  have hwf : ∀ n ∈ raw.map Node.toVNode, n.WellFormed := by
    intro n hn
    rcases List.mem_map.1 hn with ⟨m, _, rfl⟩
    exact wellFormed_init m.data
  have hbytes : vbytes (raw.map Node.toVNode) = raw.bytes := vbytes_toVNode raw
  have hroom : (vbytes (raw.map Node.toVNode)).length ≤ dblkSize raw % 65536 := by
    rw [hbytes, hsize]
  have hcopy : dblkCopyTo (raw.map Node.toVNode) (List.replicate (dblkSize raw % 65536) 0)
      (dblkSize raw % 65536) = _ :=
    dblkCopyTo_whole hwf hroom
  have hdrop : (List.replicate (dblkSize raw % 65536) (0 : Byte)).drop raw.bytes.length = [] := by
    rw [hsize]
    simp
  have hdata : (Release.copyOf raw).data = raw.bytes := by
    have hlen : (dblkNodeNewWithBuff (dblkSize raw)).size = dblkSize raw % 65536 := by
      simp [dblkNodeNewWithBuff, Node.size]
    rw [Release.copyOf]
    dsimp only
    rw [hlen]
    simp only [dblkNodeNewWithBuff, hcopy, hbytes, memWrite, hdrop, List.append_nil]
  simp [Block.bytes, hdata]

section Sender

variable {τ : Type} [ListLib] [LawfulListLib]

/-- The sender's half: one frame, with an IP header that names the addresses, the protocol and the
length. -/
theorem tcpIpSend_frame {h : EtherArp τ} {ip : Netif} {eth : EtherT} {dest : IpAddr} (raw : Block)
    (ident : ℕ) (hdr : Header) (hll : h.ll ip.handle = some eth) (hip : ip.addr.version = 4)
    (hmac : ipAddrBroadcast dest = true ∨ ∃ item ∈ h.arpTable, item.ip = dest.addr)
    (hsize : raw.bytes.length < 1400) :
    let sends := Release.tcpIpSend logFrame (fun _ => true) h true true ident hdr ip dest raw []
    ∃ mac sent sum, sent.version = 4 ∧ sent.protocol = ipProtocolTcp ∧
      sent.totalLength = UInt16.ofNat raw.bytes.length + 20 ∧ sent.src.addr = ip.addr.addr ∧
      sent.dest.addr = dest.addr ∧
      (sends.1.map Release.Heap.env, sends.2) =
        (some [(eth, frameBytes mac eth.macAddress etherTypeIp (plainHeader sent sum ++ raw.bytes))],
          true) := by
  intro sends
  have hbytes : Block.bytes [Release.copyOf raw] = raw.bytes := bytes_copyOf (by omega)
  let payload : Block := [Release.copyOf raw]
  have hshort : payload.bytes.length < 1400 := by
    rw [hbytes]
    exact hsize
  let packHdr : Header :=
    { callHeader ip ident (Release.tcpHeader hdr dest) with
      totalLength := UInt16.ofNat payload.bytes.length, fragmentOffset := 0 }
  let d := packedDatagram packHdr 64 (payload.map Node.toVNode)
  have hsend : (sends.1.map Release.Heap.env, sends.2) =
      ipLlSend logFrame true h ip (some []) d :=
    (Release.env_tcpIpSend logFrame true h true true ident hdr ip dest raw []).trans
      (ipHlSend_short (ipLlSend logFrame true h ip) ip ident (Release.tcpHeader hdr dest) hshort
        (some []))
  have hver : packHdr.version = 4 := by
    have h4 : BitVec.ofNat 4 (4 : UInt8).toNat = 4 := by decide
    rw [← h4, ← hip]
    rfl
  have hopt : packHdr.optionSize = 0 := rfl
  rcases ipHeaderPack_plain hver hopt (show 20 ≤ 64 by omega) with ⟨sum, hraw⟩
  have hrawData : d.rawData = plainHeader { packHdr with totalLength := packHdr.totalLength + 20 }
      sum := hraw
  have hpayload : vbytes d.payload = raw.bytes := (vbytes_toVNode payload).trans hbytes
  have hdest : d.header.dest = dest := by
    rcases packedDatagram_eq hopt (show 20 ≤ 64 by omega) (payload.map Node.toVNode) with
      ⟨_, _, _, hpacked, _⟩
    exact congrArg Header.dest hpacked
  have hwf : ∀ n ∈ d.payload, n.WellFormed := by
    intro n hn
    rcases List.mem_map.1 hn with ⟨m, _, rfl⟩
    exact wellFormed_init m.data
  have hfits : d.rawData.length + (vbytes d.payload).length ≤ 2034 := by
    rw [hrawData, length_plainHeader, hpayload]
    omega
  rcases ipLlSend_logFrame hll (hdest ▸ hmac) hwf hfits with ⟨mac, hframe⟩
  have htotal : packHdr.totalLength = UInt16.ofNat raw.bytes.length :=
    congrArg (fun bs => UInt16.ofNat (List.length bs)) hbytes
  refine ⟨mac, { packHdr with totalLength := packHdr.totalLength + 20 }, sum, hver, rfl, ?_, rfl, rfl,
    ?_⟩
  · rw [← htotal]
  · rw [hsend, hframe, hrawData, hpayload]

end Sender

/-! ## The receiver -/

/-- The addresses of a header that is read into a cleared one. -/
theorem ipHeaderUnpack_addresses {hdr : Header} (hver : hdr.version = 4) (sum : UInt16)
    (payload : List Byte) {size : ℕ} {read : Header}
    (hread : ipHeaderUnpack Header.zero (plainHeader hdr sum ++ payload) size = some read) :
    read.src = ⟨4, hdr.src.addr, ⟨0, 0, 0, 0⟩⟩ ∧ read.dest = ⟨4, hdr.dest.addr, ⟨0, 0, 0, 0⟩⟩ := by
  have hfirst : (plainHeader hdr sum ++ payload).getD 0 0 = 0x45 := by
    have hbyte : UInt8.ofNat (20 / 4 ||| (4 : BitVec 4).toNat <<< 4) = 0x45 := by decide
    rw [← hbyte, ← hver]
    rfl
  have hversion : BitVec.ofNat 4 (((0x45 : UInt8) &&& 0xF0) >>> 4).toNat = 4 := by decide
  have h4 : UInt8.ofNat (4 : BitVec 4).toNat = 4 := by decide
  have hsrc : V4.ofMem ((plainHeader hdr sum ++ payload).drop 12) = hdr.src.addr := rfl
  have hdest : V4.ofMem ((plainHeader hdr sum ++ payload).drop 16) = hdr.dest.addr := rfl
  simp only [ipHeaderUnpack, hfirst, hversion, hsrc, hdest, h4, if_true] at hread
  split at hread
  · cases hread
  · split at hread
    · cases hread
    · split at hread <;>
      · cases hread
        exact ⟨rfl, rfl⟩

section Receiver

variable {τ τ' σ κ : Type} [ListLib] [TimerLib τ] [TimerLib τ'] [TimerRemain τ']

/-- `tcp_ip_recv`, on a host that keeps its list of connections beside the state of the driver. -/
def tcpReceive (env : Env) : Receiver (Stack τ' (σ × Table τ) κ) := fun ip hdr rawData size st =>
  match tcpUnpack hdr.src.addr hdr.dest.addr hdr.protocol rawData (UInt16.ofNat size), ip with
  | some seg, some ip =>
      let dg : Datagram := { src := hdr.src, dest := hdr.dest, seg := (seg.received hdr.src).toSegment }
      let table := tcpIpRecv env ip dg (seg.received hdr.src).beyond st.driver.2
      { st with driver := (st.driver.1, table) }
  -- no connection is on the null interface
  | _, _ => st

/-- The receiver's half: an IP datagram in a frame reaches `tcp_ip_recv`. -/
theorem etherLlRecv_tcp (send : σ → EtherT → List Byte → σ × Bool)
    (icmpIpRecv tcpIpRecv : Receiver (Stack τ' σ κ)) (now : ℕ) (ether : EtherT) (st : Stack τ' σ κ)
    (mac srcMac : Mac) {sent : Header} (sum : UInt16) {string : List Byte} (tail rest : List Byte)
    {dataSize : ℕ}
    (hver : sent.version = 4) (hproto : sent.protocol = ipProtocolTcp)
    (htotal : sent.totalLength = UInt16.ofNat string.length + 20) (hlen : string.length < 1400)
    (hdataSize : dataSize = 34 + string.length + tail.length) (hmin : 64 ≤ dataSize)
    (hmax : dataSize < 65536) :
    ∃ read, read.src = ⟨4, sent.src.addr, ⟨0, 0, 0, 0⟩⟩ ∧
      read.dest = ⟨4, sent.dest.addr, ⟨0, 0, 0, 0⟩⟩ ∧ read.protocol = ipProtocolTcp ∧
      (Stack.etherLlRecv send icmpIpRecv tcpIpRecv now ether
          (frameBytes mac srcMac etherTypeIp (plainHeader sent sum ++ string) ++ tail ++ rest) dataSize
          st).1 =
        tcpIpRecv (etherArpGetIp st.arp ether) read (string ++ (tail ++ rest)) string.length st := by
  have hsizes : dataSize = 14 + (plainHeader sent sum ++ string).length + tail.length := by
    rw [List.length_append, length_plainHeader]
    omega
  rcases @etherUnpack_frameBytes mac srcMac etherTypeIp (plainHeader sent sum ++ string) tail rest
    dataSize hsizes hmin (by omega) with ⟨crc, hframe⟩
  have hmem : plainHeader sent sum ++ string ++ tail ++ rest =
      plainHeader sent sum ++ (string ++ (tail ++ rest)) := by
    simp
  rcases ipHeaderUnpack_plain hver sum (string ++ (tail ++ rest)) Header.zero
    (show 20 ≤ dataSize - 18 by omega) with ⟨read, hread, hihl, htotal', hproto', _, _⟩
  rcases ipHeaderUnpack_addresses hver sum _ hread with ⟨hsrc, hdest⟩
  have hhdrSz : read.ihl.toNat * 4 = 20 := by
    rw [hihl]
    rfl
  have hdrop : (plainHeader sent sum ++ (string ++ (tail ++ rest))).drop 20 =
      string ++ (tail ++ rest) :=
    List.drop_left' (length_plainHeader sent sum)
  have hpayloadSize : (read.totalLength - UInt16.ofNat 20).toNat = string.length := by
    have h20 : UInt16.ofNat 20 = 20 := rfl
    rw [htotal', htotal, h20, UInt16.add_sub_cancel]
    exact UInt16.toNat_ofNat_of_lt' (show string.length < 65536 by omega)
  have hne : etherTypeIp ≠ etherTypeArp := by decide
  have hnotIcmp : ipProtocolTcp ≠ ipProtocolIcmp := by decide
  refine ⟨read, hsrc, hdest, hproto'.trans hproto, ?_⟩
  simp only [Stack.etherLlRecv, if_pos (show 0 < dataSize by omega), hframe, if_neg hne, if_true,
    hmem, ipLlRecv, hread, hhdrSz, hdrop, hpayloadSize, hproto', hproto, if_neg hnotIcmp]

end Receiver

/-! ## The whole way -/

section Hosts

variable {τ τ₀ τ' σ κ : Type} [ListLib] [LawfulListLib] [TimerLib τ] [TimerLib τ'] [TimerRemain τ']

/-- The one frame that the sender's driver gets brings the segment to the list of connections of the
receiver, as the datagram that it was, whatever the padding and the checksum of the frame are.  Behind
a payload of odd size the frame must go on with the byte that lay there in the sender's memory. -/
theorem tcp_travels {h : EtherArp τ₀} {ip : Netif} {eth : EtherT} {dest : IpAddr}
    {seg : SegmentBlocks} {packed : SegmentBlocks × Block} {behindOptions behind : List Byte}
    (ident : ℕ) (hdr : Header)
    (hreg : Registered h ip eth) (hip : ip.addr.version = 4)
    (hmac : ipAddrBroadcast dest = true ∨ ∃ item ∈ h.arpTable, item.ip = dest.addr)
    (hseg : Encodable seg)
    (hpack : tcpPackBlocks ip.addr.addr dest.addr ipProtocolTcp seg behindOptions behind = some packed)
    (hsize : totalSize seg < 1400) (send : (σ × Table τ) → EtherT → List Byte → (σ × Table τ) × Bool)
    (icmpIpRecv : Receiver (Stack τ' (σ × Table τ) κ)) (env : Env) (now : ℕ) {ether : EtherT}
    {st : Stack τ' (σ × Table τ) κ} {ip' : Netif} (hip' : etherArpGetIp st.arp ether = some ip') :
    let sends :=
      Release.tcpIpSend logFrame (fun _ => true) h true true ident hdr ip dest packed.2 []
    ∃ frame, (sends.1.map Release.Heap.env, sends.2) = (some [(eth, frame)], true) ∧
      ∀ (wire : OnWire frame) (rest : List Byte),
        (seg.payload.bytes.length % 2 = 1 → wire.tail.getD 0 0 = behind.getD 0 0) →
        (Stack.etherLlRecv send icmpIpRecv (tcpReceive env) now ether (wire.bytes ++ rest)
            wire.bytes.length st).1.driver.2 =
          tcpIpRecv env ip'
            { src := ⟨4, ip.addr.addr, ⟨0, 0, 0, 0⟩⟩, dest := ⟨4, dest.addr, ⟨0, 0, 0, 0⟩⟩,
              seg := seg.fields }
            (wire.tail ++ rest) st.driver.2 := by
  intro sends
  have hlen := length_packed hseg hpack
  rcases tcpIpSend_frame (h := h) packed.2 ident hdr hreg.ll hip hmac (by omega) with
    ⟨mac, sent, sum, hver, hproto, htotal, hsrc, hdest, hframe⟩
  refine ⟨_, hframe, ?_⟩
  intro wire rest hodd
  have hframeLen : (frameBytes mac eth.macAddress etherTypeIp
      (plainHeader sent sum ++ Block.bytes packed.2)).length = 34 + totalSize seg := by
    rw [length_frameBytes, List.length_append, length_plainHeader, hlen]
    omega
  have htail := wire.length_tail
  have hbytes := wire.length_bytes
  have hodd' : seg.payload.bytes.length % 2 = 1 →
      (wire.tail ++ rest).getD 0 0 = behind.getD 0 0 := by
    intro h
    rw [← hodd h]
    cases ht : wire.tail with
    | nil =>
        rw [ht, List.length_nil] at htail
        omega
    | cons a t =>
        rfl
  rw [OnWire.bytes] at hbytes ⊢
  have hsizes : (frameBytes mac eth.macAddress etherTypeIp
      (plainHeader sent sum ++ Block.bytes packed.2) ++ wire.tail).length =
      34 + (Block.bytes packed.2).length + wire.tail.length := by
    rw [List.length_append, hframeLen, hlen]
  rcases etherLlRecv_tcp send icmpIpRecv (tcpReceive env) now ether st mac eth.macAddress sum wire.tail
    rest hver hproto htotal (by omega) hsizes (by omega) (by omega) with
    ⟨read, hreadSrc, hreadDest, hreadProto, hrecv⟩
  rcases received_packed hseg hpack ⟨4, ip.addr.addr, ⟨0, 0, 0, 0⟩⟩ hodd' with ⟨u, hu, hreceived⟩
  rw [hrecv, hlen]
  simp only [tcpReceive, hreadSrc, hreadDest, hreadProto, hsrc, hdest, hip', hu, hreceived]

end Hosts

def peerNetif : Netif :=
  { handle := 1, addr := ⟨4, ⟨10, 0, 0, 2⟩, ⟨255, 0, 0, 0⟩⟩ }

/-- The host 10.0.0.2 listens on port 5000. -/
def peerStack : Stack Deadline (Unit × Table Deadline) ℕ :=
  { arp := { Udp.sampleArp with nifList := [{ ip := peerNetif, eth := Udp.sampleEth }] }
    udpList := []
    driver := ((), [(tcpOpenConn (.working 100) peerNetif 5000 none 80).get rfl])
    delivered := [] }

/-- A payload of three bytes, with a 9 behind it in the memory of the sender. -/
theorem tcp_travels_sample :
    ∃ packed,
      tcpPackBlocks ⟨10, 0, 0, 1⟩ ⟨10, 0, 0, 2⟩ ipProtocolTcp sampleBlocks [] [9] = some packed ∧
      ∃ frame,
        ((Release.tcpIpSend logFrame (fun _ => true) Udp.sampleArp true true 0 sampleHeader sampleNetif
            ⟨4, ⟨10, 0, 0, 2⟩, ⟨0, 0, 0, 0⟩⟩ packed.2 []).1.map Release.Heap.env,
          (Release.tcpIpSend logFrame (fun _ => true) Udp.sampleArp true true 0 sampleHeader sampleNetif
            ⟨4, ⟨10, 0, 0, 2⟩, ⟨0, 0, 0, 0⟩⟩ packed.2 []).2) =
          (some [(Udp.sampleEth, frame)], true) ∧
        ∀ (wire : OnWire frame) (rest : List Byte), wire.tail.getD 0 0 = 9 →
          (Stack.etherLlRecv (fun s _ _ => (s, true)) (fun _ _ _ _ st => st)
              (tcpReceive (.working 101)) 0 Udp.sampleEth (wire.bytes ++ rest) wire.bytes.length
              peerStack).1.driver.2 =
            tcpIpRecv (.working 101) peerNetif
              { src := ⟨4, ⟨10, 0, 0, 1⟩, ⟨0, 0, 0, 0⟩⟩, dest := ⟨4, ⟨10, 0, 0, 2⟩, ⟨0, 0, 0, 0⟩⟩,
                seg := sampleBlocks.fields }
              (wire.tail ++ rest) peerStack.driver.2 := by
  let dest : IpAddr := ⟨4, ⟨10, 0, 0, 2⟩, ⟨0, 0, 0, 0⟩⟩
  have hpack : tcpPackBlocks sampleNetif.addr.addr dest.addr ipProtocolTcp sampleBlocks [] [9] =
      some ((tcpPackBlocks ⟨10, 0, 0, 1⟩ ⟨10, 0, 0, 2⟩ ipProtocolTcp sampleBlocks [] [9]).get rfl) := rfl
  have hreg : Registered Udp.sampleArp sampleNetif Udp.sampleEth := ⟨List.mem_singleton.2 rfl, rfl⟩
  have hmac : ipAddrBroadcast dest = true ∨ ∃ item ∈ Udp.sampleArp.arpTable, item.ip = dest.addr :=
    Or.inr ⟨_, List.mem_singleton.2 rfl, rfl⟩
  have hip : etherArpGetIp peerStack.arp Udp.sampleEth = some peerNetif := rfl
  rcases tcp_travels 0 sampleHeader hreg rfl hmac encodable_sampleBlocks hpack (by decide)
      (fun s _ _ => (s, true)) (fun _ _ _ _ st => st) (.working 101) 0 hip with ⟨frame, hframe, hwire⟩
  exact ⟨_, hpack, frame, hframe, fun wire rest htail => hwire wire rest fun _ => htail⟩

end Tcp
end DtsNet
