import DtsNet.Stack

/-!
# Travel — a UDP datagram from one host to another

The way of a datagram from `udp_sendto` down to the driver of the sender, over the wire, and up
through `ether_ll_recv` to the callback of the receiver.
-/

namespace DtsNet
namespace Udp

open Dblk Ip Ether
open Tcp (TimerLib)

/-! ## The frame -/

/-- The bytes of the IP datagram that carries the data. -/
def sentDatagram (hdr : Header) (sum : UInt16) (src dest : V4) (port : UInt16) (data : List Byte)
    (size : UInt16) : List Byte :=
  plainHeader hdr sum ++
    (udpPack src dest ipProtocolUdp udpRandomPort port data size ++ memRead data size.toNat)

theorem length_udpPack (src dest : V4) (protocol : UInt8) (srcPort destPort : UInt16)
    (data : List Byte) (size : UInt16) :
    (udpPack src dest protocol srcPort destPort data size).length = 8 := by
  rw [udpPack_eq, length_udpHeader]

theorem length_sentDatagram (hdr : Header) (sum : UInt16) (src dest : V4) (port : UInt16)
    (data : List Byte) (size : UInt16) :
    (sentDatagram hdr sum src dest port data size).length = 28 + size.toNat := by
  simp only [sentDatagram, List.length_append, length_plainHeader, length_udpPack, length_memRead]
  omega

/-- The interface found has the version of the destination. -/
theorem version_of_ipFindNetif {nifs : List Netif} {dest : IpAddr} {ip : Netif}
    (h : ipFindNetif nifs dest = some ip) : dest.version = 4 ∧ ip.addr.version = 4 := by
  by_cases hver : dest.version = 4
  · rw [ipFindNetif, if_pos hver] at h
    have hmatch := List.find?_some h
    simp only [listMatchLanAddr, ipAddrSameLan, Bool.and_eq_true, beq_iff_eq] at hmatch
    exact ⟨hver, hmatch.1 ▸ hver⟩
  · rw [ipFindNetif, if_neg hver] at h
    cases h

/-- The lengths of the UDP header, the data and the IP header add up without a carry. -/
theorem totalLength_short {size : UInt16} (hsize : size.toNat ≤ 1391) :
    UInt16.ofNat (8 + size.toNat) + 20 = 28 + size := by
  have hsum : (UInt16.ofNat (8 + size.toNat)).toNat = 8 + size.toNat :=
    UInt16.toNat_ofNat_of_lt' (show 8 + size.toNat < 65536 by omega)
  have h20 : (20 : UInt16).toNat = 20 := rfl
  have h28 : (28 : UInt16).toNat = 28 := rfl
  apply UInt16.toNat_inj.1
  rw [UInt16.toNat_add, UInt16.toNat_add, hsum, h20, h28]
  omega

section Hosts

variable {τ : Type} [ListLib]

/-- The sender's half: one frame, with an IP header that names the addresses, the protocol and the
length. -/
theorem udpSendto_frame [LawfulListLib] {h : EtherArp τ} {ip : Netif} {eth : EtherT}
    {nifs : List Netif} {dest : IpAddr} {data : List Byte} {size : UInt16} (ident : ℕ)
    (hdr : Header) (port : UInt16) (hll : h.ll ip.handle = some eth)
    (hfind : ipFindNetif nifs dest = some ip)
    (hmac : ipAddrBroadcast dest = true ∨ ∃ item ∈ h.arpTable, item.ip = dest.addr)
    (hsize : size.toNat ≤ 1391) :
    ∃ mac sent sum, sent.version = 4 ∧ sent.protocol = ipProtocolUdp ∧
      sent.totalLength = 28 + size ∧ sent.src.addr = ip.addr.addr ∧ sent.dest.addr = dest.addr ∧
      udpSendto (ipLlSend logFrame true h) nifs ident hdr dest port data size (some []) =
        (some [(eth, frameBytes mac eth.macAddress etherTypeIp
          (sentDatagram sent sum ip.addr.addr dest.addr port data size))], true) := by
  obtain ⟨hdest, hip⟩ := version_of_ipFindNetif hfind
  let header := udpPack ip.addr.addr dest.addr ipProtocolUdp udpRandomPort port data size
  let payload : Block :=
    [{ data := header, offset := 0 }, { data := memRead data size.toNat, offset := 0 }]
  let dest' : IpAddr := { dest with netmask := ip.addr.netmask }
  -- the header on the stack of `_sendto`: what it does not set is arbitrary
  let stackHdr : Header :=
    { hdr with
      options := [], optionSize := 0, typeOfService := 0, protocol := ipProtocolUdp,
      timeToLive := 128, src := ip.addr, dest := dest' }
  have hbytes : payload.bytes = header ++ memRead data size.toNat := by
    simp [payload, Block.bytes]
  have hlen : payload.bytes.length = 8 + size.toNat := by
    rw [hbytes, List.length_append, length_memRead]
    exact congrArg (· + size.toNat) (length_udpPack _ _ _ _ _ _ _)
  have hshort : payload.bytes.length < 1400 := by omega
  let packHdr : Header :=
    { callHeader ip ident stackHdr with
      totalLength := UInt16.ofNat payload.bytes.length, fragmentOffset := 0 }
  let d := packedDatagram packHdr 64 (payload.map Node.toVNode)
  have hsend : udpSendto (ipLlSend logFrame true h) nifs ident hdr dest port data size (some []) =
      ipLlSend logFrame true h ip (some []) d := by
    have hnot : ¬ dest.version ≠ 4 := fun hne => hne hdest
    rw [udpSendto, if_neg hnot, hfind]
    exact ipHlSend_short (ipLlSend logFrame true h ip) ip ident stackHdr hshort (some [])
  have hver : packHdr.version = 4 := by
    have h4 : BitVec.ofNat 4 (4 : UInt8).toNat = 4 := by decide
    rw [← h4, ← hip]
    rfl
  obtain ⟨sum, hraw⟩ := ipHeaderPack_plain hver (show packHdr.optionSize = 0 from rfl)
    (show 20 ≤ 64 by omega)
  have hrawData : d.rawData = plainHeader { packHdr with totalLength := packHdr.totalLength + 20 }
      sum := hraw
  have hpayload : vbytes d.payload = header ++ memRead data size.toNat := by
    rw [← hbytes]
    exact vbytes_toVNode payload
  have hheader : d.header.dest = dest' := by
    obtain ⟨sum', rest, -, hpacked, -⟩ := packedDatagram_eq (show packHdr.optionSize = 0 from rfl)
      (show 20 ≤ 64 by omega) (payload.map Node.toVNode)
    exact congrArg Header.dest hpacked
  have htotal : packHdr.totalLength + 20 = 28 + size := by
    have hofNat : packHdr.totalLength = UInt16.ofNat (8 + size.toNat) := congrArg UInt16.ofNat hlen
    rw [hofNat]
    exact totalLength_short hsize
  have hwf : ∀ n ∈ d.payload, n.WellFormed := by
    intro n hn
    obtain ⟨m, -, rfl⟩ := List.mem_map.1 hn
    exact wellFormed_init m.data
  -- 20 bytes of header and at most 1399 of payload are far below the 2048 of the buffer
  have hfits : d.rawData.length + (vbytes d.payload).length ≤ 2034 := by
    rw [hrawData, length_plainHeader, hpayload, ← hbytes, hlen]
    omega
  obtain ⟨mac, hframe⟩ := ipLlSend_logFrame hll (hheader ▸ hmac) hwf hfits
  refine ⟨mac, { packHdr with totalLength := packHdr.totalLength + 20 }, sum, hver, rfl, htotal,
    rfl, rfl, ?_⟩
  rw [hsend, hframe, hrawData, hpayload]
  rfl

/-! ## The receiver -/

omit [ListLib] in
/-- Behind the data lies the padding or the checksum of the frame, of which only the byte that
completes the last word counts. -/
theorem coveredBytes_received {data tail : List Byte} {n : ℕ}
    (hsent : n % 2 = 1 → data.getD n 0 = 0) (hreceived : n % 2 = 1 → tail.getD 0 0 = 0) :
    coveredBytes (memRead data n ++ tail) n = coveredBytes data n := by
  have hread : memRead (memRead data n ++ tail) n = memRead data n := by
    have hle : n ≤ (memRead data n).length := by rw [length_memRead]
    rw [memRead_append_left hle, List.take_of_length_le (by rw [length_memRead])]
  have hzero : n % 2 = 1 → (memRead data n ++ tail).getD n 0 = 0 := by
    intro hodd
    have hle : (memRead data n).length ≤ n := by rw [length_memRead]
    rw [List.getD_eq_getElem?_getD, List.getElem?_append_right hle, length_memRead, Nat.sub_self,
      ← List.getD_eq_getElem?_getD]
    exact hreceived hodd
  rw [coveredBytes_eq_of_zero hzero, coveredBytes_eq_of_zero hsent, hread]

variable {σ κ : Type} {τ' : Type} [TimerLib τ'] [TimerRemain τ']

/-- The receiver's half: the datagram in the frame is accepted and its data goes to the callback. -/
theorem etherLlRecv_sentDatagram {send : σ → EtherT → List Byte → σ × Bool}
    {icmpIpRecv tcpIpRecv : Receiver (Stack τ' σ κ)} {now : ℕ} {ether : EtherT}
    {st : Stack τ' σ κ} {ip : Netif} {udp : UdpT κ} {callback : κ} {mac srcMac : Mac}
    {sent : Header} {sum port size : UInt16} {src dest : V4} {data tail rest : List Byte}
    {dataSize : ℕ} (hip : etherArpGetIp st.arp ether = some ip)
    (hudp : findUdpByAddr st.udpList ip port.toUInt32 = some udp)
    (hcallback : udp.callback = some callback) (hver : sent.version = 4)
    (hproto : sent.protocol = ipProtocolUdp) (htotal : sent.totalLength = 28 + size)
    (hsrc : sent.src.addr = src) (hdest : sent.dest.addr = dest) (hsize : size.toNat ≤ 1391)
    (hdataSize : dataSize = 42 + size.toNat + tail.length) (hmin : 64 ≤ dataSize)
    (hmax : dataSize < 65536)
    (hsent : size.toNat % 2 = 1 → data.getD size.toNat 0 = 0)
    (hreceived : size.toNat % 2 = 1 → (tail ++ rest).getD 0 0 = 0) :
    (Stack.etherLlRecv send icmpIpRecv tcpIpRecv now ether
        (frameBytes mac srcMac etherTypeIp (sentDatagram sent sum src dest port data size) ++ tail ++
          rest) dataSize st).1.delivered =
      st.delivered ++ [(callback, memRead data size.toNat)] := by
  have hlen := length_sentDatagram sent sum src dest port data size
  have hsizes : dataSize =
      14 + (sentDatagram sent sum src dest port data size).length + tail.length := by omega
  obtain ⟨crc, hframe⟩ := @etherUnpack_frameBytes mac srcMac etherTypeIp
    (sentDatagram sent sum src dest port data size) tail rest dataSize hsizes hmin (by omega)
  -- the IP header
  let datagram := udpPack src dest ipProtocolUdp udpRandomPort port data size
  let received := memRead data size.toNat ++ (tail ++ rest)
  have hmem : sentDatagram sent sum src dest port data size ++ tail ++ rest =
      plainHeader sent sum ++ (datagram ++ received) := by
    simp [sentDatagram, datagram, received]
  obtain ⟨read, hread, hihl, htotal', hproto', hsrc', hdest'⟩ :=
    ipHeaderUnpack_plain hver sum (datagram ++ received) Header.zero
      (show 20 ≤ dataSize - 18 by omega)
  have hhdrSz : read.ihl.toNat * 4 = 20 := by
    rw [hihl]
    rfl
  have hdrop : (plainHeader sent sum ++ (datagram ++ received)).drop 20 = datagram ++ received :=
    List.drop_left' (length_plainHeader sent sum)
  have hpayloadSize : (read.totalLength - UInt16.ofNat 20).toNat = 8 + size.toNat := by
    have h20 : (UInt16.ofNat 20).toNat = 20 := rfl
    have h28 : (28 : UInt16).toNat = 28 := rfl
    rw [htotal', htotal, UInt16.toNat_sub, UInt16.toNat_add, h20, h28]
    omega
  -- the UDP datagram
  have hunpack := udpUnpack_udpPack src dest ipProtocolUdp udpRandomPort port
    (show size.toNat ≤ 65527 by omega) (coveredBytes_received hsent hreceived)
  have hdata : memRead received size.toNat = memRead data size.toNat := by
    have hle : size.toNat ≤ (memRead data size.toNat).length := by rw [length_memRead]
    rw [memRead_append_left hle, List.take_of_length_le (by rw [length_memRead])]
  have hcall : udpIpRecv st.udpList (some ip) read (datagram ++ received) (8 + size.toNat) =
      some (callback, memRead data size.toNat) := by
    rw [udpIpRecv, hsrc', hdest', hproto', hsrc, hdest, hproto, hunpack]
    simp only [Option.bind_some, hudp, hcallback, Option.map_some]
    exact congrArg (fun d => some (callback, d)) hdata
  have hne : etherTypeIp ≠ etherTypeArp := by decide
  have hnotIcmp : ipProtocolUdp ≠ ipProtocolIcmp := by decide
  have hnotTcp : ipProtocolUdp ≠ ipProtocolTcp := by decide
  simp only [Stack.etherLlRecv, if_pos (show 0 < dataSize by omega), hframe, if_neg hne, if_true,
    hmem, ipLlRecv, hread, hhdrSz, hdrop, hpayloadSize, hproto', hproto, if_neg hnotIcmp,
    if_neg hnotTcp, Stack.udpReceive, hip, hcall]

/-! ## The whole way -/

/-- The one frame that the sender's driver gets brings the data to the callback of the bound port,
whatever the padding and the checksum of the frame are. -/
theorem udp_travels [LawfulListLib] {h : EtherArp τ} {ip : Netif} {eth : EtherT}
    {nifs : List Netif} {dest : IpAddr} {data : List Byte} {size : UInt16} (ident : ℕ)
    (hdr : Header) (port : UInt16) (hreg : Registered h ip eth)
    (hfind : ipFindNetif nifs dest = some ip)
    (hmac : ipAddrBroadcast dest = true ∨ ∃ item ∈ h.arpTable, item.ip = dest.addr)
    (hsize : size.toNat ≤ 1391) (hsent : size.toNat % 2 = 1 → data.getD size.toNat 0 = 0)
    (send : σ → EtherT → List Byte → σ × Bool)
    (icmpIpRecv tcpIpRecv : Receiver (Stack τ' σ κ)) (now : ℕ) {ether : EtherT}
    {st : Stack τ' σ κ} {ip' : Netif} {udp : UdpT κ} {callback : κ}
    (hip : etherArpGetIp st.arp ether = some ip')
    (hudp : findUdpByAddr st.udpList ip' port.toUInt32 = some udp)
    (hcallback : udp.callback = some callback) :
    ∃ frame,
      udpSendto (ipLlSend logFrame true h) nifs ident hdr dest port data size (some []) =
        (some [(eth, frame)], true) ∧
      ∀ (wire : OnWire frame) (rest : List Byte),
        (size.toNat % 2 = 1 → wire.tail.getD 0 0 = 0) →
        (Stack.etherLlRecv send icmpIpRecv tcpIpRecv now ether (wire.bytes ++ rest)
            wire.bytes.length st).1.delivered =
          st.delivered ++ [(callback, memRead data size.toNat)] := by
  obtain ⟨mac, sent, sum, hver, hproto, htotal, hsrc, hdest, hsend⟩ :=
    udpSendto_frame ident hdr port hreg.ll hfind hmac hsize
  refine ⟨_, hsend, ?_⟩
  intro wire rest hzero
  have hlen : (frameBytes mac eth.macAddress etherTypeIp
      (sentDatagram sent sum ip.addr.addr dest.addr port data size)).length =
        42 + size.toNat := by
    rw [length_frameBytes, length_sentDatagram]
    omega
  have htail := wire.length_tail
  have hbytes := wire.length_bytes
  -- the tail holds four bytes at least, so its first byte is the one behind the data
  have hzero' : size.toNat % 2 = 1 → (wire.tail ++ rest).getD 0 0 = 0 := by
    intro hodd
    rw [← hzero hodd]
    cases ht : wire.tail with
    | nil =>
        rw [ht, List.length_nil] at htail
        omega
    | cons a t =>
        rfl
  rw [OnWire.bytes] at hbytes ⊢
  exact etherLlRecv_sentDatagram hip hudp hcallback hver hproto htotal hsrc hdest hsize
    (by rw [List.length_append, hlen]) (by omega) (by omega) hsent hzero'

end Hosts

def sampleEth : EtherT :=
  { handle := 1, macAddress := ⟨2, 0, 0, 0, 0, 1⟩ }

/-- A host with one interface that knows the hardware address of 10.0.0.2. -/
def sampleArp : EtherArp Tcp.Deadline :=
  { arpTable := [⟨⟨10, 0, 0, 2⟩, ⟨2, 0, 0, 0, 0, 2⟩, TimerLib.init⟩]
    arptiCount := 4
    nifList := [{ ip := sampleNetif, eth := sampleEth }]
    ll := fun _ => some sampleEth }

/-- A host whose interface has port 7 bound. -/
def sampleStack : Stack Tcp.Deadline Unit ℕ :=
  { arp := sampleArp
    udpList := [{ lowLevel := sampleNetif, port := 7, callback := some 42 }]
    driver := ()
    delivered := [] }

theorem udp_travels_sample :
    ∃ frame,
      udpSendto (ipLlSend logFrame true sampleArp) [sampleNetif] 0 sampleHeader
          ⟨4, ⟨10, 0, 0, 2⟩, ⟨0, 0, 0, 0⟩⟩ 7 [1, 2, 3] 3 (some []) =
        (some [(sampleEth, frame)], true) ∧
      ∀ (wire : OnWire frame) (rest : List Byte),
        ((3 : UInt16).toNat % 2 = 1 → wire.tail.getD 0 0 = 0) →
        (Stack.etherLlRecv (fun s _ _ => (s, true)) (fun _ _ _ _ st => st)
            (fun _ _ _ _ st => st) 0 sampleEth (wire.bytes ++ rest) wire.bytes.length
            sampleStack).1.delivered =
          sampleStack.delivered ++ [(42, memRead [1, 2, 3] (3 : UInt16).toNat)] :=
  udp_travels 0 sampleHeader 7 ⟨List.mem_singleton.2 rfl, rfl⟩ (by decide)
    (Or.inr ⟨_, List.mem_singleton.2 rfl, rfl⟩) (by decide) (by decide) _ _ _ 0 rfl rfl rfl

end Udp
end DtsNet
