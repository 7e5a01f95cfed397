import DtsNet.Ether.Arp
import DtsNet.Udp.Datagram

/-!
# Stack — the stack on one Ethernet interface

`ether_ll_recv` hands a received frame to the ARP module or through the IP module to a protocol, and
`ip_ether_send`, as the `ll_send` of an interface, is the way down.
-/

namespace DtsNet

open Dblk Ip Ether Udp
open Tcp (TimerLib)

/-! ## The way up -/

/-- The state of a host: its address resolution, the bound UDP ports, the driver, and the calls of
the callbacks of bound ports so far. -/
structure Stack (τ σ κ : Type) where
  arp : EtherArp τ
  udpList : List (UdpT κ)
  driver : σ
  delivered : List (κ × List Byte)

namespace Stack

variable {τ σ κ : Type} [ListLib] [TimerLib τ] [TimerRemain τ]

/-- `udp_ip_recv`, with the callback it calls. -/
def udpReceive : Receiver (Stack τ σ κ) := fun ip hdr rawData size st =>
  match udpIpRecv st.udpList ip hdr rawData size with
  | some call => { st with delivered := st.delivered ++ [call] }
  | none => st

/-- `ether_ll_recv` of a frame that the driver has put into `data`.  The size of an ARP packet is 8
bits wide. -/
def etherLlRecv (send : σ → EtherT → List Byte → σ × Bool)
    (icmpIpRecv tcpIpRecv : Receiver (Stack τ σ κ)) (now : ℕ) (ether : EtherT)
    (data : List Byte) (dataSize : ℕ) (st : Stack τ σ κ) : Stack τ σ κ × Bool :=
  if 0 < dataSize then
    match etherUnpack data dataSize with
    | none => (st, false)
    | some frame =>
        let st :=
          if frame.type = etherTypeArp then
            let r := etherArpEtherRecv send now ether frame.payload
              (UInt8.ofNat frame.payloadSize).toNat st.arp st.driver
            { st with arp := r.1, driver := r.2 }
          else
            st
        let st :=
          if frame.type = etherTypeIp then
            ipLlRecv icmpIpRecv tcpIpRecv udpReceive (etherArpGetIp st.arp ether) Header.zero
              frame.payload frame.payloadSize st
          else
            st
        (st, true)
  else
    (st, false)

end Stack

/-! ## The wire -/

/-- A frame as the receiving driver delivers it: padded to 60 bytes, and with four bytes of
checksum. -/
structure OnWire (frame : List Byte) where
  pad : List Byte
  crc : List Byte
  length_pad : pad.length = 60 - frame.length
  length_crc : crc.length = 4

namespace OnWire

variable {frame : List Byte} (w : OnWire frame)

def tail : List Byte :=
  w.pad ++ w.crc

def bytes : List Byte :=
  frame ++ w.tail

theorem length_tail : w.tail.length = 60 - frame.length + 4 := by
  simp only [tail, List.length_append, w.length_pad, w.length_crc]

theorem length_bytes : w.bytes.length = max frame.length 60 + 4 := by
  simp only [bytes, List.length_append, length_tail]
  omega

end OnWire

/-- A driver that takes every frame, and keeps them. -/
def logFrame (sent : List (EtherT × List Byte)) (eth : EtherT) (frame : List Byte) :
    List (EtherT × List Byte) × Bool :=
  (sent ++ [(eth, frame)], true)

/-! ## The way down -/

variable {τ σ : Type} [ListLib]

/-- `ip->ll_send(ip->ll, datagram)`; the state of the driver is lost where the call goes through a
null pointer. -/
def ipLlSend (send : σ → EtherT → List Byte → σ × Bool) (malloc : Bool) (h : EtherArp τ)
    (ip : Netif) (s : Option σ) (d : IpDatagram) : Option σ × Bool :=
  match h.ll ip.handle, s with
  | some eth, some s =>
      match ipEtherSend send malloc h eth d.header.dest [dblkNodeInit d.rawData :: d.payload] s with
      | some (s, ok) => (some s, ok)
      | none => (none, false)
  | _, _ => (none, false)

omit [ListLib] in
/-- A block that fits into the buffer goes out in one frame. -/
theorem etherSendLoop_single {eth : EtherT} {block : List VNode} {frame : Frame}
    (sent : List (EtherT × List Byte)) (htype : ¬ frame.type < 0x05DC)
    (hwf : ∀ n ∈ block, n.WellFormed) (hsize : (vbytes block).length + 14 ≤ frame.dataSize) :
    etherSendLoop logFrame eth [block] frame sent =
      sent ++ [(eth, frameBytes frame.destMacAddr eth.macAddress frame.type (vbytes block))] := by
  have hsend : (etherHlSend logFrame eth { frame with payload := block } sent).2 =
      logFrame sent eth
        (frameBytes frame.destMacAddr eth.macAddress frame.type (vbytes block)) :=
    etherHlSend_eq logFrame eth sent htype hwf hsize
  -- the driver takes the frame the first time it is offered
  have hoffer : (offerBlock logFrame eth 3 { frame with payload := block } sent).2 =
      (etherHlSend logFrame eth { frame with payload := block } sent).2 := by
    rw [offerBlock, hsend]
    exact hsend
  rw [etherSendLoop, hoffer, hsend]
  rfl

/-- What the driver gets of one datagram, where the hardware address is known. -/
theorem ipLlSend_logFrame [LawfulListLib] {h : EtherArp τ} {ip : Netif} {eth : EtherT}
    {d : IpDatagram} (hll : h.ll ip.handle = some eth)
    (hmac : ipAddrBroadcast d.header.dest = true ∨
      ∃ item ∈ h.arpTable, item.ip = d.header.dest.addr)
    (hwf : ∀ n ∈ d.payload, n.WellFormed)
    (hsize : d.rawData.length + (vbytes d.payload).length ≤ 2034) :
    ∃ mac, ipLlSend logFrame true h ip (some []) d =
      (some [(eth, frameBytes mac eth.macAddress etherTypeIp (d.rawData ++ vbytes d.payload))],
        true) := by
  have hwf' : ∀ n ∈ dblkNodeInit d.rawData :: d.payload, n.WellFormed := by
    intro n hn
    rcases List.mem_cons.1 hn with rfl | hn
    · exact wellFormed_init d.rawData
    · exact hwf n hn
  have hbytes : vbytes (dblkNodeInit d.rawData :: d.payload) = d.rawData ++ vbytes d.payload := rfl
  have hlen : (vbytes (dblkNodeInit d.rawData :: d.payload)).length + 14 ≤ 2048 := by
    rw [hbytes, List.length_append]
    omega
  have hloop : ∀ mac : Mac, ∀ frame : Frame, frame.destMacAddr = mac → frame.type = etherTypeIp →
      frame.dataSize = 2048 →
      etherSendLoop logFrame eth [dblkNodeInit d.rawData :: d.payload] frame [] =
        [(eth, frameBytes mac eth.macAddress etherTypeIp (d.rawData ++ vbytes d.payload))] := by
    rintro mac frame rfl htype hsize
    have hnot : ¬ frame.type < 0x05DC := by
      rw [htype]
      decide
    have h : etherSendLoop logFrame eth [dblkNodeInit d.rawData :: d.payload] frame [] = _ :=
      etherSendLoop_single [] hnot hwf' (hsize ▸ hlen)
    rwa [htype] at h
  -- the destination is everybody, or an address that the table has
  by_cases hb : ipAddrBroadcast d.header.dest = true
  · refine ⟨ethernetBroadcastAddress, ?_⟩
    simp only [ipLlSend, hll, ipEtherSend, if_pos hb, Option.map_some, if_true]
    rw [hloop ethernetBroadcastAddress _ rfl rfl rfl]
  · rcases hmac with hb' | ⟨item, hitem, hip⟩
    · exact absurd hb' hb
    · have hmatch : listMatchArpti d.header.dest.addr item = true := by
        simp [listMatchArpti, hip]
      obtain ⟨found, hfound⟩ := LawfulListLib.exists_find hitem hmatch
      have hget : etherArpGetMacAddress logFrame h eth d.header.dest.addr [] =
          some ([], some found.mac) := by
        rw [etherArpGetMacAddress, hfound]
      refine ⟨found.mac, ?_⟩
      simp only [ipLlSend, hll, ipEtherSend, if_neg hb, hget, Option.map_some, if_true]
      rw [hloop found.mac _ rfl rfl rfl]

end DtsNet
