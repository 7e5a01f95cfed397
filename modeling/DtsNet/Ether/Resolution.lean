import DtsNet.Stack

/-!
# Resolution — a request, its reply, and the entry that follows

One host asks for an address, the other answers, and the first one knows the answer from then on.
-/

namespace DtsNet
namespace Ether

open Dblk Ip Arp
open Tcp (TimerLib)

/-! ## Frames with ARP packets -/

/-- A packet with Ethernet and IPv4 addresses. -/
def etherPacket (op : UInt16) (sha : Mac) (spa : V4) (tha : Mac) (tpa : V4) : ArpPacket :=
  { hrd := 1
    pro := etherTypeIp
    hln := 6
    pln := 4
    op := op
    sha := sha.bytes
    spa := spa.bytes
    tha := tha.bytes
    tpa := tpa.bytes }

theorem etherPacket_wellFormed (op : UInt16) (sha : Mac) (spa : V4) (tha : Mac) (tpa : V4) :
    (etherPacket op sha spa tha tpa).WellFormed :=
  ⟨rfl, rfl, rfl, rfl⟩

/-- The packet as it is unpacked: behind every address lies the rest of the frame. -/
def receivedPacket (op : UInt16) (sha : Mac) (spa : V4) (tha : Mac) (tpa : V4)
    (rest : List Byte) : ArpPacket :=
  { etherPacket op sha spa tha tpa with
    sha := sha.bytes ++ (spa.bytes ++ (tha.bytes ++ (tpa.bytes ++ rest)))
    spa := spa.bytes ++ (tha.bytes ++ (tpa.bytes ++ rest))
    tha := tha.bytes ++ (tpa.bytes ++ rest)
    tpa := tpa.bytes ++ rest }

/-- The bytes of the frame that carries it. -/
def arpFrameBytes (dest src : Mac) (pkt : ArpPacket) : List Byte :=
  frameBytes dest src etherTypeArp (arpPack pkt 32)

theorem length_arpFrameBytes (dest src : Mac) (op : UInt16) (sha : Mac) (spa : V4) (tha : Mac)
    (tpa : V4) : (arpFrameBytes dest src (etherPacket op sha spa tha tpa)).length = 42 := by
  have hlen := length_arpPack (etherPacket_wellFormed op sha spa tha tpa)
    (show arpSize (etherPacket op sha spa tha tpa) ≤ 32 from Nat.le_of_ble_eq_true rfl)
  rw [arpFrameBytes, length_frameBytes, hlen]
  rfl

/-- The first six bytes of a frame are its destination. -/
theorem ofMem_arpFrameBytes (dest src : Mac) (pkt : ArpPacket) :
    Mac.ofMem (arpFrameBytes dest src pkt) = dest := by
  simp only [arpFrameBytes, frameBytes, List.append_assoc, Mac.ofMem_bytes]

section Hosts

variable {σ : Type}

/-- The frame of an ARP packet fits into its buffer. -/
theorem etherHlSend_arpFrame (send : σ → EtherT → List Byte → σ × Bool) (ether : EtherT)
    (dest : Mac) {pkt : List Byte} (hlen : pkt.length ≤ 50) (s : σ) :
    (etherHlSend send ether (arpFrame dest pkt) s).2 =
      send s ether (frameBytes dest ether.macAddress etherTypeArp pkt) := by
  have hbytes : vbytes (arpFrame dest pkt).payload = pkt := List.append_nil pkt
  have hwf : ∀ n ∈ (arpFrame dest pkt).payload, n.WellFormed := by
    intro n hn
    obtain rfl := List.mem_singleton.1 hn
    exact wellFormed_init pkt
  have hsize : (vbytes (arpFrame dest pkt).payload).length + 14 ≤
      (arpFrame dest pkt).dataSize := by
    rw [hbytes]
    exact Nat.add_le_add_right hlen 14
  have h := etherHlSend_eq send ether s (show ¬ etherTypeArp < 0x05DC by decide) hwf hsize
  rwa [hbytes] at h

variable {τ κ : Type} [ListLib] [TimerLib τ] [TimerRemain τ]

/-- A frame with an ARP packet reaches the ARP module, whatever its padding is. -/
theorem etherLlRecv_arpFrame (send : σ → EtherT → List Byte → σ × Bool)
    (icmpIpRecv tcpIpRecv : Receiver (Stack τ σ κ)) (now : ℕ) (ether : EtherT) {dest src : Mac}
    {op : UInt16} {sha : Mac} {spa : V4} {tha : Mac} {tpa : V4}
    (wire : OnWire (arpFrameBytes dest src (etherPacket op sha spa tha tpa))) (rest : List Byte)
    (st : Stack τ σ κ) :
    let r := etherArpReceive send now ether
      (receivedPacket op sha spa tha tpa (wire.tail ++ rest)) st.arp st.driver
    Stack.etherLlRecv send icmpIpRecv tcpIpRecv now ether (wire.bytes ++ rest) wire.bytes.length
        st =
      ({ st with arp := r.1, driver := r.2 }, true) := by
  have hpkt := etherPacket_wellFormed op sha spa tha tpa
  have hsize : arpSize (etherPacket op sha spa tha tpa) = 28 := rfl
  have hlen := length_arpFrameBytes dest src op sha spa tha tpa
  have hpack := length_arpPack hpkt (show arpSize (etherPacket op sha spa tha tpa) ≤ 32 by omega)
  have htail := wire.length_tail
  have hbytes : wire.bytes.length = 64 := by
    rw [wire.length_bytes, hlen]
    rfl
  obtain ⟨crc, hframe⟩ := @etherUnpack_frameBytes dest src etherTypeArp
    (arpPack (etherPacket op sha spa tha tpa) 32) wire.tail rest 64 (by omega) (by omega)
    (by omega)
  have hunpack : arpUnpack (arpPack (etherPacket op sha spa tha tpa) 32 ++ (wire.tail ++ rest)) 46 =
      some (receivedPacket op sha spa tha tpa (wire.tail ++ rest)) :=
    arpUnpack_arpPack hpkt (show arpSize (etherPacket op sha spa tha tpa) ≤ 32 by omega)
      (show arpSize (etherPacket op sha spa tha tpa) ≤ 46 by omega) (wire.tail ++ rest)
  have hpayload : (UInt8.ofNat (64 - 18)).toNat = 46 := rfl
  have hne : etherTypeArp ≠ etherTypeIp := by decide
  have hmem : wire.bytes ++ rest =
      frameBytes dest src etherTypeArp (arpPack (etherPacket op sha spa tha tpa) 32) ++
        wire.tail ++ rest := rfl
  rw [hbytes, hmem, Stack.etherLlRecv, if_pos (show 0 < 64 by omega), hframe]
  simp only [if_true, if_neg hne, hpayload, List.append_assoc, etherArpEtherRecv, hunpack]

/-! ## Asking -/

omit [TimerLib τ] [TimerRemain τ] in
/-- A request for an address that is not in the table goes out to everybody. -/
theorem etherArpGetMacAddress_request [LawfulListLib] {h : EtherArp τ} {ip : Netif} {ether : EtherT}
    {target : V4} (send : σ → EtherT → List Byte → σ × Bool) (s : σ)
    (hreg : Registered h ip ether) (hnone : ∀ item ∈ h.arpTable, item.ip ≠ target) :
    ∃ localhost : Netif, etherArpGetMacAddress send h ether target s =
      some ((send s ether (arpFrameBytes ethernetBroadcastAddress ether.macAddress
        (etherPacket arpOpReq ether.macAddress localhost.addr.addr ⟨0, 0, 0, 0, 0, 0⟩ target))).1,
          none) := by
  have hfind : ListLib.find (listMatchArpti target) h.arpTable = none := by
    refine find_eq_none ?_
    intro item hitem
    simpa [listMatchArpti] using hnone item hitem
  have hmatch : listMatchEth ether { ip := ip, eth := ether } = true := by simp [listMatchEth]
  obtain ⟨nif, hnif⟩ := LawfulListLib.exists_find hreg.mem hmatch
  have hask : etherArpAskIp ether.macAddress nif.ip.addr.addr target =
      arpPack (etherPacket arpOpReq ether.macAddress nif.ip.addr.addr ⟨0, 0, 0, 0, 0, 0⟩ target)
        32 := rfl
  -- with several interfaces on the Ethernet, the request names the one that is found
  refine ⟨nif.ip, ?_⟩
  rw [etherArpGetMacAddress, hfind, etherArpGetIp, hnif]
  simp only [Option.map_some]
  have hsend := etherHlSend_arpFrame send ether ethernetBroadcastAddress
    (show (etherArpAskIp ether.macAddress nif.ip.addr.addr target).length ≤ 50 from
      Nat.le_of_ble_eq_true rfl) s
  rw [hsend]
  rfl

/-! ## Answering -/

/-- Nobody here has the address. -/
theorem etherArpReceive_unknown [LawfulListLib] {h : EtherArp τ} {sha : Mac} {spa : V4}
    {tha : Mac} {target : V4} (send : σ → EtherT → List Byte → σ × Bool) (now : ℕ)
    (ether : EtherT) (rest : List Byte) (s : σ)
    (hnone : ∀ nif ∈ h.nifList, nif.ip.addr.addr ≠ target) :
    etherArpReceive send now ether (receivedPacket arpOpReq sha spa tha target rest) h s =
      (h, s) := by
  have htpa : V4.ofMem (receivedPacket arpOpReq sha spa tha target rest).tpa = target := rfl
  have hop : (receivedPacket arpOpReq sha spa tha target rest).op = arpOpReq := rfl
  have hne : arpOpReq ≠ arpOpRpl := by decide
  have hfind : ListLib.find (listMatchIpAddr (ipv4AddrDef target)) h.nifList = none := by
    refine find_eq_none ?_
    intro nif hnif
    have haddr := hnone nif hnif
    simp [listMatchIpAddr, ipAddrEquals, ipv4AddrDef, Ne.symm haddr]
  rw [etherArpReceive, hop, htpa, if_neg hne, if_pos rfl, hfind]

/-- The interface that has the address answers, with its hardware address, to the sender alone. -/
theorem etherArpReceive_request [LawfulListLib] {h : EtherArp τ} {ip : Netif} {eth : EtherT}
    {sha : Mac} {spa : V4} {tha : Mac} (send : σ → EtherT → List Byte → σ × Bool) (now : ℕ)
    (rest : List Byte) (s : σ) (hreg : Registered h ip eth) (hver : ip.addr.version = 4)
    (hdistinct : ∀ n ∈ h.nifList, ∀ m ∈ h.nifList,
      n.ip.addr.addr = m.ip.addr.addr → n = m) :
    etherArpReceive send now eth
        (receivedPacket arpOpReq sha spa tha ip.addr.addr rest) h s =
      (h, (send s eth (arpFrameBytes sha eth.macAddress
        (etherPacket arpOpRpl eth.macAddress ip.addr.addr sha spa))).1) := by
  have htpa : V4.ofMem (receivedPacket arpOpReq sha spa tha ip.addr.addr rest).tpa =
      ip.addr.addr := rfl
  have hop : (receivedPacket arpOpReq sha spa tha ip.addr.addr rest).op = arpOpReq := rfl
  have hne : arpOpReq ≠ arpOpRpl := by decide
  have hmatch : listMatchIpAddr (ipv4AddrDef ip.addr.addr) { ip := ip, eth := eth } = true := by
    simp [listMatchIpAddr, ipAddrEquals, ipv4AddrDef, hver]
  have hfind : ListLib.find (listMatchIpAddr (ipv4AddrDef ip.addr.addr)) h.nifList =
      some { ip := ip, eth := eth } := by
    -- whatever interface is found has this address, which no other one has
    obtain ⟨nif, hnif⟩ := LawfulListLib.exists_find hreg.mem hmatch
    obtain ⟨hmem, hp⟩ := LawfulListLib.of_find_some hnif
    have haddr : ip.addr.addr = nif.ip.addr.addr := (ipAddrEquals_iff.1 hp).2
    rw [hnif, hdistinct nif hmem _ hreg.mem haddr.symm]
  -- the reply takes the addresses of the request out of the received frame
  have hreply : arpPack (replyPacket (receivedPacket arpOpReq sha spa tha ip.addr.addr rest)
      { ip := ip, eth := eth }) 32 =
        arpPack (etherPacket arpOpRpl eth.macAddress ip.addr.addr sha spa) 32 := by
    rw [← arpPack_trim]
    rfl
  have hdest : Mac.ofMem (replyPacket (receivedPacket arpOpReq sha spa tha ip.addr.addr rest)
      { ip := ip, eth := eth }).tha = sha := rfl
  have hlen : (arpPack (etherPacket arpOpRpl eth.macAddress ip.addr.addr sha spa) 32).length ≤ 50 :=
    Nat.le_of_ble_eq_true rfl
  rw [etherArpReceive, hop, htpa, if_neg hne, if_pos rfl, hfind]
  simp only [hreply, hdest, etherHlSend_arpFrame send eth sha hlen s]
  rfl

/-! ## Learning -/

/-- A reply puts its sender into the table. -/
theorem arp_of_replyFrame (send : σ → EtherT → List Byte → σ × Bool)
    (icmpIpRecv tcpIpRecv : Receiver (Stack τ σ κ)) (now : ℕ) (ether : EtherT) {dest src : Mac}
    {sha : Mac} {spa : V4} {tha : Mac} {tpa : V4}
    (wire : OnWire (arpFrameBytes dest src (etherPacket arpOpRpl sha spa tha tpa)))
    (rest : List Byte) (st : Stack τ σ κ) :
    (Stack.etherLlRecv send icmpIpRecv tcpIpRecv now ether (wire.bytes ++ rest)
        wire.bytes.length st).1.arp = learnArpti now spa sha st.arp := by
  have hop : (receivedPacket arpOpRpl sha spa tha tpa (wire.tail ++ rest)).op = arpOpRpl := rfl
  rw [etherLlRecv_arpFrame send icmpIpRecv tcpIpRecv now ether wire rest st]
  exact congrArg Prod.fst (if_pos hop)

/-- With a free item the entry is added. -/
theorem learnArpti_free {h : EtherArp τ} (now : ℕ) (ip : V4) (mac : Mac)
    (hfree : h.arpTable.length < h.arptiCount) :
    learnArpti now ip mac h =
      { h with arpTable := ListLib.add (newArpti now ip mac) h.arpTable } := by
  rw [learnArpti, if_pos hfree]

omit [TimerRemain τ] in
/-- An address that was just learned, and was not known before, is found. -/
theorem etherArpGetMacAddress_learned [LawfulListLib] {h : EtherArp τ} {now : ℕ} {ip : V4}
    {mac : Mac} (send : σ → EtherT → List Byte → σ × Bool) (ether : EtherT) (s : σ)
    (hnone : ∀ item ∈ h.arpTable, item.ip ≠ ip) :
    etherArpGetMacAddress send
        { h with arpTable := ListLib.add (newArpti now ip mac) h.arpTable } ether ip s =
      some (s, some mac) := by
  have hmem : newArpti now ip mac ∈ ListLib.add (newArpti now ip mac) h.arpTable :=
    mem_add.2 (Or.inl rfl)
  have hmatch : listMatchArpti ip (newArpti (τ := τ) now ip mac) = true := by
    simp [listMatchArpti, newArpti]
  obtain ⟨item, hitem⟩ := LawfulListLib.exists_find hmem hmatch
  obtain ⟨hin, hip⟩ := LawfulListLib.of_find_some hitem
  rw [etherArpGetMacAddress, hitem]
  -- an older entry of the address would be found as well, but there is none
  rcases mem_add.1 hin with rfl | hold
  · rfl
  · simp only [listMatchArpti, beq_iff_eq] at hip
    exact absurd hip (hnone item hold)

/-! ## The whole exchange -/

section Exchange

variable {κ' τ' : Type} [TimerLib τ'] [TimerRemain τ'] [LawfulListLib]
  {hostA : Stack τ (List (EtherT × List Byte)) κ}
  {hostB : Stack τ' (List (EtherT × List Byte)) κ'} {ipA : Netif} {ethA ethB : EtherT}

/-- Host A asks for an address that it does not know.  If no interface of host B has it, B is
silent; if the one on the shared Ethernet has it, B answers to A alone, and from then on A knows
B's hardware address. -/
theorem arp_resolves (target : V4) (hregA : Registered hostA.arp ipA ethA)
    (hnone : ∀ item ∈ hostA.arp.arpTable, item.ip ≠ target)
    (hfree : hostA.arp.arpTable.length < hostA.arp.arptiCount)
    (icmpA tcpA : Receiver (Stack τ (List (EtherT × List Byte)) κ))
    (icmpB tcpB : Receiver (Stack τ' (List (EtherT × List Byte)) κ')) :
    ∃ request,
      etherArpGetMacAddress logFrame hostA.arp ethA target hostA.driver =
        some (hostA.driver ++ [(ethA, request)], none) ∧
      Mac.ofMem request = ethernetBroadcastAddress ∧
      ∀ (wire : OnWire request) (rest : List Byte) (nowB : ℕ),
        let hostB' := (Stack.etherLlRecv logFrame icmpB tcpB nowB ethB (wire.bytes ++ rest)
          wire.bytes.length hostB).1
        ((∀ nif ∈ hostB.arp.nifList, nif.ip.addr.addr ≠ target) →
          hostB'.driver = hostB.driver) ∧
        (∀ ipB : Netif, Registered hostB.arp ipB ethB → ipB.addr.version = 4 →
          ipB.addr.addr = target →
          (∀ n ∈ hostB.arp.nifList, ∀ m ∈ hostB.arp.nifList,
            n.ip.addr.addr = m.ip.addr.addr → n = m) →
          ∃ reply,
            hostB'.driver = hostB.driver ++ [(ethB, reply)] ∧
            Mac.ofMem reply = ethA.macAddress ∧
            ∀ (wire' : OnWire reply) (rest' : List Byte) (nowA : ℕ),
              let hostA' := (Stack.etherLlRecv logFrame icmpA tcpA nowA ethA
                (wire'.bytes ++ rest') wire'.bytes.length
                { hostA with driver := hostA.driver ++ [(ethA, request)] }).1
              ∀ (σ : Type) (send : σ → EtherT → List Byte → σ × Bool) (ether : EtherT) (s : σ),
                etherArpGetMacAddress send hostA'.arp ether target s =
                  some (s, some ethB.macAddress)) := by
  obtain ⟨localhost, hask⟩ := etherArpGetMacAddress_request logFrame hostA.driver hregA hnone
  refine ⟨_, hask, ofMem_arpFrameBytes _ _ _, ?_⟩
  intro wire rest nowB
  have hB := etherLlRecv_arpFrame logFrame icmpB tcpB nowB ethB wire rest hostB
  refine ⟨?_, ?_⟩
  · intro hnoneB
    rw [hB, etherArpReceive_unknown logFrame nowB ethB _ hostB.driver hnoneB]
  · rintro ipB hregB hver rfl hdistinct
    rw [hB, etherArpReceive_request logFrame nowB _ hostB.driver hregB hver hdistinct]
    refine ⟨_, rfl, ofMem_arpFrameBytes _ _ _, ?_⟩
    intro wire' rest' nowA hostA' σ send ether s
    have hA : hostA'.arp = learnArpti nowA ipB.addr.addr ethB.macAddress hostA.arp :=
      arp_of_replyFrame logFrame icmpA tcpA nowA ethA wire' rest' _
    rw [hA, learnArpti_free nowA _ _ hfree]
    exact etherArpGetMacAddress_learned send ether s hnone

end Exchange

end Hosts

def sampleIpB : Netif :=
  { handle := 2, addr := ⟨4, ⟨10, 0, 0, 2⟩, ⟨255, 0, 0, 0⟩⟩ }

def sampleEthA : EtherT :=
  { handle := 1, macAddress := ⟨2, 0, 0, 0, 0, 1⟩ }

def sampleEthB : EtherT :=
  { handle := 2, macAddress := ⟨2, 0, 0, 0, 0, 2⟩ }

/-- A host with one registered interface and an empty table. -/
def sampleStation (ip : Netif) (eth : EtherT) : Stack Tcp.Deadline (List (EtherT × List Byte)) ℕ :=
  { arp :=
      { arpTable := [], arptiCount := 4, nifList := [{ ip := ip, eth := eth }],
        ll := fun _ => some eth }
    udpList := []
    driver := []
    delivered := [] }

theorem arp_resolves_sample :
    ∃ request,
      etherArpGetMacAddress logFrame (sampleStation sampleNetif sampleEthA).arp sampleEthA
          ⟨10, 0, 0, 2⟩ [] = some ([(sampleEthA, request)], none) ∧
      ∀ (wire : OnWire request) (rest : List Byte) (nowB : ℕ), ∃ reply,
        (Stack.etherLlRecv logFrame (fun _ _ _ _ st => st) (fun _ _ _ _ st => st) nowB sampleEthB
            (wire.bytes ++ rest) wire.bytes.length
            (sampleStation sampleIpB sampleEthB)).1.driver = [(sampleEthB, reply)] ∧
          Mac.ofMem reply = sampleEthA.macAddress := by
  have hregA : Registered (sampleStation sampleNetif sampleEthA).arp sampleNetif sampleEthA :=
    ⟨List.mem_singleton.2 rfl, rfl⟩
  have hregB : Registered (sampleStation sampleIpB sampleEthB).arp sampleIpB sampleEthB :=
    ⟨List.mem_singleton.2 rfl, rfl⟩
  obtain ⟨request, hask, -, hanswer⟩ :=
    @arp_resolves _ _ _ _ _ ℕ Tcp.Deadline _ _ _ (sampleStation sampleNetif sampleEthA)
      (sampleStation sampleIpB sampleEthB) sampleNetif sampleEthA sampleEthB ⟨10, 0, 0, 2⟩ hregA
      (by decide) (by decide) (fun _ _ _ _ st => st) (fun _ _ _ _ st => st)
      (fun _ _ _ _ st => st) (fun _ _ _ _ st => st)
  refine ⟨request, hask, fun wire rest nowB => ?_⟩
  obtain ⟨reply, hreply, hmac, -⟩ := (hanswer wire rest nowB).2 sampleIpB hregB rfl rfl (by decide)
  exact ⟨reply, hreply, hmac⟩

end Ether
end DtsNet
