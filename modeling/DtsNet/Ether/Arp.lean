import DtsNet.Arp
import DtsNet.Ether
import DtsNet.Ip.Output
import DtsNet.Tcp.Tcb

/-!
# Arp — address resolution on Ethernet

The ARP table, the list of registered interfaces, and `ip_ether_send`, which sends the datagrams of
the IP module in Ethernet frames.  A call that goes through a null pointer has no result here.
-/

namespace DtsNet
namespace Ether

open Dblk Ip Arp Tcp

/-! ## The list library -/

/-- The operations of the external list library that are used on these lists. -/
class ListLib where
  find {α : Type} : (α → Bool) → List α → Option α
  add {α : Type} : α → List α → List α

/-- `list_find` returns a matching element if there is one, and `list_add` adds an element. -/
class LawfulListLib [ListLib] : Prop where
  of_find_some {α : Type} {p : α → Bool} {l : List α} {x : α} :
    ListLib.find p l = some x → x ∈ l ∧ p x = true
  exists_find {α : Type} {p : α → Bool} {l : List α} {x : α} :
    x ∈ l → p x = true → ∃ y, ListLib.find p l = some y
  add_perm {α : Type} (x : α) (l : List α) : (ListLib.add x l).Perm (x :: l)

/-- A list to which elements are added at the head, searched from there. -/
instance headList : ListLib where
  find p l := l.find? p
  add x l := x :: l

instance : @LawfulListLib headList where
  of_find_some h := ⟨List.mem_of_find?_eq_some h, List.find?_some h⟩
  exists_find hx hp := Option.isSome_iff_exists.1 (List.find?_isSome.2 ⟨_, hx, hp⟩)
  add_perm _ _ := List.Perm.refl _

section LawfulFind

variable [ListLib] [LawfulListLib] {α : Type}

theorem find_eq_none {p : α → Bool} {l : List α} (h : ∀ x ∈ l, p x = false) :
    ListLib.find p l = none := by
  cases hfind : ListLib.find p l with
  | none =>
      rfl
  | some x =>
      obtain ⟨hx, hp⟩ := LawfulListLib.of_find_some hfind
      rw [h x hx] at hp
      cases hp

theorem mem_add {x y : α} {l : List α} : y ∈ ListLib.add x l ↔ y = x ∨ y ∈ l := by
  rw [(LawfulListLib.add_perm x l).mem_iff, List.mem_cons]

end LawfulFind

/-! ## The table and the interfaces -/

/-- What the table needs of the timer library besides. -/
class TimerRemain (τ : Type) where
  remain : τ → (now : ℕ) → ℕ

instance : TimerRemain Deadline where
  remain t now := t.due.getD now - now

/-- An `ether_arp_ti_t`. -/
structure Arpti (τ : Type) where
  ip : V4
  mac : Mac
  tmr : τ
  deriving DecidableEq, Repr

/-- A `nif_t`: an interface of the IP module and the Ethernet under it. -/
structure Nif where
  ip : Netif
  eth : EtherT
  deriving DecidableEq, Repr

/-- `arp_table` and `nif_list`, the number of items that `mem_alloc_arpti` has to give out, and
`ip->ll` of every interface, by its handle. -/
structure EtherArp (τ : Type) where
  arpTable : List (Arpti τ)
  arptiCount : ℕ
  nifList : List Nif
  ll : ℕ → Option EtherT

variable {τ σ : Type} [ListLib]

/-- `ether_arp_resgiter_pair`; `alloc` says whether a `nif_t` can be allocated. -/
def etherArpResgiterPair (alloc : Bool) (ip : Netif) (eth : EtherT) (h : EtherArp τ) :
    EtherArp τ :=
  if alloc then
    { h with
      ll := Function.update h.ll ip.handle (some eth)
      nifList := ListLib.add { ip := ip, eth := eth } h.nifList }
  else
    h

/-- The interface was registered on this Ethernet. -/
structure Registered (h : EtherArp τ) (ip : Netif) (eth : EtherT) : Prop where
  mem : { ip := ip, eth := eth } ∈ h.nifList
  ll : h.ll ip.handle = some eth

theorem registered_resgiterPair [LawfulListLib] (ip : Netif) (eth : EtherT) (h : EtherArp τ) :
    Registered (etherArpResgiterPair true ip eth h) ip eth where
  mem := mem_add.2 (Or.inl rfl)
  ll := Function.update_self _ _ _

def listMatchEth (eth : EtherT) (nif : Nif) : Bool :=
  nif.eth.handle == eth.handle

def etherArpGetIp (h : EtherArp τ) (eth : EtherT) : Option Netif :=
  (ListLib.find (listMatchEth eth) h.nifList).map Nif.ip

/-- The address looked for takes the netmask of the interface, which is not compared. -/
def listMatchIpAddr (ipaddr : IpAddr) (nif : Nif) : Bool :=
  ipAddrEquals { ipaddr with netmask := nif.ip.addr.netmask } nif.ip.addr

def listMatchArpti (ip : V4) (arpti : Arpti τ) : Bool :=
  arpti.ip == ip

/-! ## Asking -/

/-- `ether_arp_ask_ip`: the target hardware address points into the packet's own buffer, which was
cleared before. -/
def etherArpAskIp (sourceMac : Mac) (sourceIp targetIp : V4) : List Byte :=
  arpPack
    { hrd := 1
      pro := etherTypeIp
      hln := 6
      pln := 4
      op := arpOpReq
      sha := sourceMac.bytes
      spa := sourceIp.bytes
      tha := List.replicate 6 0
      tpa := targetIp.bytes } 32

/-- A frame with an ARP packet, in a buffer of 64 bytes. -/
def arpFrame (dest : Mac) (pkt : List Byte) : Frame :=
  { destMacAddr := dest
    srcMacAddr := ⟨0, 0, 0, 0, 0, 0⟩
    payload := [dblkNodeInit pkt]
    type := etherTypeArp
    data := List.replicate 64 0
    dataSize := 64 }

/-- Tries to find the address in the table, and else sends a request. -/
def etherArpGetMacAddress (send : σ → EtherT → List Byte → σ × Bool) (h : EtherArp τ)
    (ether : EtherT) (targetIp : V4) (s : σ) : Option (σ × Option Mac) :=
  -- an expired entry is found like any other
  match ListLib.find (listMatchArpti targetIp) h.arpTable with
  | some arpti => some (s, some arpti.mac)
  | none =>
      (etherArpGetIp h ether).map fun localhost =>
        let pkt := etherArpAskIp ether.macAddress localhost.addr.addr targetIp
        let sent := etherHlSend send ether (arpFrame ethernetBroadcastAddress pkt) s
        (sent.2.1, none)

/-! ## Receiving -/

section Receiving

variable [TimerLib τ] [TimerRemain τ]

/-- The position of the item whose remaining time is shortest, the first of several. -/
def shortestIdx (now : ℕ) : List (Arpti τ) → Option (ℕ × ℕ)
  | [] => none
  | item :: rest =>
      let here := TimerRemain.remain item.tmr now
      match shortestIdx now rest with
      | none => some (0, here)
      | some (i, remain) => if remain < here then some (i + 1, remain) else some (0, here)

/-- Releases the expired items, or the one whose remaining time is shortest. -/
def releaseArptis (now : ℕ) (table : List (Arpti τ)) : List (Arpti τ) :=
  if table.any fun item => TimerLib.expired item.tmr now then
    table.filter fun item => !TimerLib.expired item.tmr now
  else
    match shortestIdx now table with
    | some (i, _) => table.eraseIdx i
    | none => table

/-- An item for an address pair that was just learned. -/
def newArpti (now : ℕ) (ip : V4) (mac : Mac) : Arpti τ :=
  { ip := ip
    mac := mac
    tmr := TimerLib.start TimerLib.init now 7200 }

/-- A received reply: if no item is left, some are released, after which the allocation succeeds;
every item is either free or in the table. -/
def learnArpti (now : ℕ) (ip : V4) (mac : Mac) (h : EtherArp τ) : EtherArp τ :=
  let table :=
    if h.arpTable.length < h.arptiCount then h.arpTable else releaseArptis now h.arpTable
  { h with arpTable := ListLib.add (newArpti now ip mac) table }

/-- The reply to a request for one of our addresses: the fields of the request are turned round in
place. -/
def replyPacket (pkt : ArpPacket) (nif : Nif) : ArpPacket :=
  { pkt with
    op := arpOpRpl
    tha := pkt.sha
    tpa := pkt.spa
    sha := nif.eth.macAddress.bytes
    spa := nif.ip.addr.addr.bytes }

/-- `IPv4_ADDR_DEF`. -/
def ipv4AddrDef (addr : V4) : IpAddr :=
  { version := 4, addr := addr, netmask := ⟨0, 0, 0, 0⟩ }

/-- What `ether_arp_ether_recv` does with an unpacked packet. -/
def etherArpReceive (send : σ → EtherT → List Byte → σ × Bool) (now : ℕ) (ether : EtherT)
    (pkt : ArpPacket) (h : EtherArp τ) (s : σ) : EtherArp τ × σ :=
  if pkt.op = arpOpRpl then
    (learnArpti now (V4.ofMem pkt.spa) (Mac.ofMem pkt.sha) h, s)
  else if pkt.op = arpOpReq then
    match ListLib.find (listMatchIpAddr (ipv4AddrDef (V4.ofMem pkt.tpa))) h.nifList with
    | none => (h, s)
    | some nif =>
        let pkt := replyPacket pkt nif
        let sent := etherHlSend send ether (arpFrame (Mac.ofMem pkt.tha) (arpPack pkt 32)) s
        (h, sent.2.1)
  else
    (h, s)

def etherArpEtherRecv (send : σ → EtherT → List Byte → σ × Bool) (now : ℕ) (ether : EtherT)
    (data : List Byte) (dataSize : ℕ) (h : EtherArp τ) (s : σ) : EtherArp τ × σ :=
  match arpUnpack data dataSize with
  | none => (h, s)
  | some pkt => etherArpReceive send now ether pkt h s

end Receiving

/-! ## Sending datagrams -/

/-- A block is offered to the driver until it is taken, `retry` times at most. -/
def offerBlock (send : σ → EtherT → List Byte → σ × Bool) (eth : EtherT) :
    ℕ → Frame → σ → Frame × σ × Bool
  | 0, frame, s => (frame, s, false)
  | retry + 1, frame, s =>
      let sent := etherHlSend send eth frame s
      if sent.2.2 then sent else offerBlock send eth retry sent.1 sent.2.1

/-- The loop of `ip_ether_send`: three tries for each block, until one is not taken. -/
def etherSendLoop (send : σ → EtherT → List Byte → σ × Bool) (eth : EtherT) :
    List (List VNode) → Frame → σ → σ
  | [], _, s => s
  | block :: next, frame, s =>
      let sent := offerBlock send eth 3 { frame with payload := block } s
      if sent.2.2 then etherSendLoop send eth next sent.1 sent.2.1 else sent.2.1

/-- `ip_ether_send` of a list of blocks; `malloc` says whether the frame buffer can be allocated. -/
def ipEtherSend (send : σ → EtherT → List Byte → σ × Bool) (malloc : Bool) (h : EtherArp τ)
    (eth : EtherT) (dest : IpAddr) (blocks : List (List VNode)) (s : σ) : Option (σ × Bool) :=
  let mac : Option (σ × Option Mac) :=
    if ipAddrBroadcast dest then
      some (s, some ethernetBroadcastAddress)
    else
      etherArpGetMacAddress send h eth dest.addr s
  mac.map fun
    | (s, none) => (s, false)
    | (s, some mac) =>
        if malloc then
          let frame :=
            { destMacAddr := mac
              srcMacAddr := ⟨0, 0, 0, 0, 0, 0⟩
              payload := []
              type := etherTypeIp
              data := List.replicate 2048 0
              dataSize := 2048 }
          (etherSendLoop send eth blocks frame s, true)
        else
          (s, false)

end Ether
end DtsNet
