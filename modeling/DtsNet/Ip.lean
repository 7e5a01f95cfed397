import Mathlib.Data.UInt

/-!
# Ip — addresses and network interfaces

What the TCP module uses of the IP module: address comparison and the choice of the interface
for a local address.
-/

namespace DtsNet

namespace Ip

/-- The four bytes of an IPv4 address or mask, in network order. -/
structure V4 where
  (a1 a2 a3 a4 : UInt8)
  deriving DecidableEq, Repr

def V4.and (a m : V4) : V4 :=
  ⟨a.a1 &&& m.a1, a.a2 &&& m.a2, a.a3 &&& m.a3, a.a4 &&& m.a4⟩

structure IpAddr where
  version : UInt8
  addr : V4
  netmask : V4
  deriving DecidableEq, Repr

/-- What `memset(.., 0, ..)` leaves. -/
def IpAddr.zero : IpAddr :=
  ⟨0, ⟨0, 0, 0, 0⟩, ⟨0, 0, 0, 0⟩⟩

/-- An `ip_t`; `handle` stands for the pointer to it. -/
structure Netif where
  handle : ℕ
  addr : IpAddr
  deriving DecidableEq, Repr

/-- Compares addresses (don't care netmask). -/
def ipAddrEquals (a1 a2 : IpAddr) : Bool :=
  a1.version == a2.version && a1.addr == a2.addr

def ipAddrBroadcast (a : IpAddr) : Bool :=
  a.version == 4 && a.addr == ⟨0xFF, 0xFF, 0xFF, 0xFF⟩

def ipAddrSameLan (a1 a2 : IpAddr) : Bool :=
  a1.version == a2.version &&
    (a1.addr.and a1.netmask == a2.addr.and a2.netmask || ipAddrBroadcast a1 || ipAddrBroadcast a2)

/-- `list_match_lan_addr`: the address looked for takes the netmask of the interface. -/
def listMatchLanAddr (nif : Netif) (addr : IpAddr) : Bool :=
  ipAddrSameLan { addr with netmask := nif.addr.netmask } nif.addr

/-- `ip_find_netif` over the registered interfaces, through `ether_arp_get_ip_by_addr`. -/
def ipFindNetif (nifs : List Netif) (addr : IpAddr) : Option Netif :=
  if addr.version = 4 then
    nifs.find? fun nif => listMatchLanAddr nif addr
  else
    none

theorem ipAddrEquals_iff {a1 a2 : IpAddr} :
    ipAddrEquals a1 a2 = true ↔ a1.version = a2.version ∧ a1.addr = a2.addr := by
  simp [ipAddrEquals]

end Ip

end DtsNet
