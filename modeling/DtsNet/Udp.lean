import DtsNet.Dblk
import DtsNet.Ip

/-!
# Udp — the list of bound ports

`udp_list` holds the ports that were bound with `udp_bind`, each on one interface, with the
callback that gets its datagrams.
-/

namespace DtsNet
namespace Udp

open Ip

/-! ## Bound ports -/

/-- A `udp_t`; `callback` stands for the function together with its `cb_data`, `none` for the null
pointer. -/
structure UdpT (κ : Type) where
  lowLevel : Netif
  port : UInt32
  callback : Option κ
  deriving DecidableEq, Repr

variable {κ : Type}

/-- The entry is for this interface and port. -/
def boundAt (ip : Netif) (port : UInt32) (udp : UdpT κ) : Bool :=
  udp.lowLevel.handle == ip.handle && udp.port == port

def findUdpByAddr (udpList : List (UdpT κ)) (ip : Netif) (port : UInt32) : Option (UdpT κ) :=
  udpList.find? (boundAt ip port)

/-- `udp_bind`; `alloc` says whether the pool has an item left. -/
def udpBind (alloc : Bool) (ip : Netif) (port : UInt32) (callback : Option κ)
    (udpList : List (UdpT κ)) : List (UdpT κ) × Option (UdpT κ) :=
  match findUdpByAddr udpList ip port with
  | some _ => (udpList, none)
  | none =>
      if alloc then
        let udp := { lowLevel := ip, port := port, callback := callback }
        (udp :: udpList, some udp)
      else
        (udpList, none)

end Udp
end DtsNet
