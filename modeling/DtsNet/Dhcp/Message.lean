import DtsNet.Ether
import DtsNet.Ip.Header

/-!
# Message — DHCP messages

`dhcp_message_pack`, `dhcp_message_unpack` and the lookups in the option area.  `option` is the
memory from the pointer on; it is treated as a value that stays readable, also after the buffer
that the pointer goes into was freed.
-/

namespace DtsNet
namespace Dhcp

open Dblk

/-! ## Messages -/

def bootRequest : UInt8 := 1
def bootReply : UInt8 := 2

def dhcpHtypeEthernet : UInt8 := 1
def dhcpHlenEthernet : UInt8 := 6

def dhcpMessageFlagBroadcast : UInt16 := 1

/-- A `dhcp_message_t`; its raw buffer is an argument of the functions that use it. -/
structure DhcpMessage where
  op : UInt8
  htype : UInt8
  hlen : UInt8
  hops : UInt8
  xid : UInt32
  secs : UInt16
  flags : UInt16
  ciaddr : UInt32
  yiaddr : UInt32
  siaddr : UInt32
  giaddr : UInt32
  chaddr : List Byte
  sname : List Byte
  file : List Byte
  option : List Byte
  optionSize : ℕ
  deriving DecidableEq, Repr

/-- What `dhcp_message_init` leaves. -/
def dhcpMessageInit : DhcpMessage :=
  { op := 0
    htype := 0
    hlen := 0
    hops := 0
    xid := 0
    secs := 0
    flags := 0
    ciaddr := 0
    yiaddr := 0
    siaddr := 0
    giaddr := 0
    chaddr := List.replicate 16 0
    sname := List.replicate 64 0
    file := List.replicate 128 0
    option := []
    optionSize := 0 }

/-! ## Packing -/

/-- The bytes that `dhcp_message_pack` writes. -/
def dhcpMessageBytes (msg : DhcpMessage) : List Byte :=
  [msg.op, msg.htype, msg.hlen, msg.hops] ++ bw32 msg.xid ++ bw16 msg.secs ++ bw16 msg.flags ++
    bw32 msg.ciaddr ++ bw32 msg.yiaddr ++ bw32 msg.siaddr ++ bw32 msg.giaddr ++
    memRead msg.chaddr 16 ++ memRead msg.sname 64 ++ memRead msg.file 128 ++
    memRead msg.option msg.optionSize

/-- The raw buffer and its size afterwards, and whether the message was packed. -/
def dhcpMessagePack (msg : DhcpMessage) (rawData : List Byte) (rawDataSize : ℕ) :
    List Byte × ℕ × Bool :=
  if rawDataSize < 236 + msg.optionSize then
    (rawData, rawDataSize, false)
  else
    (memWrite rawData (dhcpMessageBytes msg), 236 + msg.optionSize, true)

/-! ## Unpacking -/

/-- The byte order of the host. -/
inductive Host
  | littleEndian
  | bigEndian
  deriving DecidableEq, Repr

/-- `*((uint16_t *)ptr)`, as it is passed on to `ntohl`. -/
def Host.load16 (host : Host) (mem : List Byte) : UInt32 :=
  match host with
  | .littleEndian => (mem.getD 0 0).toUInt32 ||| ((mem.getD 1 0).toUInt32 <<< 8)
  | .bigEndian => ((mem.getD 0 0).toUInt32 <<< 8) ||| (mem.getD 1 0).toUInt32

def Host.ntohl (host : Host) (x : UInt32) : UInt32 :=
  match host with
  | .littleEndian =>
      ((x &&& (0xFF : UInt32)) <<< 24) ||| ((x &&& (0xFF00 : UInt32)) <<< 8) |||
        ((x >>> 8) &&& (0xFF00 : UInt32)) ||| (x >>> 24)
  | .bigEndian => x

/-- `secs` and `flags` are two bytes, but they go through `ntohl`.  The words of four bytes are
what `ntohl` of a load in host order is, on either host. -/
def dhcpMessageUnpack (host : Host) (rawData : List Byte) (rawDataSize : ℕ) :
    Option DhcpMessage :=
  if rawDataSize < 241 then
    none
  else
    some
      { op := rawData.getD 0 0
        htype := rawData.getD 1 0
        hlen := rawData.getD 2 0
        hops := rawData.getD 3 0
        xid := br32 (rawData.drop 4)
        secs := (host.ntohl (host.load16 (rawData.drop 8))).toUInt16
        flags := (host.ntohl (host.load16 (rawData.drop 10))).toUInt16
        ciaddr := br32 (rawData.drop 12)
        yiaddr := br32 (rawData.drop 16)
        siaddr := br32 (rawData.drop 20)
        giaddr := br32 (rawData.drop 24)
        chaddr := memRead (rawData.drop 28) 16
        sname := memRead (rawData.drop 44) 64
        file := memRead (rawData.drop 108) 128
        option := rawData.drop 236
        optionSize := rawDataSize - 236 }

/-! ## Options -/

def dhcpOptMagic : List Byte := [99, 130, 83, 99]

def dhcpOptPad : UInt8 := 0
def dhcpOptRequestIpAddrTag : UInt8 := 50
def dhcpOptIpLeaseTimeTag : UInt8 := 51
def dhcpOptDhcpMsgTypeTag : UInt8 := 53
def dhcpOptServerIdentifierTag : UInt8 := 54
def dhcpOptEnd : UInt8 := 255

def dhcpMsgTypeDiscover : UInt8 := 1
def dhcpMsgTypeOffer : UInt8 := 2
def dhcpMsgTypeRequest : UInt8 := 3
def dhcpMsgTypeAck : UInt8 := 5

/-- The loop over the options, from the offset `ptr`: where the code is found.  A padding byte is
skipped together with the option behind it. -/
def dhcpOptionLoop (option : List Byte) (optionSize : ℕ) (code : UInt8) : ℕ → ℕ → Option ℕ
  | 0, _ => none
  | fuel + 1, ptr =>
      if ptr < optionSize then
        if option.getD ptr 0 = code then
          some ptr
        else
          -- `++ptr` on a padding byte, and then the length behind it is read in the same turn
          let ptr := if option.getD ptr 0 = dhcpOptPad then ptr + 1 else ptr
          if option.getD ptr 0 = dhcpOptEnd then
            none
          else
            dhcpOptionLoop option optionSize code fuel (ptr + 2 + (option.getD (ptr + 1) 0).toNat)
      else
        none

/-- Every turn of the loop moves two bytes on at least, so the size bounds the number of turns. -/
def dhcpOptionFind (msg : DhcpMessage) (code : UInt8) : Option ℕ :=
  if memRead msg.option 4 = dhcpOptMagic then
    dhcpOptionLoop msg.option msg.optionSize code msg.optionSize 4
  else
    none

/-- `none` is -1. -/
def dhcpOptionMessageType (msg : DhcpMessage) : Option UInt8 :=
  (dhcpOptionFind msg dhcpOptDhcpMsgTypeTag).map fun ptr => msg.option.getD (ptr + 2) 0

def dhcpOptionLong (msg : DhcpMessage) (code : UInt8) : Option UInt32 :=
  (dhcpOptionFind msg code).map fun ptr => br32 (msg.option.drop (ptr + 2))

def dhcpOptionIpLeaseTime (msg : DhcpMessage) : Option UInt32 :=
  dhcpOptionLong msg dhcpOptIpLeaseTimeTag

def dhcpOptionServerIdentifier (msg : DhcpMessage) : Option UInt32 :=
  dhcpOptionLong msg dhcpOptServerIdentifierTag

/-! ## The messages of the client -/

/-- The options of a DISCOVER. -/
def discoverOptions : List Byte :=
  dhcpOptMagic ++ [dhcpOptDhcpMsgTypeTag, 1, dhcpMsgTypeDiscover] ++ [dhcpOptEnd]

/-- The options of a REQUEST, with the server identifier and the requested address. -/
def requestOptions (sid yip : UInt32) : List Byte :=
  dhcpOptMagic ++ [dhcpOptDhcpMsgTypeTag, 1, dhcpMsgTypeRequest] ++
    ([dhcpOptServerIdentifierTag, 4] ++ bw32 sid) ++ ([dhcpOptRequestIpAddrTag, 4] ++ bw32 yip) ++
    [dhcpOptEnd]

/-- The message as `dhcp_client_send_discover` fills it in. -/
def discoverMessage (ethaddr : Ether.Mac) (xid : UInt32) (secs : UInt16) : DhcpMessage :=
  { dhcpMessageInit with
    op := bootRequest
    htype := dhcpHtypeEthernet
    hlen := dhcpHlenEthernet
    xid := xid
    secs := secs
    flags := dhcpMessageFlagBroadcast
    chaddr := ethaddr.bytes ++ dhcpMessageInit.chaddr.drop 6
    option := discoverOptions
    optionSize := 8 }

/-- The message as `dhcp_client_send_request` makes it from the one that is there, if that carries
a server identifier. -/
def requestMessage (ethaddr : Ether.Mac) (secs : UInt16) (msg : DhcpMessage) :
    Option DhcpMessage :=
  (dhcpOptionServerIdentifier msg).map fun sid =>
    { msg with
      op := bootRequest
      secs := secs
      flags := dhcpMessageFlagBroadcast
      chaddr := ethaddr.bytes ++ msg.chaddr.drop 6
      option := requestOptions sid msg.yiaddr
      optionSize := 20 }

end Dhcp
end DtsNet
