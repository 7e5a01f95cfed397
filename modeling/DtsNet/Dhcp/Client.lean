import DtsNet.Dhcp.Message
import DtsNet.Tcp.Tcb

/-!
# Client — the states of the DHCP client

The functions of the DHCP module on `only`, with the record of what the client did.  Nothing reads
the record but the environment, whose answers may depend on it, and the properties about runs.
-/

namespace DtsNet
namespace Dhcp

open Dblk Ip
open Ether (Mac)
open Tcp (TimerLib)

inductive ClientState
  | initReboot
  | rebooting
  | init
  | selecting
  | requesting
  | bound
  | renewing
  | rebinding
  deriving DecidableEq, Repr

/-- A `dts_net_dhcp_t`, without the sockets and the function `set_ip`. -/
structure DhcpT (τ : Type) where
  state : ClientState
  udpSetup : Bool
  msg : DhcpMessage
  ethaddr : Mac
  t1 : τ
  t2 : τ
  startTime : ℕ
  lease : UInt32
  deriving DecidableEq, Repr

inductive Action
  /-- A DISCOVER was made, with this transaction number. -/
  | discover (xid : UInt32)
  /-- These bytes were passed to `sendto`. -/
  | sendto (data : List Byte)
  /-- `set_ip` was called. -/
  | setIp (ip : V4)
  /-- An ACK was accepted, with this lease time if it carries one. -/
  | acked (now : ℕ) (lease : Option UInt32)
  deriving DecidableEq, Repr

structure Client (τ : Type) where
  only : DhcpT τ
  log : List Action
  deriving DecidableEq, Repr

/-- What the outcome of a call depends on besides: the byte order, the clock, what `rand`,
`malloc` and `sendto` return after what has happened so far, and the buffer in which `recvfrom`
has put the received bytes, with their number (`none` if there is no memory for it). -/
structure Env where
  host : Host
  now : ℕ
  rand : List Action → UInt32
  malloc : List Action → Bool
  sendto : List Action → ℕ
  recvfrom : Option (List Byte × ℕ)

variable {τ : Type} [TimerLib τ]

/-! ## Setup -/

/-- `dhcp_client_setup`; `bound` says whether the socket can be bound. -/
def dhcpClientSetup (bound : Bool) (env : Env) (eth : Mac) (c : Client τ) : Client τ × Bool :=
  if bound then
    ({ c with
        only.ethaddr := eth
        only.t1 := TimerLib.init
        only.t2 := TimerLib.init
        only.startTime := env.now
        only.udpSetup := true
        only.state := .init }, true)
  else
    (c, false)

/-! ## Actions -/

/-- The message in `only.msg` is packed into a buffer of this size and sent. -/
def sendMessage (env : Env) (size : ℕ) (c : Client τ) : Client τ × Bool :=
  if env.malloc c.log then
    let raw := dhcpMessagePack c.only.msg (List.replicate size 0) size
    let c := { c with log := c.log ++ [Action.sendto (memRead raw.1 raw.2.1)] }
    (c, decide (0 < env.sendto c.log))
  else
    (c, false)

def secs (env : Env) (c : Client τ) : UInt16 :=
  UInt16.ofNat (env.now - c.only.startTime)

def dhcpClientSendDiscover (env : Env) (c : Client τ) : Client τ × Bool :=
  let xid := env.rand c.log
  sendMessage env 576
    { c with
      only.msg := discoverMessage c.only.ethaddr xid (secs env c)
      log := c.log ++ [Action.discover xid] }

def dhcpClientSendRequest (env : Env) (c : Client τ) : Client τ × Bool :=
  match requestMessage c.only.ethaddr (secs env c) c.only.msg with
  | none => (c, false)
  | some msg => sendMessage env 1024 { c with only.msg := msg }

/-! ## Events -/

def dhcpClientStart (env : Env) (c : Client τ) : Client τ :=
  if c.only.udpSetup then
    match c.only.state with
    | .init =>
        let c := (dhcpClientSendDiscover env c).1
        { c with
          only.t1 := TimerLib.start c.only.t1 env.now 3
          only.state := .selecting }
    | _ => c
  else
    c

def dhcpClientTimeout (env : Env) (c : Client τ) : Client τ :=
  if c.only.udpSetup then
    match c.only.state with
    -- the state stays INIT, in which an answer is not read
    | .init =>
        let c := (dhcpClientSendDiscover env c).1
        { c with only.t1 := TimerLib.start c.only.t1 env.now 5 }
    | .requesting =>
        let c := (dhcpClientSendRequest env c).1
        { c with only.t1 := TimerLib.start c.only.t1 env.now 5 }
    | .bound =>
        -- T1 expired
        { c with
          only.t1 := TimerLib.start c.only.t1 env.now 1
          only.state := .renewing }
    | .renewing =>
        if TimerLib.expired c.only.t2 env.now = false then
          -- retransmit
          let c := (dhcpClientSendRequest env c).1
          { c with only.t1 := TimerLib.start c.only.t1 env.now 5 }
        else
          -- T2 expired
          { c with
            only.t1 := TimerLib.start c.only.t1 env.now 1
            only.t2 := TimerLib.start c.only.t2 env.now (c.only.lease.toNat / 8)
            only.state := .rebinding }
    | .rebinding =>
        if TimerLib.expired c.only.t2 env.now = false then
          -- retransmit
          let c := (dhcpClientSendRequest env c).1
          { c with only.t1 := TimerLib.start c.only.t1 env.now 5 }
        else
          -- lease expired
          { c with
            only.t1 := TimerLib.stop c.only.t1
            only.t2 := TimerLib.stop c.only.t2
            only.state := .init }
    -- SELECTING has no case, so a lost OFFER is not made up for
    | _ => c
  else
    c

/-- A received OFFER. -/
def receivedWhenSelecting (env : Env) (msg : DhcpMessage) (c : Client τ) : Client τ :=
  let c := { c with only.msg := msg }
  -- neither `xid` nor `chaddr` is compared, here or for an ACK
  if msg.op ≠ bootReply ∨ dhcpOptionMessageType msg ≠ some dhcpMsgTypeOffer then
    { c with only.t1 := TimerLib.start c.only.t1 env.now 5 }
  else
    let c := { c with log := c.log ++ [Action.setIp (V4.ofMem (bw32 msg.yiaddr))] }
    let c := (dhcpClientSendRequest env c).1
    { c with
      only.t1 := TimerLib.start c.only.t1 env.now 5
      only.state := .requesting }

/-- A received ACK.  Half of the lease time and seven eighths of it are rounded down. -/
def receivedWhenRequesting (env : Env) (msg : DhcpMessage) (c : Client τ) : Client τ :=
  let c := { c with only.msg := msg }
  if msg.op ≠ bootReply ∨ dhcpOptionMessageType msg ≠ some dhcpMsgTypeAck then
    { c with only.t1 := TimerLib.start c.only.t1 env.now 5 }
  else
    let c := { c with log := c.log ++ [Action.acked env.now (dhcpOptionIpLeaseTime msg)] }
    -- without a lease time, the lease and both timers stay as they are
    let c :=
      match dhcpOptionIpLeaseTime msg with
      | none => c
      | some lease =>
          { c with
            only.lease := lease
            only.t1 := TimerLib.start c.only.t1 env.now (lease.toNat / 2)
            only.t2 := TimerLib.start c.only.t2 env.now (7 * lease.toNat / 8) }
    { c with only.state := .bound }

/-- The handler of the state; the other states have none. -/
def receivedEventProcess : ClientState → Option (Env → DhcpMessage → Client τ → Client τ)
  | .selecting => some receivedWhenSelecting
  | .requesting => some receivedWhenRequesting
  | .renewing => some receivedWhenRequesting
  | .rebinding => some receivedWhenRequesting
  | _ => none

def dhcpClientReceived (env : Env) (rawData : List Byte) (rawDataSize : ℕ) (c : Client τ) :
    Client τ :=
  match receivedEventProcess c.only.state with
  | none => c
  | some process =>
      match dhcpMessageUnpack env.host rawData rawDataSize with
      | none => c
      | some msg => process env msg c

/-! ## The loop -/

def Client.stopT1 (c : Client τ) : Client τ :=
  { c with only.t1 := TimerLib.stop c.only.t1 }

def Client.stopT2 (c : Client τ) : Client τ :=
  { c with only.t2 := TimerLib.stop c.only.t2 }

/-- `if (timer_expired(&only.T1))`. -/
def loopT1 (env : Env) (c : Client τ) : Client τ :=
  if TimerLib.expired c.only.t1 env.now then dhcpClientTimeout env c.stopT1 else c

/-- `if (timer_expired(&only.T2))`. -/
def loopT2 (env : Env) (c : Client τ) : Client τ :=
  if TimerLib.expired c.only.t2 env.now then dhcpClientTimeout env c.stopT2 else c

/-- What `dhcp_loop` does after the timers. -/
def loopReceive (env : Env) (c : Client τ) : Client τ :=
  if c.only.udpSetup then
    match env.recvfrom with
    | none => c
    | some (rawData, rawDataSize) =>
        if 0 < rawDataSize then dhcpClientReceived env rawData rawDataSize c else c
  else
    c

def dhcpLoop (env : Env) (c : Client τ) : Client τ :=
  loopReceive env (loopT2 env (loopT1 env c))

def dhcpClientCompleted (c : Client τ) : Bool :=
  c.only.state == .bound || c.only.state == .renewing || c.only.state == .rebinding

end Dhcp
end DtsNet
