import Mathlib.Logic.Function.Basic
import DtsNet.Library.Keyed
import DtsNet.Tcp.Table
import DtsNet.Udp

/-!
# Api — the socket layer

A descriptor is the address of one of ten static `socket_t` records, which a free list hands out.
A record points to a control block of the TCP module or receives the datagrams of a bound UDP port.
`Host` is the state of the whole: the records, the free list, `tcp_list` with the address of every
control block, and `udp_list`.

A call that goes through a null pointer, or through the address of a control block that was freed,
has no result here.
-/

namespace DtsNet
namespace Socket

open Ip Dblk Tcp Udp

variable {τ : Type} [TimerLib τ]

/-! ## Constants -/

def afInet : ℤ := 2
def sockStream : ℤ := 1
def sockDgram : ℤ := 2
def enomem : ℤ := 12
def einval : ℤ := 22
def msgDontwait : ℕ := 0x40
def dtsNetSocketMaxCount : ℕ := 10

/-! ## Records and the host -/

/-- A `socket_t`; `tcp` is `module.tcp`. -/
structure SocketT where
  domain : ℤ
  type : ℤ
  protocol : ℤ
  tcp : Option ℕ
  ip : Option Netif
  port : UInt32
  rxQueue : List Block
  deriving DecidableEq, Repr

/-- What a static record holds at first. -/
def SocketT.zero : SocketT :=
  ⟨0, 0, 0, none, none, 0, []⟩

/-- The control blocks lie in `tcps` with their addresses, in the order of `tcp_list`; `malloc`
gives out the addresses from `brk` on. -/
structure Host (τ : Type) where
  socketApiInited : Bool
  freeList : List ℕ
  sockets : ℕ → SocketT
  tcps : List (ℕ × Conn τ)
  brk : ℕ
  udps : List (UdpT ℕ)

def Host.init : Host τ :=
  { socketApiInited := false
    freeList := []
    sockets := fun _ => .zero
    tcps := []
    brk := 1
    udps := [] }

/-- `tcp_list` without the addresses. -/
def Host.table (h : Host τ) : Table τ :=
  h.tcps.map Prod.snd

/-- The control block at an address. -/
def Host.tcb (h : Host τ) (p : ℕ) : Option (Conn τ) :=
  h.tcps.lookup p

def Host.setSocket (h : Host τ) (fd : ℕ) (sk : SocketT) : Host τ :=
  { h with sockets := Function.update h.sockets fd sk }

/-- A call on the control block at an address. -/
def Host.onTcb (h : Host τ) (p : ℕ) (f : Conn τ → Conn τ) : Host τ :=
  { h with tcps := Keyed.adjust h.tcps p f }

def isUdpSock (sk : SocketT) : Bool :=
  sk.domain == afInet && sk.type == sockDgram && sk.protocol == 0

def isTcpSock (sk : SocketT) : Bool :=
  sk.domain == afInet && sk.type == sockStream && sk.protocol == 0

/-! ## The pool -/

def memAllocSocket (h : Host τ) : Host τ × Option ℕ :=
  match h.freeList with
  | [] => (h, none)
  | fd :: rest => ({ h with freeList := rest }, some fd)

def memFreeSocket (h : Host τ) (fd : ℕ) : Host τ :=
  { h with freeList := h.freeList ++ [fd] }

/-- `MEM_ITEM_LIST_API_INIT`, once; the records have the addresses from 1 on. -/
def initSocketApi (h : Host τ) : Host τ :=
  if h.socketApiInited then
    h
  else
    { h with
      socketApiInited := true
      freeList := h.freeList ++ (List.range dtsNetSocketMaxCount).map (· + 1) }

def socket (domain type protocol : ℤ) (h : Host τ) : Host τ × ℤ :=
  let h := initSocketApi h
  if domain = afInet ∧ protocol = 0 then
    if type = sockDgram ∨ type = sockStream then
      match memAllocSocket h with
      | (h, some fd) =>
          let sk := h.sockets fd
          (h.setSocket fd { sk with domain := domain, type := type, protocol := protocol }, fd)
      | (h, none) => (h, -enomem)
    else
      (h, -einval)
  else
    (h, -einval)

/-! ## TCP -/

/-- `tcp_open`, with the address it returns. -/
def tcpOpenAt (env : Env) (nifs : List Netif) (loc : IpAddr) (port : UInt32)
    (dest : Option IpAddr) (destPort : UInt16) (h : Host τ) : Option (Host τ × Option ℕ) :=
  match ipFindNetif nifs loc with
  | some ip =>
      if h.tcps.any fun pc => onPort ip port pc.2 && !pc.2.tcp.passive then
        some (h, none)
      else if env.malloc .tcb [] then
        (tcpOpenConn env ip port dest destPort).map fun c =>
          ({ h with tcps := h.tcps ++ [(h.brk, c)], brk := h.brk + 1 }, some h.brk)
      else
        some (h, none)
  | none => some (h, none)

/-- `tcp_status`; the null pointer counts as CLOSED. -/
def tcpStatus (h : Host τ) : Option ℕ → Option State
  | some p => (h.tcb p).map fun c => c.tcp.state
  | none => some .closed

/-! ## The calls -/

/-- A `sockaddr_in`: the bytes of `s_addr` in memory order, and the port as `ntohs` yields it. -/
structure SockaddrIn where
  sAddr : V4
  sinPort : UInt16
  deriving DecidableEq, Repr

/-- The netmask is left unset. -/
def nacv (sin : SockaddrIn) : IpAddr :=
  { version := 4
    addr := ⟨sin.sAddr.a4, sin.sAddr.a3, sin.sAddr.a2, sin.sAddr.a1⟩
    netmask := ⟨0, 0, 0, 0⟩ }

def bind (allocUdp : Bool) (nifs : List Netif) (fd : ℕ) (hostAddr : SockaddrIn) (h : Host τ) :
    Host τ × ℤ :=
  let sk := h.sockets fd
  let port := hostAddr.sinPort.toUInt32
  match ipFindNetif nifs (nacv hostAddr) with
  | some ip =>
      if isUdpSock sk then
        -- the queue is emptied before the port is asked for
        let h := h.setSocket fd { sk with rxQueue := [] }
        match udpBind allocUdp ip port (some fd) h.udps with
        | (udps, some _) => ({ h with udps := udps }, 0)
        | (udps, none) => ({ h with udps := udps }, -einval)
      else if isTcpSock sk then
        (h.setSocket fd { sk with ip := some ip, port := port }, 0)
      else
        (h, -einval)
  | none => (h, -einval)

def listen (env : Env) (nifs : List Netif) (fd : ℕ) (h : Host τ) : Option (Host τ × ℤ) :=
  let sk := h.sockets fd
  if isTcpSock sk then
    sk.ip.bind fun ip =>
      (tcpOpenAt env nifs ip.addr sk.port none 0 h).map fun (h, tcp) =>
        (h.setSocket fd { sk with tcp := tcp }, if tcp.isSome then 0 else -1)
  else
    some (h, -1)

def accept (env : Env) (nifs : List Netif) (fd : ℕ) (h : Host τ) : Option (Host τ × ℤ) :=
  let sk := h.sockets fd
  if isTcpSock sk then
    (tcpStatus h sk.tcp).bind fun status =>
      if status = .established then
        match socket sk.domain sk.type sk.protocol h with
        | (h, c) =>
            if 0 < c then
              sk.ip.bind fun ip =>
                -- the connection moves to `c`, and `fd` gets a new listener
                let h := h.setSocket c.toNat { h.sockets c.toNat with tcp := sk.tcp }
                (tcpOpenAt env nifs ip.addr sk.port none 0 h).map fun (h, tcp) =>
                  (h.setSocket fd { h.sockets fd with tcp := tcp }, c)
            else
              some (h, c)
      else
        some (h, -1)
  else
    some (h, -1)

def close (env : Env) (fd : ℕ) (h : Host τ) : Option (Host τ × ℤ) :=
  let sk := h.sockets fd
  match isTcpSock sk, sk.tcp with
  | true, some p =>
      (h.tcb p).map fun _ =>
        let h := h.onTcb p fun c => tcpClose env { c with tcp.timeWaitSeconds := 1 }
        (memFreeSocket h fd, 0)
  | _, _ => some (memFreeSocket h fd, 0)

/-- `udpSendto` is what `udp_sendto` returns. -/
def sendto (env : Env) (udpSendto : IpAddr → UInt16 → List Byte → Bool) (fd : ℕ)
    (buf : List Byte) (destAddr : Option SockaddrIn) (h : Host τ) : Option (Host τ × ℤ) :=
  let sk := h.sockets fd
  if isUdpSock sk then
    destAddr.map fun sin =>
      if udpSendto (nacv sin) sin.sinPort buf then (h, buf.length) else (h, 0)
  else if isTcpSock sk then
    match sk.tcp with
    | some p =>
        (h.tcb p).map fun c =>
          if c.tcp.state = .established then
            (h.onTcb p fun c => (tcpSend env c buf).1, (tcpSend env c buf).2)
          else
            (h, 0)
    | none => some (h, -einval)
  else
    some (h, -einval)

/-- `tcp_status(..) > DTS_NET_TCP_STATE_ESTABLISHED`. -/
def afterEstablished : State → Bool
  | .listen | .synSent | .synReceived | .established => false
  | _ => true

/-- The host, the caller's buffer and the result. -/
def recvfrom (fd : ℕ) (buf : List Byte) (len : ℕ) (flags : ℕ) (h : Host τ) :
    Option (Host τ × List Byte × ℤ) :=
  let sk := h.sockets fd
  if isUdpSock sk then
    if flags &&& msgDontwait = 0 then
      some (h, buf, -einval)
    else
      let r := recvLoop sk.rxQueue buf len 0
      some (h.setSocket fd { sk with rxQueue := r.1 }, r.2.1, r.2.2)
  else if isTcpSock sk then
    match sk.tcp with
    | some p =>
        (h.tcb p).map fun c =>
          if c.tcp.state = .established then
            (h.onTcb p fun c => recvEvent c buf len, (tcpRecv c buf len).2.1,
              (tcpRecv c buf len).2.2)
          else if afterEstablished c.tcp.state then
            (h, buf, -1)
          else
            (h, buf, 0)
    | none => some (h, buf, -1)
  else
    some (h, buf, 0)

/-- The attempts of `connect`, each with an environment and a random number of its own. -/
def connectLoop (nifs : List Netif) (fd : ℕ) (ip : Netif) (dest : IpAddr) (destPort : UInt16) :
    List (Env × UInt32) → Host τ → Option (Host τ × ℤ)
  | [], h => some (h, -1)
  | (env, rand) :: attempts, h =>
      (tcpOpenAt env nifs ip.addr ((rand &&& 0xFBFF) + 1024) (some dest) destPort h).bind
        fun (h, tcp) =>
          -- a failed attempt leaves the null pointer
          let h := h.setSocket fd { h.sockets fd with tcp := tcp }
          if tcp.isSome then some (h, 0) else connectLoop nifs fd ip dest destPort attempts h

/-- The search for the interface leaves its netmask in the destination address. -/
def connect (attempts : Fin 3 → Env × UInt32) (nifs : List Netif) (fd : ℕ)
    (destAddr : SockaddrIn) (h : Host τ) : Option (Host τ × ℤ) :=
  if isTcpSock (h.sockets fd) then
    match ipFindNetif nifs (nacv destAddr) with
    | some ip =>
        connectLoop nifs fd ip { nacv destAddr with netmask := ip.addr.netmask } destAddr.sinPort
          (List.ofFn attempts) h
    | none => some (h, -1)
  else
    some (h, -1)

/-! ## What arrives -/

/-- The callback of a bound UDP socket. -/
def udpRecv (alloc : Bool) (fd : ℕ) (data : List Byte) (h : Host τ) : Host τ :=
  if alloc then
    let sk := h.sockets fd
    let rx := dblkCopyFrom [dblkNodeNewWithBuff data.length] data data.length
    h.setSocket fd { sk with rxQueue := sk.rxQueue ++ [rx] }
  else
    h

/-- `udp_ip_recv` for a datagram that `udp_unpack` accepts. -/
def udpIpRecv (alloc : Bool) (ip : Netif) (destPort : UInt16) (data : List Byte) (h : Host τ) :
    Host τ :=
  match findUdpByAddr h.udps ip destPort.toUInt32 with
  | some udp =>
      match udp.callback with
      | some fd => udpRecv alloc fd data h
      | none => h
  | none => h

/-- `tcp_ip_recv`; the segment goes to the control block that `bestMatch` finds. -/
def tcpIpRecv (env : Env) (ip : Netif) (dg : Datagram) (beyond : List Byte) (h : Host τ) : Host τ :=
  match bestMatch ip dg h.table with
  | some (_, i) =>
      { h with tcps := h.tcps.modify i fun pc => (pc.1, tcpReceived env pc.2 (dg.received beyond)) }
  | none => h

/-- `tcp_loop`; a CLOSED control block is freed. -/
def tcpLoop (envs : ℕ → Env) (h : Host τ) : Host τ :=
  { h with
    tcps := (h.tcps.mapIdx fun i pc => (pc.1, tcpLoopVisit (envs i) pc.2)).filter
      fun pc => pc.2.tcp.state != .closed }

end Socket
end DtsNet
