import DtsNet.Library.Machine
import DtsNet.Tcp.Input

/-!
# Events — the calls of the user, the timer, and the runs of one connection

`tcp_open`, `tcp_close`, `tcp_recv`, `tcp_send` and the body of `tcp_loop`, each through its table
of handlers, and the machine whose events are everything that can happen to one connection.
-/

namespace DtsNet
namespace Tcp

open Ip Dblk

variable {τ : Type} [TimerLib τ]

/-! ## Open -/

def tcpGenerateIsn (env : Env) : UInt32 :=
  UInt32.ofNat env.now

/-- The control block as `tcp_open` fills it in; `dest = none` is the null pointer. -/
def tcpNew (ip : Netif) (port : UInt32) (dest : Option IpAddr) (destPort : UInt16) : Tcb τ :=
  { passive := dest.isNone
    dest := dest.getD .zero
    destPort := destPort
    localhost := ip
    port := port
    state := .closed
    txData := []
    rxData := []
    txSeg := none
    snd := ⟨0, 0, 0⟩
    rcv := ⟨0, 0, 1500⟩
    tmr := TimerLib.init
    timeWaitSeconds := 0 }

/-- `none` where the code writes through the null pointer of a failed allocation. -/
def openWhenClosed (env : Env) (c : Conn τ) : Option (Conn τ) :=
  let isn := tcpGenerateIsn env
  let c := { c with
    tcp.snd := { una := isn, nxt := isn, iss := isn }
    tcp.timeWaitSeconds := 120 }
  if c.tcp.passive then
    some { c with tcp.state := .listen }
  else if env.malloc .synSegment c.log then
    let seg := packTxSegment (env.malloc .synHeader c.log)
      (newSegment c.tcp c.tcp.snd.una 0 (0 ||| segFlagSyn) [])
    let c := { c with
      tcp.txSeg := some seg
      tcp.snd.nxt := c.tcp.snd.nxt + UInt32.ofNat (tcpSegmentLength seg.toSegment)
      log := c.log ++ [Action.built seg.toSegment] }
    let c := tcpRetransmit env c
    some { c with tcp.state := .synSent }
  else
    none

/-- `open_event_process` has an entry for CLOSED only. -/
def tcpOpenConn (env : Env) (ip : Netif) (port : UInt32) (dest : Option IpAddr)
    (destPort : UInt16) : Option (Conn τ) :=
  openWhenClosed env { tcp := tcpNew ip port dest destPort, log := [] }

/-! ## Timeout -/

def timeoutWhenTimeWait (_ : Env) (c : Conn τ) : Conn τ :=
  { c with tcp.state := .closed }

def timeoutEventProcess : State → Option (Env → Conn τ → Conn τ)
  | .synSent => some tcpRetransmit
  | .finWait1 => some tcpRetransmit
  | .timeWait => some timeoutWhenTimeWait
  | .lastAck => some tcpRetransmit
  | .established => some tcpRetransmit
  | _ => none

def tcpTimeout (env : Env) (c : Conn τ) : Conn τ :=
  match timeoutEventProcess c.tcp.state with
  | some process => process env c
  | none => c

/-- What `tcp_loop` does with one connection before it looks whether it is CLOSED. -/
def tcpLoopVisit (env : Env) (c : Conn τ) : Conn τ :=
  if TimerLib.expired c.tcp.tmr env.now then
    tcpTimeout env { c with tcp.tmr := TimerLib.stop c.tcp.tmr }
  else
    c

/-! ## Close -/

def closeWhenEstablished (env : Env) (c : Conn τ) : Conn τ :=
  { tcpContructFinAck env c with tcp.state := .finWait1 }

def closeWhenCloseWait (env : Env) (c : Conn τ) : Conn τ :=
  { tcpContructFinAck env c with tcp.state := .lastAck }

def closeEventProcess : State → Option (Env → Conn τ → Conn τ)
  | .established => some closeWhenEstablished
  | .closeWait => some closeWhenCloseWait
  | _ => none

/-- `tcp_close` of a connection that is in `tcp_list`. -/
def tcpClose (env : Env) (c : Conn τ) : Conn τ :=
  match closeEventProcess c.tcp.state with
  | some process => process env c
  | none => c

/-! ## Receive -/

/-- The loop of `recv_when_established`: the queue, the caller's buffer and `done_size` after it.
Every block is read to the start of the buffer. -/
def recvLoop : List Block → List Byte → ℕ → ℕ → List Block × List Byte × ℕ
  | [], data, _, doneSize => ([], data, doneSize)
  | rx :: queue, data, size, doneSize =>
      if doneSize < size then
        let r := dblkRead rx data (size - doneSize)
        if r.2.2 < size - doneSize then
          recvLoop queue r.2.1 size (doneSize + r.2.2)
        else
          (r.1 :: queue, r.2.1, doneSize + r.2.2)
      else
        (rx :: queue, data, doneSize)

def recvWhenEstablished (c : Conn τ) (data : List Byte) (size : ℕ) :
    Conn τ × List Byte × ℕ :=
  let r := recvLoop c.tcp.rxData data size 0
  ({ c with tcp.rxData := r.1 }, r.2)

def recvEventProcess : State → Option (Conn τ → List Byte → ℕ → Conn τ × List Byte × ℕ)
  | .established => some recvWhenEstablished
  | _ => none

/-- The connection, the caller's buffer and the number of bytes returned. -/
def tcpRecv (c : Conn τ) (data : List Byte) (size : ℕ) : Conn τ × List Byte × ℕ :=
  match recvEventProcess c.tcp.state with
  | some process => process c data size
  | none => (c, data, 0)

/-! ## Send -/

def sendWhenEstablished (env : Env) (c : Conn τ) (data : List Byte) : Conn τ × ℕ :=
  if env.malloc .txBlock c.log then
    let tx := dblkCopyFrom [dblkNodeNewWithBuff data.length] data data.length
    let c := { c with
      tcp.txData := c.tcp.txData ++ [tx]
      log := c.log ++ [Action.accepted data] }
    (tcpConstructData env c, data.length)
  -- what waits is sent all the same
  else
    (tcpConstructData env c, 0)

def sendEventProcess : State → Option (Env → Conn τ → List Byte → Conn τ × ℕ)
  | .established => some sendWhenEstablished
  | _ => none

/-- `data` is the caller's buffer, all of it; the number is what `tcp_send` returns. -/
def tcpSend (env : Env) (c : Conn τ) (data : List Byte) : Conn τ × ℕ :=
  match sendEventProcess c.tcp.state with
  | some process => process env c data
  | none => (c, 0)

/-! ## The runs of one connection -/

inductive Event
  /-- `tcp_ip_recv` delivers a segment to the connection. -/
  | received (env : Env) (seg : Received)
  /-- `tcp_send(tcp, data, |data|)`. -/
  | send (env : Env) (data : List Byte)
  /-- `tcp_recv(tcp, data, size)`. -/
  | recv (data : List Byte) (size : ℕ)
  /-- `tcp_close(tcp)`. -/
  | close (env : Env)
  /-- `tcp_loop` visits the connection. -/
  | loop (env : Env)

/-- A call of `tcp_recv`, recorded with the first `returned` bytes of the caller's buffer. -/
def recvEvent (c : Conn τ) (data : List Byte) (size : ℕ) : Conn τ :=
  let r := tcpRecv c data size
  { r.1 with log := r.1.log ++ [Action.returned (memRead r.2.1 r.2.2)] }

def step (c : Conn τ) : Event → Conn τ
  | .received env seg => tcpReceived env c seg
  | .send env data => (tcpSend env c data).1
  | .recv data size => recvEvent c data size
  | .close env => tcpClose env c
  | .loop env => tcpLoopVisit env c

abbrev runConn (c : Conn τ) (es : List Event) : Conn τ :=
  Machine.run step c es

/-- `c` is what some `tcp_open` made. -/
def Opened (c : Conn τ) : Prop :=
  ∃ env ip port dest destPort, tcpOpenConn env ip port dest destPort = some c

/-- `c` is what some `tcp_open` made whose allocations succeeded. -/
def OpenedOk (c : Conn τ) : Prop :=
  ∃ env ip port dest destPort, env.AllocOk ∧ tcpOpenConn env ip port dest destPort = some c

/-- Reachable by any events, whatever allocations and IP sends do. -/
def Reachable (c : Conn τ) : Prop :=
  ∃ c₀ es, Opened c₀ ∧ c = runConn c₀ es

/-- The events of a run in which every allocation succeeds. -/
def Event.AllocOk : Event → Prop
  | .received env _ => env.AllocOk
  | .send env _ => env.AllocOk
  | .recv _ _ => True
  | .close env => env.AllocOk
  | .loop env => env.AllocOk

/-- `tcp_send` is called with buffers of 1 to `n` bytes. -/
def Event.SendSize (n : ℕ) : Event → Prop
  | .send _ data => 0 < data.length ∧ data.length ≤ n
  | _ => True

/-! ## A sample host and its peer -/

def sampleIp : Netif :=
  { handle := 1, addr := ⟨4, ⟨192, 168, 1, 1⟩, ⟨255, 255, 255, 0⟩⟩ }

def samplePeer : IpAddr :=
  ⟨4, ⟨192, 168, 1, 2⟩, ⟨255, 255, 255, 0⟩⟩

/-- A segment of the peer, from its port 80 to port 5000. -/
def peerSegment (seq ack : UInt32) (flags : UInt16) (payload : List Byte) : Received :=
  { srcPort := 80
    destPort := 5000
    seq := seq
    ack := ack
    dataOffset := 5
    flags := flags
    win := 1500
    urgentPtr := 0
    payload := payload
    src := samplePeer
    beyond := [] }

/-- What `tcp_open` makes when the clock shows `now`. -/
def sampleConn (now : ℕ) (dest : Option IpAddr) : Conn Deadline :=
  (tcpOpenConn (.working now) sampleIp 5000 dest 80).get (by cases dest <;> rfl)

theorem openedOk_sampleConn (now : ℕ) (dest : Option IpAddr) : OpenedOk (sampleConn now dest) :=
  ⟨.working now, sampleIp, 5000, dest, 80, Env.allocOk_working now, (Option.some_get _).symm⟩

theorem opened_sampleConn (now : ℕ) (dest : Option IpAddr) : Opened (sampleConn now dest) :=
  ⟨.working now, sampleIp, 5000, dest, 80, (Option.some_get _).symm⟩

end Tcp
end DtsNet
