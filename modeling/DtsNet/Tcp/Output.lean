import DtsNet.Tcp.Tcb

/-!
# Output — what the stack sends

`tcp_ip_send` and the routines above it: bare control segments, the single segment in `tx_seg`,
its release, and its replacement by the next data segment or by the FIN.
-/

namespace DtsNet
namespace Tcp

open Ip Dblk

variable {τ : Type} [TimerLib τ]

/-! ## Handing segments to the IP layer -/

/-- `raw` is what the segment's `raw_data` holds.  Where the header buffer is missing, or the copy
that goes to the IP layer cannot be allocated, the datagram goes out without a segment. -/
def tcpIpSend (env : Env) (c : Conn τ) (raw : Option Segment) : Conn τ × Bool :=
  let dg := raw.map fun seg => { src := c.tcp.localhost.addr, dest := c.tcp.dest, seg := seg }
  let accepted := env.ipHlSend c.log
  ({ c with log := c.log ++ [Action.output dg (env.malloc .copy c.log && accepted)] }, accepted)

/-- A segment of the connection as every sender of the stack fills it in. -/
def newSegment (t : Tcb τ) (seq ack : UInt32) (flags : UInt16) (payload : List Byte) : Segment :=
  { srcPort := t.port.toUInt16
    destPort := t.destPort
    seq := seq
    ack := ack
    dataOffset := 5
    flags := flags
    win := t.rcv.wnd
    urgentPtr := 0
    payload := payload }

def tcpSendCtrlSeg (env : Env) (c : Conn τ) (seq ack : UInt32) (flags : UInt16) :
    Conn τ × Bool :=
  let seg := newSegment c.tcp seq ack flags []
  let r := tcpIpSend env c (tcpPack 32 seg)
  if r.2 then
    ({ r.1 with tcp.snd.nxt := r.1.tcp.snd.nxt + UInt32.ofNat (tcpSegmentLength seg) }, true)
  else
    (r.1, false)

def tcpRetransmit (env : Env) (c : Conn τ) : Conn τ :=
  let c :=
    match c.tcp.txSeg with
    | some seg => (tcpIpSend env c seg.rawData).1
    | none => c
  -- the timer starts again whether or not there was something to send
  { c with tcp.tmr := TimerLib.start c.tcp.tmr env.now 5 }

/-! ## The segment in `tx_seg` -/

/-- `tcp_tx_seg_complete`; `ack` is the acknowledgment that brought it about, for the record. -/
def tcpTxSegComplete (c : Conn τ) (ack : UInt32) : Conn τ :=
  match c.tcp.txSeg with
  | some seg =>
      { tcp := { c.tcp with txSeg := none, tmr := TimerLib.stop c.tcp.tmr }
        log := c.log ++ [Action.completed seg.toSegment ack c.tcp.snd.nxt] }
  | none => c

/-- A segment for `tx_seg`, packed into its header buffer if that could be allocated. -/
def packTxSegment (header : Bool) (seg : Segment) : TxSegment :=
  { seg with rawData := tcpPack (if header then 32 else 0) seg }

def tcpConstructData (env : Env) (c : Conn τ) : Conn τ :=
  match c.tcp.txSeg, c.tcp.txData with
  | none, tx :: rest =>
      -- the block leaves the queue before there is a segment for it
      let c := { c with tcp.txData := rest }
      if env.malloc .dataSegment c.log then
        let seg := packTxSegment (env.malloc .dataHeader c.log)
          (newSegment c.tcp c.tcp.snd.una c.tcp.rcv.nxt (0 ||| segFlagAck) tx.bytes)
        let c := { c with tcp.txSeg := some seg, log := c.log ++ [Action.built seg.toSegment] }
        let c := (tcpIpSend env c seg.rawData).1
        { c with
          tcp.tmr := TimerLib.start c.tcp.tmr env.now 3
          tcp.snd.nxt := c.tcp.snd.nxt + UInt32.ofNat (tcpSegmentLength seg.toSegment) }
      else
        c
  | _, _ => c

/-- `tcp_contruct_fin_ack`: the FIN is sent by the timer. -/
def tcpContructFinAck (env : Env) (c : Conn τ) : Conn τ :=
  match c.tcp.txData, c.tcp.txSeg with
  | [], none =>
      if env.malloc .finSegment c.log then
        let seg := packTxSegment (env.malloc .finHeader c.log)
          (newSegment c.tcp c.tcp.snd.una c.tcp.rcv.nxt (0 ||| (segFlagFin ||| segFlagAck)) [])
        let c := { c with tcp.txSeg := some seg, log := c.log ++ [Action.built seg.toSegment] }
        { c with
          tcp.tmr := TimerLib.start c.tcp.tmr env.now 1
          tcp.snd.nxt := c.tcp.snd.nxt + UInt32.ofNat (tcpSegmentLength seg.toSegment) }
      else
        c
  | _, _ => c

end Tcp
end DtsNet
