import DtsNet.Tcp.Output

/-!
# Input — what the stack does with an arriving segment

The routines shared by the handlers, the sequence check, one handler for each state, and the
table that selects the handler.
-/

namespace DtsNet
namespace Tcp

open Ip Dblk

variable {τ : Type} [TimerLib τ]

/-! ## Acknowledgments, text and FIN -/

def tcpHandleAckOfData (env : Env) (c : Conn τ) (ack : Received) : Conn τ × Bool :=
  match c.tcp.txSeg with
  | some _ =>
      if sncmp c.tcp.snd.una .ls ack.ack .le c.tcp.snd.nxt then
        -- only an acknowledgment of everything that was sent is taken
        if ack.ack = c.tcp.snd.nxt then
          let c := { c with tcp.snd.una := ack.ack }
          let c := tcpTxSegComplete c ack.ack
          (tcpConstructData env c, true)
        else
          (c, false)
      else
        (c, false)
  | none => (c, false)

def tcpHandleData (env : Env) (c : Conn τ) (dat : Received) : Conn τ × Bool :=
  if dat.seq = c.tcp.rcv.nxt then
    let segLen := tcpSegmentLength dat.toSegment
    if 0 < segLen then
      let segLen := if c.tcp.rcv.wnd.toNat < segLen then c.tcp.rcv.wnd.toNat else segLen
      if env.malloc .rxBlock c.log then
        -- `seg_len` counts SYN and FIN, so the copy may run past the payload
        let rx := dblkCopyFrom [dblkNodeNewWithBuff segLen] (dat.payload ++ dat.beyond) segLen
        let c := { c with
          tcp.rxData := c.tcp.rxData ++ [rx]
          tcp.rcv.nxt := c.tcp.rcv.nxt + UInt32.ofNat segLen
          log := c.log ++ [Action.queued (Block.bytes rx)] }
        -- a pending segment takes the new number along, instead of an answer
        match c.tcp.txSeg with
        | some seg => ({ c with tcp.txSeg := some { seg with ack := c.tcp.rcv.nxt } }, true)
        | none => ((tcpSendCtrlSeg env c c.tcp.snd.una c.tcp.rcv.nxt segFlagAck).1, true)
      else
        (c, false)
    else
      (c, false)
  else
    (c, false)

def tcpHandleAckOfFinAck (c : Conn τ) (ack : Received) : Conn τ × Bool :=
  match c.tcp.txSeg with
  | some seg =>
      if seg.seq + 1 = ack.ack then
        (tcpTxSegComplete c ack.ack, true)
      else
        (c, false)
  | none => (c, false)

def tcpHandleFinAck (env : Env) (c : Conn τ) (seg : Received) : Conn τ × Bool :=
  if sncmp c.tcp.snd.una .ls seg.ack .le c.tcp.snd.nxt then
    -- the number of the FIN is not compared with `rcv.nxt`
    let c := { c with tcp.snd.una := seg.ack, tcp.rcv.nxt := seg.seq + 1 }
    tcpSendCtrlSeg env c c.tcp.snd.una c.tcp.rcv.nxt segFlagAck
  else
    (c, false)

/-- `SEG_CTRL_F(tcp->tx_seg)`. -/
def txSegCtrlF (env : Env) (c : Conn τ) : Bool :=
  match c.tcp.txSeg with
  | some seg => segCtrlF seg.toSegment
  | none => env.nullFlags &&& segFlagFin != 0

/-! ## The sequence check -/

def segUnacceptable (env : Env) (c : Conn τ) (seg : Received) : Conn τ × Bool :=
  if segCtrlR seg.toSegment then
    (c, false)
  else
    ((tcpSendCtrlSeg env c c.tcp.snd.nxt c.tcp.rcv.nxt segFlagAck).1, false)

def processReceivedSeq (env : Env) (c : Conn τ) (seg : Received) : Conn τ × Bool :=
  let segLen := tcpSegmentLength seg.toSegment
  let wndEnd := c.tcp.rcv.nxt + c.tcp.rcv.wnd.toUInt32
  -- a closed window drops a segment without text, and sends no answer
  if c.tcp.rcv.wnd = 0 then
    if segLen = 0 then (c, false) else segUnacceptable env c seg
  else if segLen = 0 then
    if sncmp c.tcp.rcv.nxt .le seg.seq .ls wndEnd then (c, true) else segUnacceptable env c seg
  else if sncmp c.tcp.rcv.nxt .le seg.seq .ls wndEnd then
    (c, true)
  else if sncmp c.tcp.rcv.nxt .le (seg.seq + UInt32.ofNat segLen - 1) .ls wndEnd then
    (c, true)
  else
    segUnacceptable env c seg

/-! ## One handler for each state -/

def receivedWhenListen (env : Env) (c : Conn τ) (seg : Received) : Conn τ :=
  if segCtrlR seg.toSegment then
    c
  else
    -- an acknowledgment is answered with a reset, and a SYN beside it is taken all the same
    let c :=
      if segCtrlA seg.toSegment then (tcpSendCtrlSeg env c seg.ack 0 segFlagRst).1 else c
    if segCtrlS seg.toSegment then
      let c := { c with
        tcp.rcv.nxt := seg.seq + 1
        tcp.rcv.irs := seg.seq
        tcp.destPort := seg.srcPort
        tcp.dest := seg.src }
      let r := tcpSendCtrlSeg env c c.tcp.snd.iss c.tcp.rcv.nxt (segFlagSyn ||| segFlagAck)
      if r.2 then { r.1 with tcp.state := .synReceived } else r.1
    else
      c

/-- The part of `received_when_syn_sent` behind the check of `SEG.ACK` against `ISS`. -/
def synSentAcceptable (env : Env) (c : Conn τ) (seg : Received) : Conn τ :=
  if sncmp c.tcp.snd.una .le seg.ack .le c.tcp.snd.nxt then
    if segCtrlR seg.toSegment then
      { c with tcp.state := .closed }
    else if segCtrlS seg.toSegment then
      let c := { c with
        tcp.rcv.nxt := seg.seq + 1
        tcp.rcv.irs := seg.seq
        tcp.snd.una := seg.ack }
      -- as plain numbers, not modulo 2 ^ 32
      if c.tcp.snd.iss < c.tcp.snd.una then
        let r := tcpSendCtrlSeg env c c.tcp.snd.una c.tcp.rcv.nxt segFlagAck
        if r.2 then
          tcpTxSegComplete { r.1 with tcp.state := .established } seg.ack
        else
          r.1
      else
        c
    else
      c
  else
    c

def receivedWhenSynSent (env : Env) (c : Conn τ) (seg : Received) : Conn τ :=
  if segCtrlA seg.toSegment then
    if !sncmp c.tcp.snd.iss .ls seg.ack .le c.tcp.snd.nxt && !segCtrlR seg.toSegment then
      (tcpSendCtrlSeg env c seg.ack seg.seq segFlagRst).1
    else
      synSentAcceptable env c seg
  -- a SYN without ACK is dropped
  else
    c

def receivedWhenSynReceived (env : Env) (c : Conn τ) (seg : Received) : Conn τ :=
  let r := processReceivedSeq env c seg
  if !r.2 then
    r.1
  else
    let c := r.1
    if segCtrlR seg.toSegment then
      if c.tcp.passive then { c with tcp.state := .listen } else { c with tcp.state := .closed }
    else if segCtrlA seg.toSegment then
      let c :=
        if sncmp c.tcp.snd.una .le seg.ack .le c.tcp.snd.nxt then
          { c with tcp.snd.una := seg.ack, tcp.state := .established }
        else
          (tcpSendCtrlSeg env c seg.ack 0 segFlagRst).1
      -- the FIN is looked at whether or not the acknowledgment was acceptable
      if segCtrlF seg.toSegment then { c with tcp.state := .closeWait } else c
    else
      c

def receivedWhenEstablished (env : Env) (c : Conn τ) (seg : Received) : Conn τ :=
  let r := processReceivedSeq env c seg
  if !r.2 then
    r.1
  else
    let c := r.1
    if segCtrlR seg.toSegment then
      c
    else if segCtrlA seg.toSegment then
      let c := if !txSegCtrlF env c then (tcpHandleAckOfData env c seg).1 else c
      -- the text is looked at whatever became of the acknowledgment
      let c := (tcpHandleData env c seg).1
      if segCtrlF seg.toSegment then
        let c := (tcpHandleFinAck env c seg).1
        { c with tcp.state := .closeWait }
      else
        c
    else
      c

/-- The acknowledgment part of `received_when_fin_wait_1` and `received_when_last_ack`, which
differ in the state that follows an acknowledged FIN. -/
def ackWhenClosing (env : Env) (c : Conn τ) (seg : Received) (next : State) : Conn τ :=
  if segCtrlA seg.toSegment then
    if !txSegCtrlF env c then
      (tcpHandleAckOfData env c seg).1
    else
      let r := tcpHandleAckOfFinAck c seg
      if r.2 then { r.1 with tcp.state := next } else r.1
  else
    c

def receivedWhenFinWait1 (env : Env) (c : Conn τ) (seg : Received) : Conn τ :=
  let c := ackWhenClosing env c seg .finWait2
  if c.tcp.state = .finWait1 then tcpContructFinAck env c else c

def receivedWhenFinWait2 (env : Env) (c : Conn τ) (seg : Received) : Conn τ :=
  if segCtrlAF seg.toSegment then
    -- the state changes before the acknowledgment is checked
    let c := { c with
      tcp.state := .timeWait
      tcp.tmr := TimerLib.start c.tcp.tmr env.now c.tcp.timeWaitSeconds }
    (tcpHandleFinAck env c seg).1
  else
    c

def receivedWhenTimeWait (env : Env) (c : Conn τ) (seg : Received) : Conn τ :=
  if segCtrlAF seg.toSegment then (tcpHandleFinAck env c seg).1 else c

def receivedWhenCloseWait (env : Env) (c : Conn τ) (seg : Received) : Conn τ :=
  if segCtrlAF seg.toSegment then (tcpHandleFinAck env c seg).1 else c

def receivedWhenLastAck (env : Env) (c : Conn τ) (seg : Received) : Conn τ :=
  let c := ackWhenClosing env c seg .closed
  if c.tcp.state = .lastAck then tcpContructFinAck env c else c

def receivedEventProcess : State → Option (Env → Conn τ → Received → Conn τ)
  | .listen => some receivedWhenListen
  | .synSent => some receivedWhenSynSent
  | .synReceived => some receivedWhenSynReceived
  | .established => some receivedWhenEstablished
  | .finWait1 => some receivedWhenFinWait1
  | .finWait2 => some receivedWhenFinWait2
  | .timeWait => some receivedWhenTimeWait
  | .closeWait => some receivedWhenCloseWait
  | .lastAck => some receivedWhenLastAck
  | .closing => none
  | .closed => none

def tcpReceived (env : Env) (c : Conn τ) (seg : Received) : Conn τ :=
  match receivedEventProcess c.tcp.state with
  | some process => process env c seg
  | none => c

end Tcp
end DtsNet
