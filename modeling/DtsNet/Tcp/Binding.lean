import DtsNet.Tcp.Handlers

/-!
# Binding — what a connection keeps for life

How a connection was opened, its interface and port, and its initial sequence number are set by
`tcp_open` and never written again.
-/

namespace DtsNet
namespace Tcp

open Ip Dblk

variable {τ : Type}

structure Binding where
  passive : Bool
  localhost : Netif
  port : UInt32
  iss : UInt32

def Tcb.binding (t : Tcb τ) : Binding :=
  { passive := t.passive
    localhost := t.localhost
    port := t.port
    iss := t.snd.iss }

@[simp] theorem binding_mk (passive : Bool) (dest : IpAddr) (destPort : UInt16) (localhost : Netif)
    (port : UInt32) (state : State) (txData rxData : List Block) (txSeg : Option TxSegment)
    (snd : Snd) (rcv : Rcv) (tmr : τ) (timeWaitSeconds : ℕ) :
    (Tcb.mk passive dest destPort localhost port state txData rxData txSeg snd rcv tmr
      timeWaitSeconds).binding = ⟨passive, localhost, port, snd.iss⟩ := rfl

@[simp] theorem mk_eq_binding (t : Tcb τ) :
    Binding.mk t.passive t.localhost t.port t.snd.iss = t.binding := rfl

/-! ## The routines -/

variable (env : Env) (c : Conn τ)

@[simp] theorem binding_tcpSendCtrlSeg (seq ack : UInt32) (flags : UInt16) :
    (tcpSendCtrlSeg env c seq ack flags).1.tcp.binding = c.tcp.binding := by
  cases h : env.ipHlSend c.log <;>
    simp [tcpSendCtrlSeg, tcpIpSend, h]

@[simp] theorem binding_tcpHandleData (dat : Received) :
    (tcpHandleData env c dat).1.tcp.binding = c.tcp.binding := by
  rcases tcpHandleData_cases env c dat with ⟨h, _⟩ | ⟨_, _, htcp, _⟩
  · rw [h]
  · simp [htcp, takeText]

@[simp] theorem binding_tcpHandleFinAck (seg : Received) :
    (tcpHandleFinAck env c seg).1.tcp.binding = c.tcp.binding := by
  cases h : sncmp c.tcp.snd.una .ls seg.ack .le c.tcp.snd.nxt with
  | false =>
      simp [tcpHandleFinAck_of_not env c h]
  | true =>
      simp [(tcpHandleFinAck_of env c h).1, takeFin]

@[simp] theorem binding_recvEvent (data : List Byte) (size : ℕ) :
    (recvEvent c data size).tcp.binding = c.tcp.binding := by
  cases h : c.tcp.state <;>
    simp [recvEvent, tcpRecv, recvEventProcess, recvWhenEstablished, h]

@[simp] theorem binding_synReply (seg : Received) :
    (synReply env c seg).tcp.binding = c.tcp.binding := by
  cases h : env.ipHlSend c.log <;>
    simp [synReply_tcp, takeSyn, h]

@[simp] theorem binding_ackSynReceived (seg : Received) :
    (ackSynReceived env c seg).tcp.binding = c.tcp.binding := by
  cases h : sncmp c.tcp.snd.una .le seg.ack .le c.tcp.snd.nxt <;>
    simp [ackSynReceived, h]

variable [TimerLib τ]

@[simp] theorem binding_tcpRetransmit : (tcpRetransmit env c).tcp.binding = c.tcp.binding := by
  simp [tcpRetransmit_tcp]

@[simp] theorem binding_tcpTxSegComplete (ack : UInt32) :
    (tcpTxSegComplete c ack).tcp.binding = c.tcp.binding := by
  cases h : c.tcp.txSeg <;> simp [tcpTxSegComplete, h]

@[simp] theorem binding_tcpConstructData : (tcpConstructData env c).tcp.binding = c.tcp.binding := by
  rcases tcpConstructData_tcp env c with ⟨_, _, _, _, h⟩
  simp [h]

@[simp] theorem binding_tcpContructFinAck :
    (tcpContructFinAck env c).tcp.binding = c.tcp.binding := by
  rcases tcpContructFinAck_tcp env c with ⟨_, _, _, h⟩
  simp [h]

@[simp] theorem binding_tcpHandleAckOfData (ack : Received) :
    (tcpHandleAckOfData env c ack).1.tcp.binding = c.tcp.binding := by
  cases hs : c.tcp.txSeg with
  | none =>
      simp [tcpHandleAckOfData_of_not env c (Or.inl hs)]
  | some s =>
      cases hack : ackCompletes c.tcp ack.ack with
      | false =>
          simp [tcpHandleAckOfData_of_not env c (Or.inr hack)]
      | true =>
          simp [tcpHandleAckOfData_of env c hs hack, ackedConn]

@[simp] theorem binding_ackEstablished (seg : Received) :
    (ackEstablished env c seg).tcp.binding = c.tcp.binding := by
  cases h : txSegCtrlF env c <;>
    simp [ackEstablished, h]

@[simp] theorem binding_tcpHandleAckOfFinAck (ack : Received) :
    (tcpHandleAckOfFinAck c ack).1.tcp.binding = c.tcp.binding := by
  cases hs : c.tcp.txSeg with
  | none =>
      simp [tcpHandleAckOfFinAck, hs]
  | some s =>
      by_cases hseq : s.seq + 1 = ack.ack <;>
        simp [tcpHandleAckOfFinAck, hs, hseq]

@[simp] theorem binding_ackWhenClosing (seg : Received) (next : State) :
    (ackWhenClosing env c seg next).tcp.binding = c.tcp.binding := by
  cases hA : segCtrlA seg.toSegment with
  | false =>
      simp [ackWhenClosing, hA]
  | true =>
      cases hF : txSegCtrlF env c with
      | false =>
          simp [ackWhenClosing, hA, hF]
      | true =>
          cases hok : (tcpHandleAckOfFinAck c seg).2 <;>
            simp [ackWhenClosing, hA, hF, hok]

/-! ## The handlers -/

omit [TimerLib τ] in
theorem binding_receivedWhenListen (seg : Received) :
    (receivedWhenListen env c seg).tcp.binding = c.tcp.binding := by
  rcases receivedWhenListen_tcp env c seg with h | ⟨_, _, h | h⟩ <;> simp [h, takeSyn]

theorem binding_receivedWhenSynSent (seg : Received) :
    (receivedWhenSynSent env c seg).tcp.binding = c.tcp.binding := by
  rcases receivedWhenSynSent_cases env c seg with h | ⟨_, _, _, h⟩ | ⟨_, _, h⟩
  · rw [h]
  · simp [h]
  · rcases h with ⟨_, h⟩ | ⟨_, _, _, h⟩
    · simp [h]
    · rw [h]
      rcases synAckReply_cases env c seg with ⟨_, h, _⟩ | ⟨_, _, h⟩ <;> simp [h, takeSynAck]

omit [TimerLib τ] in
theorem binding_receivedWhenSynReceived (seg : Received) :
    (receivedWhenSynReceived env c seg).tcp.binding = c.tcp.binding := by
  cases hacc : seqAccepted c.tcp seg.toSegment with
  | false =>
      simp [receivedWhenSynReceived_of_rejected env c hacc]
  | true =>
      cases hR : segCtrlR seg.toSegment with
      | true =>
          simp [receivedWhenSynReceived_of_rst env c hacc hR]
      | false =>
          cases hA : segCtrlA seg.toSegment with
          | false =>
              simp [receivedWhenSynReceived_of_no_ack env c hacc hR hA]
          | true =>
              rw [receivedWhenSynReceived_of_ack env c hacc hR hA]
              cases segCtrlF seg.toSegment <;> simp

theorem binding_receivedWhenEstablished (seg : Received) :
    (receivedWhenEstablished env c seg).tcp.binding = c.tcp.binding := by
  cases hacc : seqAccepted c.tcp seg.toSegment with
  | false =>
      simp [receivedWhenEstablished_of_rejected env c hacc]
  | true =>
      by_cases hRA : segCtrlR seg.toSegment = true ∨ segCtrlA seg.toSegment = false
      · rw [receivedWhenEstablished_of_ignored env c hacc hRA]
      · rw [not_or, Bool.not_eq_true, Bool.not_eq_false] at hRA
        rw [receivedWhenEstablished_of_ack env c hacc hRA.1 hRA.2]
        cases segCtrlF seg.toSegment <;> simp [textEstablished]

theorem binding_retry (s : State) :
    (if c.tcp.state = s then tcpContructFinAck env c else c).tcp.binding = c.tcp.binding := by
  split <;> simp

theorem binding_tcpReceived (seg : Received) :
    (tcpReceived env c seg).tcp.binding = c.tcp.binding := by
  cases hst : c.tcp.state with
  | listen =>
      simpa [tcpReceived, hst, receivedEventProcess] using binding_receivedWhenListen env c seg
  | synSent =>
      simpa [tcpReceived, hst, receivedEventProcess] using binding_receivedWhenSynSent env c seg
  | synReceived =>
      simpa [tcpReceived, hst, receivedEventProcess] using binding_receivedWhenSynReceived env c seg
  | established =>
      simpa [tcpReceived, hst, receivedEventProcess] using binding_receivedWhenEstablished env c seg
  | finWait1 =>
      simp [tcpReceived, hst, receivedEventProcess, receivedWhenFinWait1, binding_retry]
  | lastAck =>
      simp [tcpReceived, hst, receivedEventProcess, receivedWhenLastAck, binding_retry]
  | finWait2 =>
      cases hAF : segCtrlAF seg.toSegment <;>
        simp [tcpReceived, hst, receivedEventProcess, receivedWhenFinWait2, hAF]
  | timeWait =>
      cases hAF : segCtrlAF seg.toSegment <;>
        simp [tcpReceived, hst, receivedEventProcess, receivedWhenTimeWait, hAF]
  | closeWait =>
      cases hAF : segCtrlAF seg.toSegment <;>
        simp [tcpReceived, hst, receivedEventProcess, receivedWhenCloseWait, hAF]
  | closing =>
      simp [tcpReceived, hst, receivedEventProcess]
  | closed =>
      simp [tcpReceived, hst, receivedEventProcess]

/-! ## Runs -/

theorem binding_tcpLoopVisit : (tcpLoopVisit env c).tcp.binding = c.tcp.binding := by
  rcases tcpLoopVisit_cases env c with h | ⟨_, h⟩ | ⟨_, h⟩ | ⟨_, _, h⟩ <;> simp [h, stopTimer]

/-- No event changes the binding. -/
theorem binding_step (e : Event) : (step c e).tcp.binding = c.tcp.binding := by
  cases e with
  | received env seg =>
      exact binding_tcpReceived env c seg
  | send env data =>
      by_cases hst : c.tcp.state = .established
      · rw [step, tcpSend_of_established env c hst, binding_tcpConstructData]
        split <;> simp [acceptData]
      · rw [step, tcpSend_of_not env c hst]
  | recv data size =>
      exact binding_recvEvent c data size
  | close env =>
      rcases tcpClose_cases env c with ⟨_, h⟩ | h <;> simp [step, h]
  | loop env =>
      exact binding_tcpLoopVisit env c

theorem binding_run (es : List Event) : (runConn c es).tcp.binding = c.tcp.binding :=
  Machine.run_preserves step (I := fun c' => c'.tcp.binding = c.tcp.binding)
    (fun s e h => (binding_step s e).trans h) rfl es

/-- What `tcp_open` sets for good, and the state it leaves the connection in. -/
theorem binding_tcpOpenConn {ip : Netif} {port : UInt32} {dest : Option IpAddr}
    {destPort : UInt16} (h : tcpOpenConn env ip port dest destPort = some c) :
    c.tcp.binding = ⟨dest.isNone, ip, port, tcpGenerateIsn env⟩ ∧
      c.tcp.state = if dest.isNone then .listen else .synSent := by
  cases dest with
  | none =>
      rw [tcpOpenConn_passive] at h
      cases h
      exact ⟨rfl, rfl⟩
  | some dest =>
      have hc := tcpOpenConn_some env h
      subst hc
      refine ⟨?_, ?_⟩
      · simp [synPacked, tcpNew]
      · simp

end Tcp
end DtsNet
