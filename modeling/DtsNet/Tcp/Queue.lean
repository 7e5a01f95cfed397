import DtsNet.Tcp.Handlers

/-!
# Queue — what reaches `rx_data`

Only `tcp_handle_data` puts blocks into `rx_data`, and only `tcp_recv` takes bytes out.
`QueueMove bss c c'` says that on the way from `c` to `c'` the blocks of `bss` were queued and
nothing else happened to `rx_data` and the window; every other routine is a `QueueMove []`.
-/

namespace DtsNet
namespace Tcp

open Ip Dblk

variable {τ : Type}

/-! ## Moves -/

/-- Actions that say nothing about `rx_data`. -/
def Action.SendSide : Action → Prop
  | .queued _ => False
  | .returned _ => False
  | _ => True

/-- A block as `tcp_handle_data` queues it. -/
def freshBlock (bs : List Byte) : Block :=
  [{ data := bs, offset := 0 }]

structure QueueMove (bss : List (List Byte)) (c c' : Conn τ) : Prop where
  rxData : c'.tcp.rxData = c.tcp.rxData ++ bss.map freshBlock
  wnd : c'.tcp.rcv.wnd = c.tcp.rcv.wnd
  log : ∃ l, c'.log = c.log ++ l ∧ queuedBytes l = bss.flatten ∧ returnedBytes l = []

theorem queuedBytes_of_sendSide {l : List Action} (h : ∀ a ∈ l, a.SendSide) :
    queuedBytes l = [] := by
  rw [queuedBytes, List.flatMap_eq_nil_iff]
  intro a ha
  have := h a ha
  cases a <;> simp_all [Action.SendSide]

theorem returnedBytes_of_sendSide {l : List Action} (h : ∀ a ∈ l, a.SendSide) :
    returnedBytes l = [] := by
  rw [returnedBytes, List.flatMap_eq_nil_iff]
  intro a ha
  have := h a ha
  cases a <;> simp_all [Action.SendSide]

namespace QueueMove

theorem of_sendSide {c c' : Conn τ} (hrx : c'.tcp.rxData = c.tcp.rxData)
    (hwnd : c'.tcp.rcv.wnd = c.tcp.rcv.wnd) {l : List Action} (hlog : c'.log = c.log ++ l)
    (hl : ∀ a ∈ l, a.SendSide) : QueueMove [] c c' :=
  ⟨by simp [hrx], hwnd, l, hlog, queuedBytes_of_sendSide hl, returnedBytes_of_sendSide hl⟩

/-- A step that records at most one action of the sending side. -/
theorem of_concat {c c' : Conn τ} (hrx : c'.tcp.rxData = c.tcp.rxData)
    (hwnd : c'.tcp.rcv.wnd = c.tcp.rcv.wnd) {a : Action} (hlog : c'.log = c.log ++ [a])
    (ha : a.SendSide) : QueueMove [] c c' :=
  of_sendSide hrx hwnd hlog (by simpa using ha)

theorem of_log {c c' : Conn τ} (hrx : c'.tcp.rxData = c.tcp.rxData)
    (hwnd : c'.tcp.rcv.wnd = c.tcp.rcv.wnd) (hlog : c'.log = c.log) : QueueMove [] c c' := by
  have hlog' : c'.log = c.log ++ [] := by simp [hlog]
  exact of_sendSide hrx hwnd hlog' (by simp)

theorem refl (c : Conn τ) : QueueMove [] c c :=
  of_log rfl rfl rfl

theorem trans {bss₁ bss₂ : List (List Byte)} {c₁ c₂ c₃ : Conn τ} (h₁ : QueueMove bss₁ c₁ c₂)
    (h₂ : QueueMove bss₂ c₂ c₃) : QueueMove (bss₁ ++ bss₂) c₁ c₃ := by
  rcases h₁.log with ⟨l₁, hlog₁, hq₁, hr₁⟩
  rcases h₂.log with ⟨l₂, hlog₂, hq₂, hr₂⟩
  refine ⟨?_, h₂.wnd.trans h₁.wnd, l₁ ++ l₂, ?_, ?_, ?_⟩
  · simp [h₂.rxData, h₁.rxData]
  · simp [hlog₂, hlog₁]
  · simp [hq₁, hq₂]
  · simp [hr₁, hr₂]

theorem bytes {bss : List (List Byte)} {c c' : Conn τ} (h : QueueMove bss c c') :
    queuedBytes c'.log = queuedBytes c.log ++ bss.flatten := by
  rcases h.log with ⟨l, hlog, hq, _⟩
  simp [hlog, hq]

theorem bytes_eq {c c' : Conn τ} (h : QueueMove [] c c') :
    queuedBytes c'.log = queuedBytes c.log := by
  simpa using h.bytes

end QueueMove

/-! ## The routines -/

variable (env : Env) (c : Conn τ)

theorem queueMove_setState (s : State) : QueueMove [] c { c with tcp.state := s } :=
  .of_log rfl rfl rfl

theorem tcpSendCtrlSeg_rxData (seq ack : UInt32) (flags : UInt16) :
    (tcpSendCtrlSeg env c seq ack flags).1.tcp.rxData = c.tcp.rxData := by
  cases h : env.ipHlSend c.log <;>
    simp [tcpSendCtrlSeg, tcpIpSend, h]

theorem tcpSendCtrlSeg_rcv (seq ack : UInt32) (flags : UInt16) :
    (tcpSendCtrlSeg env c seq ack flags).1.tcp.rcv = c.tcp.rcv := by
  cases h : env.ipHlSend c.log <;>
    simp [tcpSendCtrlSeg, tcpIpSend, h]

theorem queueMove_tcpSendCtrlSeg (seq ack : UInt32) (flags : UInt16) :
    QueueMove [] c (tcpSendCtrlSeg env c seq ack flags).1 :=
  .of_concat (tcpSendCtrlSeg_rxData env c seq ack flags)
    (congrArg Rcv.wnd (tcpSendCtrlSeg_rcv env c seq ack flags))
    (tcpSendCtrlSeg_log env c seq ack flags) trivial

theorem queueMove_processReceivedSeq (seg : Received) :
    QueueMove [] c (processReceivedSeq env c seg).1 := by
  cases h : seqAccepted c.tcp seg.toSegment with
  | true =>
      rw [processReceivedSeq_of_accepted env c h]
      exact .refl c
  | false =>
      rcases (processReceivedSeq_of_rejected env c h).2 with h | ⟨_, h⟩
      · rw [h]
        exact .refl c
      · rw [h]
        exact queueMove_tcpSendCtrlSeg env c _ _ _

theorem queueMove_tcpHandleFinAck (seg : Received) :
    QueueMove [] c (tcpHandleFinAck env c seg).1 := by
  cases h : sncmp c.tcp.snd.una .ls seg.ack .le c.tcp.snd.nxt with
  | false =>
      rw [tcpHandleFinAck_of_not env c h]
      exact .refl c
  | true =>
      rcases tcpHandleFinAck_of env c h with ⟨htcp, sent, hlog⟩
      exact .of_concat (by rw [htcp, takeFin]) (by rw [htcp, takeFin]) hlog trivial

/-- The text of a segment that starts at `rcv.nxt` is queued, or nothing is. -/
theorem queueMove_tcpHandleData (dat : Received) :
    QueueMove [] c (tcpHandleData env c dat).1 ∨
      QueueMove [textBytes c.tcp dat] c (tcpHandleData env c dat).1 := by
  rcases tcpHandleData_cases env c dat with ⟨h, _⟩ | ⟨_, _, htcp, l, hlog, hl⟩
  · left
    rw [h]
    exact .refl c
  · right
    have hside : ∀ a ∈ l, a.SendSide := by
      rcases hl with rfl | ⟨sent, rfl⟩ <;> simp [Action.SendSide]
    refine ⟨?_, by rw [htcp, takeText], _, by rw [hlog, List.append_assoc], ?_, ?_⟩
    · rw [htcp]
      simp [takeText, freshBlock]
    · rw [queuedBytes_append, queuedBytes_of_sendSide hside]
      simp [queuedBytes]
    · rw [returnedBytes_append, returnedBytes_of_sendSide hside]
      simp [returnedBytes]

theorem queueMove_receivedWhenListen (seg : Received) :
    QueueMove [] c (receivedWhenListen env c seg) := by
  rcases receivedWhenListen_cases env c seg with ⟨c', hc', h⟩
  have hmove : QueueMove [] c c' := by
    rcases hc' with rfl | ⟨_, rfl⟩
    · exact .refl _
    · exact queueMove_tcpSendCtrlSeg env c _ _ _
  rcases h with h | ⟨_, _, h⟩
  · rw [h]
    exact hmove
  · have hrx : (synReply env c' seg).tcp.rxData = c'.tcp.rxData := by
      rw [synReply_tcp]
      split <;> rfl
    have hwnd : (synReply env c' seg).tcp.rcv.wnd = c'.tcp.rcv.wnd := by
      rw [synReply_tcp]
      split <;> rfl
    rw [h]
    exact hmove.trans (.of_concat hrx hwnd (synReply_log env c' seg) trivial)

theorem queueMove_receivedWhenSynReceived (seg : Received) :
    QueueMove [] c (receivedWhenSynReceived env c seg) := by
  have hack : QueueMove [] c (ackSynReceived env c seg) := by
    cases h : sncmp c.tcp.snd.una .le seg.ack .le c.tcp.snd.nxt with
    | true =>
        rw [ackSynReceived_of env c h]
        exact .of_log rfl rfl rfl
    | false =>
        rw [ackSynReceived_of_not env c h]
        exact queueMove_tcpSendCtrlSeg env c _ _ _
  cases hacc : seqAccepted c.tcp seg.toSegment with
  | false =>
      rw [receivedWhenSynReceived_of_rejected env c hacc]
      exact queueMove_processReceivedSeq env c seg
  | true =>
      cases hR : segCtrlR seg.toSegment with
      | true =>
          rw [receivedWhenSynReceived_of_rst env c hacc hR]
          exact queueMove_setState c _
      | false =>
          cases hA : segCtrlA seg.toSegment with
          | false =>
              rw [receivedWhenSynReceived_of_no_ack env c hacc hR hA]
              exact .refl c
          | true =>
              rw [receivedWhenSynReceived_of_ack env c hacc hR hA]
              cases segCtrlF seg.toSegment with
              | true =>
                  exact hack.trans (queueMove_setState _ .closeWait)
              | false =>
                  exact hack

variable [TimerLib τ]

theorem queueMove_tcpRetransmit : QueueMove [] c (tcpRetransmit env c) := by
  have htcp := tcpRetransmit_tcp env c
  rcases tcpRetransmit_log env c with hlog | ⟨seg, sent, _, hlog⟩
  · exact .of_log (by rw [htcp]) (by rw [htcp]) hlog
  · exact .of_concat (by rw [htcp]) (by rw [htcp]) hlog trivial

variable {c} in
/-- `tcp_open` queues nothing, whatever its allocations do. -/
theorem queueMove_openWhenClosed {c' : Conn τ} (h : openWhenClosed env c = some c') :
    QueueMove [] c c' := by
  simp only [openWhenClosed] at h
  split at h
  · cases h
    exact .of_log rfl rfl rfl
  · split at h
    · cases h
      have hbuilt : ∀ cb : Conn τ, cb.tcp.rxData = c.tcp.rxData →
          cb.tcp.rcv.wnd = c.tcp.rcv.wnd → (∃ seg, cb.log = c.log ++ [.built seg]) →
            QueueMove [] c { tcpRetransmit env cb with tcp.state := .synSent } := by
        rintro cb hrx hwnd ⟨seg, hlog⟩
        have hcb : QueueMove [] c cb := .of_concat hrx hwnd hlog trivial
        exact (hcb.trans (queueMove_tcpRetransmit env cb)).trans (queueMove_setState _ .synSent)
      exact hbuilt _ rfl rfl ⟨_, rfl⟩
    · cases h

theorem queueMove_tcpTxSegComplete (ack : UInt32) :
    QueueMove [] c (tcpTxSegComplete c ack) := by
  cases hs : c.tcp.txSeg with
  | none =>
      simpa [tcpTxSegComplete, hs] using QueueMove.refl c
  | some seg =>
      rw [tcpTxSegComplete_some c hs]
      exact .of_concat rfl rfl rfl trivial

theorem queueMove_tcpConstructData : QueueMove [] c (tcpConstructData env c) := by
  have hlog : ∃ l, (tcpConstructData env c).log = c.log ++ l ∧ ∀ a ∈ l, a.SendSide := by
    cases hs : c.tcp.txSeg with
    | some seg =>
        exact ⟨[], by simp [tcpConstructData, hs], by simp⟩
    | none =>
        cases hd : c.tcp.txData with
        | nil =>
            exact ⟨[], by simp [tcpConstructData, hs, hd], by simp⟩
        | cons tx rest =>
            cases hmem : env.malloc .dataSegment c.log with
            | false =>
                exact ⟨[], by simp [tcpConstructData, hs, hd, hmem], by simp⟩
            | true =>
                simp only [tcpConstructData, hs, hd, hmem, if_true, tcpIpSend_log,
                  List.append_assoc]
                exact ⟨_, rfl, by simp [Action.SendSide]⟩
  rcases hlog with ⟨l, hlog, hl⟩
  exact .of_sendSide (tcpConstructData_rxData env c)
    (congrArg Rcv.wnd (tcpConstructData_rcv env c)) hlog hl

theorem queueMove_tcpContructFinAck : QueueMove [] c (tcpContructFinAck env c) := by
  rcases tcpContructFinAck_cases env c with heq | ⟨hs, hd, hmem⟩
  · rw [heq]
    exact .refl c
  · simp only [tcpContructFinAck, hs, hd, hmem, if_true]
    exact .of_concat rfl rfl rfl trivial

theorem queueMove_ackEstablished (seg : Received) : QueueMove [] c (ackEstablished env c seg) := by
  rcases ackEstablished_cases env c seg with ⟨h, _⟩ | ⟨s, _, _, _, h⟩
  · rw [h]
    exact .refl c
  · have hacked : QueueMove [] c (ackedConn c s) := .of_concat rfl rfl rfl trivial
    rw [h]
    exact hacked.trans (queueMove_tcpConstructData env _)

theorem queueMove_ackWhenClosing (seg : Received) (next : State) :
    QueueMove [] c (ackWhenClosing env c seg next) := by
  rcases ackWhenClosing_cases env c seg next with h | ⟨_, _, _, _, _, h⟩ | ⟨s, _, _, _, _, h⟩
  · rw [h]
    exact .refl c
  · rw [h]
    exact (queueMove_tcpTxSegComplete c seg.ack).trans (queueMove_setState _ next)
  · have hacked : QueueMove [] c (ackedConn c s) := .of_concat rfl rfl rfl trivial
    rw [h]
    exact hacked.trans (queueMove_tcpConstructData env _)

/-! ## The handlers -/

theorem queueMove_synAckReply (seg : Received) : QueueMove [] c (synAckReply env c seg) := by
  rcases synAckReply_cases env c seg with ⟨_, htcp, hlog | ⟨dg, _, hlog⟩⟩ | ⟨_, _, h⟩
  · exact .of_log (by rw [htcp, takeSynAck]) (by rw [htcp, takeSynAck]) hlog
  · exact .of_concat (by rw [htcp, takeSynAck]) (by rw [htcp, takeSynAck]) hlog trivial
  · have hsend := queueMove_tcpSendCtrlSeg env { c with tcp := takeSynAck c.tcp seg } seg.ack
      (seg.seq + 1) segFlagAck
    rcases hsend.log with ⟨l, hlog, hq, hr⟩
    let ce : Conn τ :=
      { tcp := { takeSynAck c.tcp seg with state := .established }
        log := (tcpSendCtrlSeg env { c with tcp := takeSynAck c.tcp seg } seg.ack
          (seg.seq + 1) segFlagAck).1.log }
    have hmove : QueueMove [] c ce := ⟨by simp [ce, takeSynAck], rfl, l, hlog, hq, hr⟩
    rw [h]
    exact hmove.trans (queueMove_tcpTxSegComplete ce seg.ack)

theorem queueMove_receivedWhenSynSent (seg : Received) :
    QueueMove [] c (receivedWhenSynSent env c seg) := by
  rcases receivedWhenSynSent_cases env c seg with
      h | ⟨_, _, _, h⟩ | ⟨_, _, ⟨_, h⟩ | ⟨_, _, _, h⟩⟩
  · rw [h]
    exact .refl c
  · rw [h]
    exact queueMove_tcpSendCtrlSeg env c _ _ _
  · rw [h]
    exact queueMove_setState c .closed
  · rw [h]
    exact queueMove_synAckReply env c seg

/-- ESTABLISHED is the one state in which text is queued. -/
theorem queueMove_receivedWhenEstablished (seg : Received) :
    ∃ bss, QueueMove bss c (receivedWhenEstablished env c seg) := by
  cases hacc : seqAccepted c.tcp seg.toSegment with
  | false =>
      rw [receivedWhenEstablished_of_rejected env c hacc]
      exact ⟨_, queueMove_processReceivedSeq env c seg⟩
  | true =>
      by_cases hRA : segCtrlR seg.toSegment = true ∨ segCtrlA seg.toSegment = false
      · rw [receivedWhenEstablished_of_ignored env c hacc hRA]
        exact ⟨_, .refl c⟩
      · have hR : segCtrlR seg.toSegment = false := by simp_all
        have hA : segCtrlA seg.toSegment = true := by simp_all
        have htext : ∃ bss, QueueMove bss c (textEstablished env c seg) := by
          have hack := queueMove_ackEstablished env c seg
          rcases queueMove_tcpHandleData env (ackEstablished env c seg) seg with h | h
          · exact ⟨_, hack.trans h⟩
          · exact ⟨_, hack.trans h⟩
        rcases htext with ⟨bss, htext⟩
        rw [receivedWhenEstablished_of_ack env c hacc hR hA]
        cases segCtrlF seg.toSegment with
        | true =>
            exact ⟨_, (htext.trans (queueMove_tcpHandleFinAck env _ seg)).trans
              (queueMove_setState _ .closeWait)⟩
        | false =>
            exact ⟨_, htext⟩

theorem queueMove_tcpReceived (seg : Received) : ∃ bss, QueueMove bss c (tcpReceived env c seg) := by
  have hfinAck : QueueMove [] c
      (if segCtrlAF seg.toSegment then (tcpHandleFinAck env c seg).1 else c) := by
    cases segCtrlAF seg.toSegment with
    | true =>
        exact queueMove_tcpHandleFinAck env c seg
    | false =>
        exact .refl c
  cases hst : c.tcp.state with
  | listen =>
      simpa [tcpReceived, hst, receivedEventProcess] using
        ⟨[], queueMove_receivedWhenListen env c seg⟩
  | synSent =>
      simpa [tcpReceived, hst, receivedEventProcess] using
        ⟨[], queueMove_receivedWhenSynSent env c seg⟩
  | synReceived =>
      simpa [tcpReceived, hst, receivedEventProcess] using
        ⟨[], queueMove_receivedWhenSynReceived env c seg⟩
  | established =>
      simpa [tcpReceived, hst, receivedEventProcess] using
        queueMove_receivedWhenEstablished env c seg
  | finWait1 =>
      refine ⟨[], ?_⟩
      have hack := queueMove_ackWhenClosing env c seg .finWait2
      simp only [tcpReceived, hst, receivedEventProcess, receivedWhenFinWait1]
      split
      · exact hack.trans (queueMove_tcpContructFinAck env _)
      · exact hack
  | finWait2 =>
      refine ⟨[], ?_⟩
      let ct := { c with
        tcp.state := .timeWait
        tcp.tmr := TimerLib.start c.tcp.tmr env.now c.tcp.timeWaitSeconds }
      have hct : QueueMove [] c ct := .of_log rfl rfl rfl
      simp only [tcpReceived, hst, receivedEventProcess, receivedWhenFinWait2]
      split
      · exact hct.trans (queueMove_tcpHandleFinAck env ct seg)
      · exact .refl c
  | timeWait =>
      simpa [tcpReceived, hst, receivedEventProcess, receivedWhenTimeWait] using ⟨[], hfinAck⟩
  | closeWait =>
      simpa [tcpReceived, hst, receivedEventProcess, receivedWhenCloseWait] using ⟨[], hfinAck⟩
  | lastAck =>
      refine ⟨[], ?_⟩
      have hack := queueMove_ackWhenClosing env c seg .closed
      simp only [tcpReceived, hst, receivedEventProcess, receivedWhenLastAck]
      split
      · exact hack.trans (queueMove_tcpContructFinAck env _)
      · exact hack
  | closing =>
      simpa [tcpReceived, hst, receivedEventProcess] using ⟨[], QueueMove.refl c⟩
  | closed =>
      simpa [tcpReceived, hst, receivedEventProcess] using ⟨[], QueueMove.refl c⟩

/-- An event other than a call of `tcp_recv` only adds to `rx_data`. -/
theorem queueMove_step {e : Event} (he : ∀ data size, e ≠ .recv data size) :
    ∃ bss, QueueMove bss c (step c e) := by
  cases e with
  | received env seg =>
      exact queueMove_tcpReceived env c seg
  | send env data =>
      refine ⟨[], ?_⟩
      by_cases hst : c.tcp.state = .established
      · have haccept : QueueMove [] c (acceptData c data) := .of_concat rfl rfl rfl trivial
        simp only [step, tcpSend_of_established env c hst]
        split
        · exact haccept.trans (queueMove_tcpConstructData env _)
        · exact queueMove_tcpConstructData env c
      · simp only [step, tcpSend_of_not env c hst]
        exact .refl c
  | recv data size =>
      exact absurd rfl (he data size)
  | close env =>
      refine ⟨[], ?_⟩
      simp only [step]
      rcases tcpClose_cases env c with ⟨_, h⟩ | h
      · rw [h]
        exact (queueMove_tcpContructFinAck env c).trans (queueMove_setState _ _)
      · rw [h]
        exact .refl c
  | loop env =>
      refine ⟨[], ?_⟩
      have hstop : QueueMove [] c (stopTimer c) := .of_log rfl rfl rfl
      have hvisit := tcpLoopVisit_cases env c
      simp only [step]
      rcases hvisit with h | ⟨_, h⟩ | ⟨_, h⟩ | ⟨_, _, h⟩
      · rw [h]
        exact .refl c
      · rw [h]
        exact hstop.trans (queueMove_tcpRetransmit env _)
      · rw [h]
        exact hstop.trans (queueMove_setState _ .closed)
      · rw [h]
        exact hstop

/-- Nothing is taken out of the record. -/
theorem log_prefix_step (e : Event) : c.log <+: (step c e).log := by
  by_cases he : ∃ data size, e = .recv data size
  · rcases he with ⟨data, size, rfl⟩
    rcases recvEvent_log c data size with ⟨bs, hlog⟩
    exact ⟨[.returned bs], hlog.symm⟩
  · rcases queueMove_step c fun data size h => he ⟨data, size, h⟩ with ⟨_, hmove⟩
    rcases hmove.log with ⟨l, hlog, _⟩
    exact ⟨l, hlog.symm⟩

/-! ## The window -/

theorem wnd_step (e : Event) : (step c e).tcp.rcv.wnd = c.tcp.rcv.wnd := by
  by_cases he : ∃ data size, e = .recv data size
  · rcases he with ⟨data, size, rfl⟩
    simp [step]
  · rcases queueMove_step c fun data size h => he ⟨data, size, h⟩ with ⟨_, hmove⟩
    exact hmove.wnd

/-- The window of a connection stays as `tcp_open` set it. -/
theorem wnd_reachable {c : Conn τ} (hc : Reachable c) : c.tcp.rcv.wnd = 1500 := by
  rcases hc with ⟨c₀, es, ⟨env, ip, port, dest, destPort, h⟩, rfl⟩
  have h₀ : c₀.tcp.rcv.wnd = 1500 := (queueMove_openWhenClosed env h).wnd
  refine Machine.run_preserves step (I := fun c => c.tcp.rcv.wnd = 1500) ?_ h₀ es
  intro c e hc
  rw [wnd_step, hc]

end Tcp
end DtsNet
