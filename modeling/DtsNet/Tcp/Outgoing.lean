import DtsNet.Tcp.Acknowledging
import DtsNet.Tcp.Closing
import DtsNet.Tcp.Endpoint

/-!
# Outgoing — the sending side of an end, from ESTABLISHED to the last state

What an end accepts is a stream that ends where `tcp_close` is called.  The FIN comes behind the last
byte and is built once every byte is acknowledged; `m` counts the bytes that the peer has queued, and
an acknowledgment covers no others.  `tcp_handle_fin_ack` may put any number into `snd.una` while a
segment is in `tx_seg`; nothing is numbered by `snd.una` before that segment is acknowledged.
-/

namespace DtsNet
namespace Tcp

open Ip Dblk History Slices

variable {τ : Type}

/-! ## What is said and heard -/

theorem acceptedBytes_mono {l l' : List Action} (h : l <+: l') :
    acceptedBytes l <+: acceptedBytes l' :=
  h.flatMap _

theorem queuedBytes_mono {l l' : List Action} (h : l <+: l') : queuedBytes l <+: queuedBytes l' :=
  h.flatMap _

/-- A rule for what is sent may be replaced by one that follows from it along the record. -/
theorem Emits.imp_of_earlier {E E' : List Action → Segment → Prop} {c : Conn τ} (h : Emits E c)
    (himp : ∀ pre seg, pre <+: c.log → E pre seg → E' pre seg) : Emits E' c := by
  refine ⟨?_, fun s r hs hr => himp _ _ (List.prefix_refl _) (h.raw s r hs hr)⟩
  intro pre a post hlog
  have ha := h.log pre a post hlog
  cases a with
  | output dg sent =>
      cases dg with
      | none => trivial
      | some dg => exact himp pre dg.seg ⟨_, hlog.symm⟩ ha
  | _ => trivial

/-- A segment of the end with the stream `me`: the FIN goes out when the peer has the whole stream. -/
def Utters (me : Peer) (m : ℕ) (seg : Segment) : Prop :=
  (∃ o, me.Sends seg o) ∧ (segCtrlF seg = true → me.stream.length ≤ m)

/-- An acknowledgment covers queued bytes only, and perhaps the FIN behind all of them. -/
def Acked (me : Peer) (m : ℕ) (seg : Segment) : Prop :=
  segCtrlA seg = true →
    ∃ k ≤ me.stream.length + 1, seg.ack = me.seq k ∧ min k me.stream.length ≤ m

theorem lasting_utters (me : Peer) (m : ℕ) : Lasting fun _ => Utters me m :=
  fun _ _ _ h => h

theorem Utters.mono {me : Peer} {m m' : ℕ} {seg : Segment} (h : Utters me m seg) (hm : m ≤ m') :
    Utters me m' seg :=
  ⟨h.1, fun hF => Nat.le_trans (h.2 hF) hm⟩

theorem utters_ack (me : Peer) (m : ℕ) (t : Tcb τ) (seq ack : UInt32) :
    Utters me m (newSegment t seq ack segFlagAck []) := by
  have hflags : (newSegment t seq ack segFlagAck []).flags = segFlagAck := rfl
  rcases ctrl_of_flags_ack hflags with ⟨_, hS, _, hF⟩
  refine ⟨⟨0, ?_, ?_, ?_⟩, ?_⟩
  · intro h
    rw [hS] at h
    cases h
  · rintro _ (h | h)
    · exact absurd rfl h
    · rw [hF] at h
      cases h
  · intro h
    rw [hF] at h
    cases h
  · intro h
    rw [hF] at h
    cases h

/-! ## The sending side -/

/-- Before the FIN is built: what was accepted is acknowledged, in `tx_seg`, or in `tx_data`. -/
structure Flowing (me : Peer) (m : ℕ) (c : Conn τ) : Prop where
  accepted : ∃ done, acceptedBytes c.log = done ++ pendingBytes c.tcp ++ waitingBytes c.tcp ∧
    done.length ≤ m ∧ c.tcp.snd.nxt = me.seq (done.length + (pendingBytes c.tcp).length)
  una : c.tcp.txSeg = none → c.tcp.snd.una = c.tcp.snd.nxt
  noFin : ∀ seg, c.tcp.txSeg = some seg → segCtrlF seg.toSegment = false

/-- The FIN is in `tx_seg`, and the peer has queued the whole stream. -/
structure FinPending (me : Peer) (m : ℕ) (c : Conn τ) : Prop where
  txSeg : ∃ seg, c.tcp.txSeg = some seg ∧ segCtrlF seg.toSegment = true ∧
    seg.seq = me.seq me.stream.length
  whole : me.stream.length ≤ m

def OutShape (me : Peer) (m : ℕ) (c : Conn τ) : State → Prop
  | .established | .closeWait => Flowing me m c
  | .finWait1 | .lastAck => Flowing me m c ∨ FinPending me m c
  | .finWait2 | .timeWait | .closed => me.stream.length ≤ m
  | _ => False

structure Outflow (me : Peer) (m : ℕ) (c : Conn τ) : Prop where
  emits : Emits (fun _ => Utters me m) c
  shape : OutShape me m c c.tcp.state

/-- `me` is all that will ever be accepted. -/
structure Outgoing (me : Peer) (m : ℕ) (c : Conn τ) : Prop extends Outflow me m c where
  within : acceptedBytes c.log <+: me.stream
  whole : Ended c.tcp.state → acceptedBytes c.log = me.stream

variable {me : Peer} {m m' : ℕ} {c c' : Conn τ}

theorem Flowing.mono (h : Flowing me m c) (hm : m ≤ m') : Flowing me m' c := by
  rcases h.accepted with ⟨done, haccepted, hle, hnxt⟩
  exact ⟨⟨done, haccepted, Nat.le_trans hle hm, hnxt⟩, h.una, h.noFin⟩

theorem FinPending.mono (h : FinPending me m c) (hm : m ≤ m') : FinPending me m' c :=
  ⟨h.txSeg, Nat.le_trans h.whole hm⟩

theorem OutShape.mono {s : State} (h : OutShape me m c s) (hm : m ≤ m') : OutShape me m' c s := by
  cases s with
  | established | closeWait =>
      exact Flowing.mono h hm
  | finWait1 | lastAck =>
      exact h.imp (fun h => h.mono hm) fun h => h.mono hm
  | finWait2 | timeWait | closed =>
      exact Nat.le_trans h hm
  | _ =>
      exact h.elim

/-- What the peer queues does not take anything back. -/
theorem Outgoing.mono (h : Outgoing me m c) (hm : m ≤ m') : Outgoing me m' c :=
  ⟨⟨h.emits.imp_of_earlier fun _ _ _ hutters => hutters.mono hm, h.shape.mono hm⟩, h.within, h.whole⟩

/-! ## What a frame keeps -/

theorem SendFrame.waitingBytes_eq (hframe : SendFrame c c') :
    waitingBytes c'.tcp = waitingBytes c.tcp := by
  rw [waitingBytes, hframe.txData, waitingBytes]

theorem SendFrame.flowing (hframe : SendFrame c c') (h : Flowing me m c)
    (hnxt : c'.tcp.snd.nxt = c.tcp.snd.nxt)
    (huna : c.tcp.txSeg = none → c'.tcp.snd.una = c.tcp.snd.una) : Flowing me m c' := by
  refine ⟨?_, ?_, ?_⟩
  · rw [hframe.acceptedBytes_eq, hframe.pendingBytes_eq, hframe.waitingBytes_eq, hnxt]
    exact h.accepted
  · intro hs
    have hs' := hframe.txSeg_eq_none.1 hs
    rw [huna hs', hnxt]
    exact h.una hs'
  · intro seg' hs'
    rcases hframe.exists_of_some hs' with ⟨seg, hs, hid⟩
    have hflags := Segment.flags_of_identity hid
    have hno := h.noFin seg hs
    simpa [segCtrlF, hflags] using hno

theorem SendFrame.finPending (hframe : SendFrame c c') (h : FinPending me m c) :
    FinPending me m c' := by
  rcases h.txSeg with ⟨seg, hs, hF, hseq⟩
  rcases hframe.exists_some hs with ⟨seg', hs', hid⟩
  have hflags := Segment.flags_of_identity hid
  refine ⟨⟨seg', hs', ?_, ?_⟩, h.whole⟩
  · simpa [segCtrlF, hflags] using hF
  · rw [Segment.seq_of_identity hid]
    exact hseq

theorem SendFrame.outShape (hframe : SendFrame c c') {s : State} (h : OutShape me m c s)
    (hnxt : c'.tcp.snd.nxt = c.tcp.snd.nxt)
    (huna : c.tcp.txSeg = none → c'.tcp.snd.una = c.tcp.snd.una) : OutShape me m c' s := by
  cases s with
  | established | closeWait =>
      exact hframe.flowing h hnxt huna
  | finWait1 | lastAck =>
      exact h.imp (fun h => hframe.flowing h hnxt huna) hframe.finPending
  | finWait2 | timeWait | closed =>
      exact h
  | _ =>
      exact h.elim

/-- Neither the state nor the sending side changes. -/
theorem Outflow.of_frame (hc : Outflow me m c) (hemits : Emits (fun _ => Utters me m) c')
    (hframe : SendFrame c c') (hst : c'.tcp.state = c.tcp.state)
    (hsnd : c'.tcp.snd = c.tcp.snd) : Outflow me m c' := by
  refine ⟨hemits, ?_⟩
  rw [hst]
  exact hframe.outShape hc.shape (by rw [hsnd]) fun _ => by rw [hsnd]

/-- `tcp_handle_fin_ack` leaves `snd.una` alone while `tx_seg` is free. -/
theorem flowing_tcpHandleFinAck (env : Env) (h : Flowing me m c) (seg : Received) :
    Flowing me m (tcpHandleFinAck env c seg).1 := by
  have hframe := sendFrame_tcpHandleFinAck env c seg
  cases hcmp : sncmp c.tcp.snd.una .ls seg.ack .le c.tcp.snd.nxt with
  | false =>
      rw [tcpHandleFinAck_of_not env c hcmp]
      exact h
  | true =>
      have htcp := (tcpHandleFinAck_of env c hcmp).1
      refine hframe.flowing h (by rw [htcp, takeFin]) fun hs => ?_
      rw [h.una hs, sncmp_self_ls] at hcmp
      cases hcmp

theorem emits_bare_tcpHandleFinAck (env : Env) (h : Emits (fun _ => Utters me m) c)
    (seg : Received) : Emits (fun _ => Utters me m) (tcpHandleFinAck env c seg).1 :=
  emits_tcpHandleFinAck env (lasting_utters me m) h seg fun _ => utters_ack me m _ _ _

/-! ## What leaves both streams alone -/

/-- Nothing is accepted or queued. -/
structure Quiet (c c' : Conn τ) : Prop where
  accepted : acceptedBytes c'.log = acceptedBytes c.log
  queued : queuedBytes c'.log = queuedBytes c.log

theorem Quiet.refl (c : Conn τ) : Quiet c c :=
  ⟨rfl, rfl⟩

theorem Quiet.trans {c₁ c₂ c₃ : Conn τ} (h₁ : Quiet c₁ c₂) (h₂ : Quiet c₂ c₃) : Quiet c₁ c₃ :=
  ⟨h₂.accepted.trans h₁.accepted, h₂.queued.trans h₁.queued⟩

theorem quiet_of_frame (hframe : SendFrame c c') (hmove : QueueMove [] c c') : Quiet c c' :=
  ⟨hframe.acceptedBytes_eq, hmove.bytes_eq⟩

/-! ## Text -/

theorem utters_dataSegment (h : Flowing me m c) (hwithin : acceptedBytes c.log <+: me.stream)
    (hs : c.tcp.txSeg = none) {tx : Block} {rest : List Block} (hd : c.tcp.txData = tx :: rest) :
    Utters me m (dataSegment c.tcp tx) := by
  have hflags : (dataSegment c.tcp tx).flags = segFlagAck := rfl
  rcases ctrl_of_flags_ack hflags with ⟨_, hS, _, hF⟩
  rcases h.accepted with ⟨done, haccepted, _, hnxt⟩
  have hpending : pendingBytes c.tcp = [] := by simp [pendingBytes, hs]
  have hsplit : acceptedBytes c.log = done ++ tx.bytes ++ rest.flatMap Block.bytes := by
    simpa [hpending, waitingBytes, hd] using haccepted
  have hseq : (dataSegment c.tcp tx).seq = me.seq done.length := by
    simpa [hpending, dataSegment, newSegment, h.una hs] using hnxt
  have hslice : SliceAt me.stream done.length tx.bytes := by
    refine SliceAt.mono ?_ hwithin
    rw [hsplit]
    exact sliceAt_mid done tx.bytes _
  refine ⟨⟨done.length, ?_, fun _ _ => ⟨hseq, hslice⟩, ?_⟩, ?_⟩
  · intro h
    rw [hS] at h
    cases h
  · intro h
    rw [hF] at h
    cases h
  · intro h
    rw [hF] at h
    cases h

section Construct

variable [TimerLib τ] {env : Env}

theorem acceptedBytes_tcpConstructData (env : Env) (c : Conn τ) :
    acceptedBytes (tcpConstructData env c).log = acceptedBytes c.log := by
  rcases tcpConstructData_cases env c with heq | ⟨tx, rest, hs, hd⟩
  · rw [heq]
  · cases hmem : env.malloc .dataSegment c.log <;>
      simp [tcpConstructData, hs, hd, hmem, tcpIpSend_log, acceptedBytes]

theorem acceptedBytes_tcpContructFinAck (env : Env) (c : Conn τ) :
    acceptedBytes (tcpContructFinAck env c).log = acceptedBytes c.log := by
  rcases tcpContructFinAck_cases env c with heq | ⟨hs, hd, hmem⟩
  · rw [heq]
  · simp [tcpContructFinAck, hs, hd, hmem, acceptedBytes]

theorem quiet_tcpContructFinAck (env : Env) (c : Conn τ) : Quiet c (tcpContructFinAck env c) :=
  ⟨acceptedBytes_tcpContructFinAck env c, (queueMove_tcpContructFinAck env c).bytes_eq⟩

theorem quiet_ackWhenClosing (env : Env) (c : Conn τ) (seg : Received) (next : State) :
    Quiet c (ackWhenClosing env c seg next) := by
  refine ⟨?_, (queueMove_ackWhenClosing env c seg next).bytes_eq⟩
  rcases ackWhenClosing_cases env c seg next with h | ⟨_, _, _, _, _, h⟩ | ⟨s, _, _, _, _, h⟩
  · rw [h]
  · rw [h, acceptedBytes_tcpTxSegComplete]
  · rw [h, acceptedBytes_tcpConstructData]
    simp [ackedConn, acceptedBytes]

/-- Behind ESTABLISHED nothing is accepted any more, and no text is queued. -/
theorem quiet_step_of_ended (hc : Ended c.tcp.state) (e : Event) : Quiet c (step c e) := by
  cases e with
  | received env seg =>
      have hfin : ∀ c₁ : Conn τ, c₁.log = c.log → Quiet c (tcpHandleFinAck env c₁ seg).1 := by
        intro c₁ hlog
        have h := quiet_of_frame (sendFrame_tcpHandleFinAck env c₁ seg)
          (queueMove_tcpHandleFinAck env c₁ seg)
        exact ⟨h.accepted.trans (by rw [hlog]), h.queued.trans (by rw [hlog])⟩
      have hclosing : ∀ next, Quiet c (if (ackWhenClosing env c seg next).tcp.state = c.tcp.state
          then tcpContructFinAck env (ackWhenClosing env c seg next)
          else ackWhenClosing env c seg next) := by
        intro next
        have hack := quiet_ackWhenClosing env c seg next
        split
        · exact hack.trans (quiet_tcpContructFinAck env _)
        · exact hack
      rcases hc with hst | hst | hst | hst | hst | hst | hst <;> rw [hst] at hclosing <;>
        simp only [step, tcpReceived, hst, receivedEventProcess]
      · exact hclosing .finWait2
      · rw [receivedWhenFinWait2]
        split
        · exact hfin _ rfl
        · exact .refl c
      · rw [receivedWhenTimeWait]
        split
        · exact hfin _ rfl
        · exact .refl c
      · rw [receivedWhenCloseWait]
        split
        · exact hfin _ rfl
        · exact .refl c
      · exact hclosing .closed
      · exact .refl c
      · exact .refl c
  | send env data =>
      rw [step, tcpSend_of_not env c hc.ne.1]
      exact .refl c
  | recv data size =>
      rcases recvEvent_log c data size with ⟨bs, hlog⟩
      exact ⟨(sendFrame_recvEvent c data size).acceptedBytes_eq, by simp [step, hlog, queuedBytes]⟩
  | close env =>
      rw [step]
      rcases tcpClose_cases env c with ⟨_, h⟩ | h
      · rw [h]
        exact (quiet_tcpContructFinAck env c).trans ⟨rfl, rfl⟩
      · rw [h]
        exact .refl c
  | loop env =>
      have hstop : Quiet c (stopTimer c) := ⟨rfl, rfl⟩
      have hvisit := tcpLoopVisit_cases env c
      simp only [step]
      rcases hvisit with h | ⟨_, h⟩ | ⟨_, h⟩ | ⟨_, _, h⟩
      · rw [h]
        exact .refl c
      · rw [h]
        exact hstop.trans (quiet_of_frame (sendFrame_tcpRetransmit env _) (queueMove_tcpRetransmit env _))
      · rw [h]
        exact hstop.trans ⟨rfl, rfl⟩
      · rw [h]
        exact hstop

theorem flowing_tcpConstructData (hmem : env.AllocOk) (h : Flowing me m c) :
    Flowing me m (tcpConstructData env c) := by
  rcases tcpConstructData_cases env c with heq | ⟨tx, rest, hs, hd⟩
  · rw [heq]
    exact h
  · rcases tcpConstructData_cons env c hmem hs hd with ⟨htcp, sent, hlog⟩
    have hpending : pendingBytes (tcpConstructData env c).tcp = tx.bytes := by
      simp [pendingBytes, htcp, dataSegment]
    have hnone : pendingBytes c.tcp = [] := by simp [pendingBytes, hs]
    refine ⟨?_, ?_, ?_⟩
    · -- the block moves from `tx_data` to `tx_seg`
      rcases h.accepted with ⟨done, haccepted, hle, hnxt⟩
      refine ⟨done, ?_, hle, ?_⟩
      · rw [acceptedBytes_tcpConstructData, haccepted, hpending, hnone]
        simp [waitingBytes, hd, htcp]
      · rw [hnone, List.length_nil, Nat.add_zero] at hnxt
        rw [hpending, htcp]
        simp only [hnxt]
        exact Circular.add_ofNat_add _ _ _
    · intro hs'
      simp [htcp] at hs'
    · intro seg hs'
      rw [htcp] at hs'
      cases hs'
      have hflags : (dataSegment c.tcp tx).flags = segFlagAck := rfl
      exact (ctrl_of_flags_ack hflags).2.2.2

/-- The acknowledgment that completes the text in `tx_seg` covers it. -/
theorem flowing_ackedConn (h : Flowing me m c) (hwithin : acceptedBytes c.log <+: me.stream)
    (hlen : me.stream.length + 1 < 2 ^ 32) {s : TxSegment} (hs : c.tcp.txSeg = some s)
    {seg : Segment} (hA : segCtrlA seg = true) (hacked : Acked me m seg)
    (hack : ackCompletes c.tcp seg.ack = true) : Flowing me m (ackedConn c s) := by
  rcases h.accepted with ⟨done, haccepted, _, hnxt⟩
  have hpending : pendingBytes c.tcp = s.payload := by simp [pendingBytes, hs]
  have hpending' : pendingBytes (ackedConn c s).tcp = [] := rfl
  have haccepted' : acceptedBytes (ackedConn c s).log = acceptedBytes c.log := by
    simp [ackedConn, acceptedBytes]
  have htotal : done.length + s.payload.length ≤ me.stream.length := by
    have hle := hwithin.length_le
    rw [haccepted, hpending] at hle
    simp only [List.length_append] at hle
    omega
  -- it names the end of the pending text, and no two counts share a number
  have hcovered : done.length + s.payload.length ≤ m := by
    rcases hacked hA with ⟨k, hk, hseq, hm⟩
    have heq : seg.ack = c.tcp.snd.nxt := by
      rw [ackCompletes, Bool.and_eq_true, beq_iff_eq] at hack
      exact hack.2
    rw [hnxt, hpending, hseq] at heq
    have hk' := Circular.ofNat_add_inj (by omega) (by omega) heq
    omega
  refine ⟨⟨done ++ s.payload, ?_, ?_, ?_⟩, fun _ => rfl, ?_⟩
  · rw [haccepted', haccepted, hpending, hpending', List.append_nil]
    rfl
  · rw [List.length_append]
    exact hcovered
  · rw [hpending', List.length_append, List.length_nil, Nat.add_zero, ← hpending]
    exact hnxt
  · intro s' hs'
    cases hs'

/-- The data in `tx_seg` is acknowledged, and the next block takes its place. -/
theorem flowing_taken (hmem : env.AllocOk) (h : Flowing me m c)
    (hwithin : acceptedBytes c.log <+: me.stream) (hlen : me.stream.length + 1 < 2 ^ 32)
    (hemits : Emits (fun _ => Utters me m) c) {s : TxSegment} (hs : c.tcp.txSeg = some s)
    {seg : Segment} (hA : segCtrlA seg = true) (hacked : Acked me m seg)
    (hack : ackCompletes c.tcp seg.ack = true) :
    Flowing me m (tcpConstructData env (ackedConn c s)) ∧
      Emits (fun _ => Utters me m) (tcpConstructData env (ackedConn c s)) := by
  have hflow := flowing_ackedConn h hwithin hlen hs hA hacked hack
  have hwithin' : acceptedBytes (ackedConn c s).log <+: me.stream := by
    have haccepted : acceptedBytes (ackedConn c s).log = acceptedBytes c.log := by
      simp [ackedConn, acceptedBytes]
    rw [haccepted]
    exact hwithin
  refine ⟨flowing_tcpConstructData hmem hflow, ?_⟩
  exact emits_tcpConstructData env (lasting_utters me m) (emits_ackedConn (lasting_utters me m) hemits s)
    fun tx rest hnone hd => utters_dataSegment hflow hwithin' hnone hd

/-! ## The FIN -/

omit [TimerLib τ] in
theorem utters_finSegment (h : Flowing me m c) (hwhole : acceptedBytes c.log = me.stream)
    (hs : c.tcp.txSeg = none) (hd : c.tcp.txData = []) :
    Utters me m (finSegment c.tcp) ∧ (finSegment c.tcp).seq = me.seq me.stream.length ∧
      me.stream.length ≤ m := by
  have hflags : (finSegment c.tcp).flags = segFlagFin ||| segFlagAck := rfl
  rcases ctrl_of_flags_finAck hflags with ⟨_, hS, _, hF⟩
  rcases h.accepted with ⟨done, haccepted, hle, hnxt⟩
  have hpending : pendingBytes c.tcp = [] := by simp [pendingBytes, hs]
  have hdone : me.stream = done := by
    rw [← hwhole, haccepted, hpending, waitingBytes, hd]
    simp
  have hseq : (finSegment c.tcp).seq = me.seq me.stream.length := by
    rw [hdone]
    simpa [hpending, finSegment, newSegment, h.una hs] using hnxt
  have hm : me.stream.length ≤ m := by rw [hdone]; exact hle
  refine ⟨⟨⟨me.stream.length, ?_, ?_, fun _ => rfl⟩, fun _ => hm⟩, hseq, hm⟩
  · intro h
    rw [hS] at h
    cases h
  · exact fun _ _ => ⟨hseq, sliceAt_nil (Nat.le_refl _)⟩

theorem outflow_tcpContructFinAck (hmem : env.AllocOk)
    (h : Flowing me m c ∨ FinPending me m c) (hwhole : acceptedBytes c.log = me.stream)
    (hemits : Emits (fun _ => Utters me m) c) :
    (Flowing me m (tcpContructFinAck env c) ∨ FinPending me m (tcpContructFinAck env c)) ∧
      Emits (fun _ => Utters me m) (tcpContructFinAck env c) := by
  rcases h with h | h
  · refine ⟨?_, emits_tcpContructFinAck env (lasting_utters me m) hemits fun hs hd =>
      (utters_finSegment h hwhole hs hd).1⟩
    rcases tcpContructFinAck_cases env c with heq | ⟨hs, hd, _⟩
    · rw [heq]
      exact Or.inl h
    · rcases utters_finSegment h hwhole hs hd with ⟨_, hseq, hm⟩
      have hflags : (finSegment c.tcp).flags = segFlagFin ||| segFlagAck := rfl
      right
      rw [tcpContructFinAck_of_empty env c hmem hs hd]
      exact ⟨⟨_, rfl, (ctrl_of_flags_finAck hflags).2.2.2, hseq⟩, hm⟩
  · rcases h.txSeg with ⟨seg, hs, _⟩
    rw [tcpContructFinAck_of_pending env c hs]
    exact ⟨Or.inr h, hemits⟩

end Construct

/-! ## The handlers -/

section Handlers

variable [TimerLib τ] {env : Env}

theorem outflow_receivedWhenEstablished (hst : c.tcp.state = .established) (hc : Outgoing me m c)
    (hmem : env.AllocOk) (hlen : me.stream.length + 1 < 2 ^ 32) {seg : Received}
    (hacked : Acked me m seg.toSegment) : Outflow me m (receivedWhenEstablished env c seg) := by
  have hE := lasting_utters me m
  have hflow : Flowing me m c := by
    have hshape := hc.shape
    rwa [hst] at hshape
  cases hacc : seqAccepted c.tcp seg.toSegment with
  | false =>
      rw [receivedWhenEstablished_of_rejected env c hacc]
      have htcp := processReceivedSeq_tcp env c seg
      exact hc.toOutflow.of_frame (emits_processReceivedSeq env hE hc.emits seg (utters_ack me m _ _ _))
        (sendFrame_processReceivedSeq env c seg) (by rw [htcp]) (by rw [htcp])
  | true =>
      by_cases hRA : segCtrlR seg.toSegment = true ∨ segCtrlA seg.toSegment = false
      · rw [receivedWhenEstablished_of_ignored env c hacc hRA]
        exact hc.toOutflow
      · rw [not_or, Bool.not_eq_true, Bool.not_eq_false] at hRA
        rw [receivedWhenEstablished_of_ack env c hacc hRA.1 hRA.2]
        have hack : Flowing me m (ackEstablished env c seg) ∧
            Emits (fun _ => Utters me m) (ackEstablished env c seg) := by
          rcases ackEstablished_cases env c seg with ⟨hsame, _⟩ | ⟨s, hs, _, hcomp, htaken⟩
          · rw [hsame]
            exact ⟨hflow, hc.emits⟩
          · rw [htaken]
            exact flowing_taken hmem hflow hc.within hlen hc.emits hs hRA.2 hacked hcomp
        have hsnd := tcpHandleData_snd env (ackEstablished env c seg) seg
        have htext : Flowing me m (textEstablished env c seg) :=
          (sendFrame_tcpHandleData env (ackEstablished env c seg) seg).flowing hack.1
            (by rw [hsnd]) fun _ => by rw [hsnd]
        have hemits : Emits (fun _ => Utters me m) (textEstablished env c seg) :=
          emits_tcpHandleData env hE hack.2 seg fun _ _ => utters_ack me m _ _ _
        cases segCtrlF seg.toSegment with
        | false =>
            refine ⟨hemits, ?_⟩
            rw [if_neg Bool.false_ne_true, textEstablished, tcpHandleData_state,
              ackEstablished_state, hst]
            exact htext
        | true =>
            have hfin := flowing_tcpHandleFinAck env htext seg
            exact ⟨(emits_bare_tcpHandleFinAck env hemits seg).congr rfl rfl,
              (sendFrame_setState _ .closeWait).flowing hfin rfl fun _ => rfl⟩

/-- FIN_WAIT_1 and LAST_ACK: the text before the FIN, then the FIN. -/
theorem outflow_whenClosing (hc : Outgoing me m c) (hended : Ended c.tcp.state)
    (hshape : Flowing me m c ∨ FinPending me m c) (hmem : env.AllocOk)
    (hlen : me.stream.length + 1 < 2 ^ 32) {seg : Received} (hacked : Acked me m seg.toSegment)
    {next : State} (hne : next ≠ c.tcp.state)
    (hstay : ∀ c' : Conn τ, Flowing me m c' ∨ FinPending me m c' → OutShape me m c' c.tcp.state)
    (hnext : ∀ c' : Conn τ, me.stream.length ≤ m → OutShape me m c' next) :
    Outflow me m (if (ackWhenClosing env c seg next).tcp.state = c.tcp.state then
      tcpContructFinAck env (ackWhenClosing env c seg next) else ackWhenClosing env c seg next) := by
  have hwhole := hc.whole hended
  rcases ackWhenClosing_cases env c seg next with
      hsame | ⟨s, hs, hF, _, _, hdone⟩ | ⟨s, hs, hF, hA, hcomp, htaken⟩
  · -- nothing is acknowledged, and the FIN may still have to be built
    rw [hsame, if_pos rfl]
    rcases outflow_tcpContructFinAck hmem hshape hwhole hc.emits with ⟨hout, hemits⟩
    refine ⟨hemits, ?_⟩
    rw [tcpContructFinAck_state]
    exact hstay _ hout
  · -- the FIN is acknowledged
    have hm : me.stream.length ≤ m := by
      rcases hshape with h | h
      · rw [h.noFin s hs] at hF
        cases hF
      · exact h.whole
    rw [hdone, if_neg hne]
    exact ⟨(emits_tcpTxSegComplete (lasting_utters me m) hc.emits seg.ack).congr rfl rfl, hnext _ hm⟩
  · -- text is acknowledged, and the next block takes its place, or the FIN
    have hflow : Flowing me m c := by
      refine hshape.resolve_right fun h => ?_
      rcases h.txSeg with ⟨s', hs', hF', _⟩
      rw [hs] at hs'
      cases hs'
      rw [hF] at hF'
      cases hF'
    rcases flowing_taken hmem hflow hc.within hlen hc.emits hs hA hacked hcomp with ⟨hflow', hemits'⟩
    have hst : (tcpConstructData env (ackedConn c s)).tcp.state = c.tcp.state :=
      tcpConstructData_state env _
    have hwhole' : acceptedBytes (tcpConstructData env (ackedConn c s)).log = me.stream := by
      rw [acceptedBytes_tcpConstructData, ← hwhole]
      simp [ackedConn, acceptedBytes]
    rw [htaken, hst, if_pos rfl]
    rcases outflow_tcpContructFinAck hmem (Or.inl hflow') hwhole' hemits' with ⟨hout, hemits⟩
    refine ⟨hemits, ?_⟩
    rw [tcpContructFinAck_state, hst]
    exact hstay _ hout

theorem outflow_tcpReceived (hc : Outgoing me m c) (hmem : env.AllocOk)
    (hlen : me.stream.length + 1 < 2 ^ 32) {seg : Received} (hacked : Acked me m seg.toSegment) :
    Outflow me m (tcpReceived env c seg) := by
  have hshape := hc.shape
  cases hst : c.tcp.state with
  | established =>
      have hreceived : tcpReceived env c seg = receivedWhenEstablished env c seg := by
        simp [tcpReceived, hst, receivedEventProcess]
      rw [hreceived]
      exact outflow_receivedWhenEstablished hst hc hmem hlen hacked
  | finWait1 =>
      rw [hst] at hshape
      have hne : State.finWait2 ≠ c.tcp.state := by simp [hst]
      have h := outflow_whenClosing hc (by simp [hst, Ended]) hshape hmem hlen hacked hne
        (fun _ h => by rw [hst]; exact h) fun _ h => h
      simpa [tcpReceived, hst, receivedEventProcess, receivedWhenFinWait1] using h
  | lastAck =>
      rw [hst] at hshape
      have hne : State.closed ≠ c.tcp.state := by simp [hst]
      have h := outflow_whenClosing hc (by simp [hst, Ended]) hshape hmem hlen hacked hne
        (fun _ h => by rw [hst]; exact h) fun _ h => h
      simpa [tcpReceived, hst, receivedEventProcess, receivedWhenLastAck] using h
  | finWait2 =>
      rw [hst] at hshape
      cases hAF : segCtrlAF seg.toSegment with
      | false =>
          simpa [tcpReceived, hst, receivedEventProcess, receivedWhenFinWait2, hAF] using hc.toOutflow
      | true =>
          -- whatever `snd.una` becomes, nothing is numbered by it any more
          let c₁ : Conn τ := { c with
            tcp.state := .timeWait
            tcp.tmr := TimerLib.start c.tcp.tmr env.now c.tcp.timeWaitSeconds }
          have hemits : Emits (fun _ => Utters me m) c₁ := hc.emits.congr rfl rfl
          have h : Outflow me m (tcpHandleFinAck env c₁ seg).1 := by
            refine ⟨emits_bare_tcpHandleFinAck env hemits seg, ?_⟩
            rw [tcpHandleFinAck_state]
            exact hshape
          simpa [tcpReceived, hst, receivedEventProcess, receivedWhenFinWait2, hAF] using h
  | timeWait =>
      rw [hst] at hshape
      cases hAF : segCtrlAF seg.toSegment with
      | false =>
          simpa [tcpReceived, hst, receivedEventProcess, receivedWhenTimeWait, hAF] using hc.toOutflow
      | true =>
          have h : Outflow me m (tcpHandleFinAck env c seg).1 := by
            refine ⟨emits_bare_tcpHandleFinAck env hc.emits seg, ?_⟩
            rw [tcpHandleFinAck_state, hst]
            exact hshape
          simpa [tcpReceived, hst, receivedEventProcess, receivedWhenTimeWait, hAF] using h
  | closeWait =>
      rw [hst] at hshape
      cases hAF : segCtrlAF seg.toSegment with
      | false =>
          simpa [tcpReceived, hst, receivedEventProcess, receivedWhenCloseWait, hAF] using hc.toOutflow
      | true =>
          have h : Outflow me m (tcpHandleFinAck env c seg).1 := by
            refine ⟨emits_bare_tcpHandleFinAck env hc.emits seg, ?_⟩
            rw [tcpHandleFinAck_state, hst]
            exact flowing_tcpHandleFinAck env hshape seg
          simpa [tcpReceived, hst, receivedEventProcess, receivedWhenCloseWait, hAF] using h
  | closed =>
      simpa [tcpReceived, hst, receivedEventProcess] using hc.toOutflow
  | _ =>
      rw [hst] at hshape
      exact hshape.elim

end Handlers

/-! ## Calls of the user and the timer -/

section Calls

variable [TimerLib τ] {env : Env}

theorem outflow_tcpSend (hc : Outgoing me m c) (hmem : env.AllocOk) {data : List Byte}
    (hdata : data.length < 65536)
    (hwithin : acceptedBytes (tcpSend env c data).1.log <+: me.stream) :
    Outflow me m (tcpSend env c data).1 := by
  by_cases hst : c.tcp.state = .established
  · have hflow : Flowing me m c := by
      have hshape := hc.shape
      rwa [hst] at hshape
    have hsend := tcpSend_of_established env c hst data
    rw [if_pos (hmem _ _)] at hsend
    have haccepted : acceptedBytes (acceptData c data).log = acceptedBytes c.log ++ data := by
      simp [acceptData, acceptedBytes]
    have hmod : data.length % 65536 = data.length := Nat.mod_eq_of_lt hdata
    have hwaiting : waitingBytes (acceptData c data).tcp = waitingBytes c.tcp ++ data := by
      simp [waitingBytes, acceptData, dblkCopyFrom_new, Block.bytes, hmod, memRead_eq_take]
    have hflow' : Flowing me m (acceptData c data) := by
      refine ⟨?_, hflow.una, hflow.noFin⟩
      rcases hflow.accepted with ⟨done, hacc, hle, hnxt⟩
      have hpending : pendingBytes (acceptData c data).tcp = pendingBytes c.tcp := rfl
      refine ⟨done, ?_, hle, hnxt⟩
      rw [haccepted, hacc, hwaiting, hpending, List.append_assoc]
    have hemits : Emits (fun _ => Utters me m) (acceptData c data) := by
      refine hc.emits.of_keep (lasting_utters me m) rfl rfl ?_
      intro a ha
      rw [List.mem_singleton.1 ha]
      trivial
    rw [hsend, acceptedBytes_tcpConstructData] at hwithin
    rw [hsend]
    refine ⟨?_, ?_⟩
    · exact emits_tcpConstructData env (lasting_utters me m) hemits fun tx rest hs hd =>
        utters_dataSegment hflow' hwithin hs hd
    · rw [tcpConstructData_state, acceptData, hst]
      exact flowing_tcpConstructData hmem hflow'
  · rw [tcpSend_of_not env c hst]
    exact hc.toOutflow

omit [TimerLib τ] in
theorem outflow_recvEvent (hc : Outflow me m c) (data : List Byte) (size : ℕ) :
    Outflow me m (recvEvent c data size) :=
  hc.of_frame (emits_recvEvent (lasting_utters me m) hc.emits data size)
    (sendFrame_recvEvent c data size) (recvEvent_state c data size) (recvEvent_snd c data size)

/-- `tcp_close`: nothing more is accepted. -/
theorem outflow_tcpClose (hc : Outgoing me m c) (hmem : env.AllocOk)
    (hwhole : Ended (tcpClose env c).tcp.state → acceptedBytes c.log = me.stream) :
    Outflow me m (tcpClose env c) := by
  rcases tcpClose_cases env c with ⟨hst, h⟩ | h
  · rw [h] at hwhole ⊢
    have hflow : Flowing me m c := by
      have hshape := hc.shape
      rcases hst with hst | hst <;> rwa [hst] at hshape
    have hended : Ended (closeState c.tcp.state) := by
      rcases hst with hst | hst <;> simp [hst, closeState, Ended]
    -- the FIN is built at once, or behind the text that waits
    rcases outflow_tcpContructFinAck hmem (Or.inl hflow) (hwhole hended) hc.emits with ⟨hout, hemits⟩
    have hframe := sendFrame_setState (tcpContructFinAck env c) (closeState c.tcp.state)
    have hout' := hout.imp (fun h => hframe.flowing h rfl fun _ => rfl) hframe.finPending
    refine ⟨hemits.congr rfl rfl, ?_⟩
    rcases hst with hst | hst
    · rw [hst] at hout' ⊢
      exact hout'
    · rw [hst] at hout' ⊢
      exact hout'
  · rw [h]
    exact hc.toOutflow

theorem outflow_tcpLoopVisit (hc : Outflow me m c) : Outflow me m (tcpLoopVisit env c) := by
  have hemits := emits_tcpLoopVisit env (lasting_utters me m) hc.emits
  have hstop := sendFrame_stopTimer c
  rcases tcpLoopVisit_cases env c with h | ⟨_, h⟩ | ⟨hst, h⟩ | ⟨_, _, h⟩
  · rw [h]
    exact hc
  · have htcp := tcpRetransmit_tcp env (stopTimer c)
    rw [h] at hemits ⊢
    exact hc.of_frame hemits (hstop.trans (sendFrame_tcpRetransmit env (stopTimer c)))
      (by rw [htcp, stopTimer]) (by rw [htcp, stopTimer])
  · rw [h] at hemits ⊢
    refine ⟨hemits, ?_⟩
    have hshape := hc.shape
    rw [hst] at hshape
    exact hshape
  · rw [h] at hemits ⊢
    exact hc.of_frame hemits hstop rfl rfl

/-- What may happen to the end: the peer acknowledges no more than it has queued, and buffers fit into
a block. -/
def OutOk (me : Peer) (m : ℕ) : Event → Prop
  | .received env seg => env.AllocOk ∧ Acked me m seg.toSegment
  | .send env data => env.AllocOk ∧ data.length < 65536
  | .recv _ _ => True
  | .close env => env.AllocOk
  | .loop _ => True

/-- One event, if `me` is still all that will be accepted after it. -/
theorem outgoing_step (hc : Outgoing me m c) (hlen : me.stream.length + 1 < 2 ^ 32) {e : Event}
    (hok : OutOk me m e) (hwithin : acceptedBytes (step c e).log <+: me.stream)
    (hwhole : Ended (step c e).tcp.state → acceptedBytes (step c e).log = me.stream) :
    Outgoing me m (step c e) := by
  refine ⟨?_, hwithin, hwhole⟩
  cases e with
  | received env seg =>
      exact outflow_tcpReceived hc hok.1 hlen hok.2
  | send env data =>
      exact outflow_tcpSend hc hok.1 hok.2 hwithin
  | recv data size =>
      exact outflow_recvEvent hc.toOutflow data size
  | close env =>
      refine outflow_tcpClose hc hok fun hended => ?_
      rw [← hwhole hended]
      rcases tcpClose_cases env c with ⟨_, h⟩ | h
      · rw [step, h, acceptedBytes_tcpContructFinAck]
      · rw [step, h]
  | loop env =>
      exact outflow_tcpLoopVisit hc.toOutflow

end Calls

end Tcp
end DtsNet
