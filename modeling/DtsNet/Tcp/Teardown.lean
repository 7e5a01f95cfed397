import DtsNet.Tcp.Graceful
import DtsNet.Tcp.Recovery

/-!
# Teardown — an established connection can always be closed

From every state in which both ends are ESTABLISHED the way on of `Recovery` delivers everything,
and then `tcp_close` at one end and at the other brings both to CLOSED: each FIN goes out once, by
the timer, and is acknowledged at once.  No datagram of before is needed, and no second copy of a
FIN.
-/

namespace DtsNet
namespace Tcp

open Ip Dblk History Slices Circular

variable {τ : Type} {c d x y y' : Conn τ} {n r : UInt32}

/-! ## One end -/

/-- Everything before `n` is acknowledged, nothing more waits to be sent, and `r` comes next. -/
structure Drained (c : Conn τ) (n r : UInt32) : Prop where
  txSeg : c.tcp.txSeg = none
  txData : c.tcp.txData = []
  una : c.tcp.snd.una = n
  nxt : c.tcp.snd.nxt = n
  rcv : c.tcp.rcv.nxt = r

/-- The FIN with the number `n` waits in `tx_seg`. -/
structure FinWaits (c : Conn τ) (n : UInt32) : Prop where
  txSeg : ∃ fin, c.tcp.txSeg = some fin ∧ segCtrlF fin.toSegment = true ∧ fin.seq = n
  una : c.tcp.snd.una = n
  nxt : c.tcp.snd.nxt = n + 1

structure FinSegment (n r : UInt32) (seg : Segment) : Prop where
  flags : seg.flags = segFlagFin ||| segFlagAck
  payload : seg.payload = []
  seq : seg.seq = n
  ack : seg.ack = r

structure AckSegment (r : UInt32) (seg : Segment) : Prop where
  flags : seg.flags = segFlagAck
  ack : seg.ack = r

/-- From `c` to `d` a segment of this kind was sent, which the peer cannot refuse, and nothing
accepted. -/
structure Said (P : Segment → Prop) (c d : Conn τ) : Prop where
  said : ∃ dg ∈ outputs (d.log.drop c.log.length), dg.Verifies ∧ P dg.seg
  accepted : acceptedBytes d.log = acceptedBytes c.log
  longer : c.log.length ≤ d.log.length

/-- What was just said arrives. -/
theorem Said.late {P : Segment → Prop} (h : Said P y y') {k : ℕ} (hk : k ≤ y.log.length) (now : ℕ) :
    ∃ dg : Datagram, P dg.seg ∧ LateOk now k y' (.received (.working now) (dg.received [])) := by
  rcases h.said with ⟨dg, hdg, hverifies, hP⟩
  exact ⟨dg, hP, lateOk_received now (outputs_drop_subset _ hk dg hdg) hverifies⟩

section End

variable [TimerLib τ]

theorem step_close_of_drained (hst : c.tcp.state = .established ∨ c.tcp.state = .closeWait)
    (h : Drained c n r) (now : ℕ) :
    step c (.close (.working now)) =
      { tcp := { c.tcp with
          txSeg := some (packTxSegment true (finSegment c.tcp))
          snd.nxt := c.tcp.snd.nxt + 1
          tmr := TimerLib.start c.tcp.tmr now 1
          state := closeState c.tcp.state }
        log := c.log ++ [.built (finSegment c.tcp)] } := by
  have hfin := tcpContructFinAck_of_empty (.working now) c (Env.allocOk_working now) h.txSeg h.txData
  rcases hst with hst | hst
  · simp only [step, tcpClose, hst, closeEventProcess, closeWhenEstablished, hfin, closeState]
    rfl
  · simp only [step, tcpClose, hst, closeEventProcess, closeWhenCloseWait, hfin, closeState]
    rfl

/-- `tcp_close` builds the FIN, and the timer sends it. -/
theorem close_sends [TimedTimerLib τ]
    (hst : c.tcp.state = .established ∨ c.tcp.state = .closeWait) (h : Drained c n r) {now : ℕ}
    (hd : d = step (step c (.close (.working now))) (.loop (.working (now + 1)))) :
    d.tcp.state = closeState c.tcp.state ∧ FinWaits d n ∧ Said (FinSegment n r) c d := by
  have hretransmits : Retransmits (closeState c.tcp.state) := by
    rcases hst with hst | hst <;> rw [hst] <;> simp [closeState, Retransmits]
  have hexp : TimerLib.expired (TimerLib.start c.tcp.tmr now 1) (now + 1) = true := by
    simp [TimedTimerLib.expired_start]
  have hclose := step_close_of_drained hst h now
  have hst₁ : Retransmits (step c (.close (.working now))).tcp.state := by
    rw [hclose]
    exact hretransmits
  have hexp₁ : TimerLib.expired (step c (.close (.working now))).tcp.tmr (now + 1) = true := by
    rw [hclose]
    exact hexp
  have hs₁ : (step c (.close (.working now))).tcp.txSeg =
      some (packTxSegment true (finSegment c.tcp)) := by
    rw [hclose]
  rw [step_loop_of_due hst₁ hexp₁ hs₁ rfl, hclose] at hd
  have hfin : FinSegment n r (finSegment c.tcp) := ⟨rfl, rfl, h.una, h.rcv⟩
  subst hd
  refine ⟨rfl, ⟨⟨_, rfl, (ctrl_of_flags_finAck hfin.flags).2.2.2, h.una⟩, h.una, by rw [← h.nxt]⟩,
    ⟨connDatagram c.tcp (finSegment c.tcp), ?_, verifies_newSegment _ _ _ (by decide), hfin⟩, ?_, ?_⟩
  · simp [outputs, connDatagram]
  · simp [acceptedBytes]
  · simp

omit [TimerLib τ] in
/-- A bare acknowledgment goes out. -/
theorem tcpSendCtrlSeg_working (c : Conn τ) (seq ack : UInt32) (now : ℕ) :
    (tcpSendCtrlSeg (.working now) c seq ack segFlagAck).1 =
      { tcp := c.tcp
        log := c.log ++ [.output
          (some (connDatagram c.tcp (newSegment c.tcp seq ack segFlagAck []))) true] } := by
  have hlen : tcpSegmentLength (newSegment c.tcp seq ack segFlagAck []) = 0 :=
    tcpSegmentLength_of_flags_ack rfl
  simp [tcpSendCtrlSeg, tcpIpSend, hlen, connDatagram, Env.working]

omit [TimerLib τ] in
/-- With `tx_seg` free, queued text is answered at once. -/
theorem tcpHandleData_answers (hs : c.tcp.txSeg = none) {seg : Received}
    (hseq : seg.seq = c.tcp.rcv.nxt) (hlen : 0 < tcpSegmentLength seg.toSegment) (now : ℕ) :
    (tcpHandleData (.working now) c seg).1 =
      { tcp := takeText c.tcp seg
        log := c.log ++ [.queued (textBytes c.tcp seg), .output (some (connDatagram c.tcp (newSegment
          c.tcp c.tcp.snd.una (takeText c.tcp seg).rcv.nxt segFlagAck []))) true] } := by
  have hn := ite_eq_textLength c.tcp seg
  have hmod := textLength_mod c.tcp seg
  have hmem : (Env.working now).malloc .rxBlock c.log = true := rfl
  simp [tcpHandleData, hseq, hlen, hn, hmod, hs, hmem, dblkCopyFrom_new, takeText, textBytes,
    tcpSendCtrlSeg_working, connDatagram, newSegment, Block.bytes]

/-- The FIN at an end that is still ESTABLISHED is queued like text, and acknowledged as such. -/
theorem fin_at_established (hst : c.tcp.state = .established) (h : Drained c n r)
    (hwnd : c.tcp.rcv.wnd = 1500) {seg : Received} (hacc : seqAccepted c.tcp seg.toSegment = true)
    {k : UInt32} (hfin : FinSegment r k seg.toSegment) {now : ℕ}
    (hd : d = step c (.received (.working now) seg)) :
    d.tcp.state = .closeWait ∧ Drained d n (r + 1) ∧ Said (AckSegment (r + 1)) c d := by
  rcases ctrl_of_flags_finAck hfin.flags with ⟨hA, _, hR, hF⟩
  have hlen : tcpSegmentLength seg.toSegment = 1 := by
    rw [tcpSegmentLength_of_flags_finAck hfin.flags, hfin.payload]
    rfl
  have hseq : seg.seq = c.tcp.rcv.nxt := hfin.seq.trans h.rcv.symm
  have hreceived : tcpReceived (.working now) c seg = receivedWhenEstablished (.working now) c seg := by
    simp [tcpReceived, hst, receivedEventProcess]
  have hack : ackEstablished (.working now) c seg = c := by
    rcases ackEstablished_cases (.working now) c seg with ⟨hsame, _⟩ | ⟨s, hs, _⟩
    · exact hsame
    · rw [h.txSeg] at hs
      cases hs
  have htext := tcpHandleData_answers h.txSeg hseq (by omega) now
  have hnxt : (takeText c.tcp seg).rcv.nxt = r + 1 := by
    have hone : textLength c.tcp seg = 1 := by
      rw [textLength, hlen, hwnd]
      rfl
    rw [takeText, hone, h.rcv]
    rfl
  -- `tcp_handle_fin_ack` finds nothing to acknowledge
  have hnofin : sncmp (takeText c.tcp seg).snd.una .ls seg.ack .le (takeText c.tcp seg).snd.nxt =
      false := by
    have hsnd : (takeText c.tcp seg).snd = c.tcp.snd := rfl
    rw [hsnd, h.una, h.nxt, sncmp_self_ls]
  rw [step, hreceived, receivedWhenEstablished_of_ack _ _ hacc hR hA, hF, if_pos rfl,
    textEstablished, hack, htext] at hd
  rw [tcpHandleFinAck_of_not _ { tcp := takeText c.tcp seg, log := _ } hnofin] at hd
  subst hd
  let ack := newSegment c.tcp c.tcp.snd.una (takeText c.tcp seg).rcv.nxt segFlagAck []
  refine ⟨rfl, ⟨?_, h.txData, h.una, h.nxt, hnxt⟩,
    ⟨connDatagram c.tcp ack, ?_, verifies_newSegment _ _ _ (by decide), rfl, hnxt⟩, ?_, ?_⟩
  · simp [takeText, h.txSeg]
  · simp [outputs, connDatagram, ack]
  · simp [acceptedBytes]
  · simp

theorem FinWaits.acked (h : FinWaits c n) (env : Env) {seg : Received}
    (hseg : AckSegment (n + 1) seg.toSegment) (next : State) :
    ackWhenClosing env c seg next = { tcpTxSegComplete c seg.ack with tcp.state := next } := by
  rcases h.txSeg with ⟨fin, hs, hF, hseq⟩
  have hA := (ctrl_of_flags_ack hseg.flags).1
  have hack : (fin.seq + 1 == seg.ack) = true := by
    rw [hseq, hseg.ack]
    exact beq_self_eq_true _
  rw [ackWhenClosing_of_fin env c hs hF, hA, hack]
  rfl

theorem ack_at_finWait1 (hst : c.tcp.state = .finWait1) (h : FinWaits c n) (seg : Received)
    (hseg : AckSegment (n + 1) seg.toSegment) (now : ℕ) :
    (step c (.received (.working now) seg)).tcp.state = .finWait2 ∧
      (step c (.received (.working now) seg)).tcp.snd = c.tcp.snd := by
  have hack := h.acked (.working now) hseg .finWait2
  have hreceived : step c (.received (.working now) seg) =
      { tcpTxSegComplete c seg.ack with tcp.state := .finWait2 } := by
    simp [step, tcpReceived, hst, receivedEventProcess, receivedWhenFinWait1, hack]
  rw [hreceived]
  exact ⟨rfl, tcpTxSegComplete_snd c seg.ack⟩

theorem ack_at_lastAck (hst : c.tcp.state = .lastAck) (h : FinWaits c n) (seg : Received)
    (hseg : AckSegment (n + 1) seg.toSegment) (now : ℕ) :
    (step c (.received (.working now) seg)).tcp.state = .closed := by
  have hack := h.acked (.working now) hseg .closed
  simp [step, tcpReceived, hst, receivedEventProcess, receivedWhenLastAck, hack]

/-- The FIN of the peer is acknowledged, and TIME_WAIT begins. -/
theorem fin_at_finWait2 [TimedTimerLib τ] (hst : c.tcp.state = .finWait2)
    (hlt : c.tcp.snd.una < c.tcp.snd.nxt) (seg : Received)
    (hfin : FinSegment r c.tcp.snd.nxt seg.toSegment) {now : ℕ}
    (hd : d = step c (.received (.working now) seg)) :
    d.tcp.state = .timeWait ∧ TimerLib.expired d.tcp.tmr (now + c.tcp.timeWaitSeconds) = true ∧
      Said (AckSegment (r + 1)) c d := by
  rcases ctrl_of_flags_finAck hfin.flags with ⟨hA, _, _, hF⟩
  have hAF : segCtrlAF seg.toSegment = true := by simp [segCtrlAF, hA, hF]
  have hcmp : sncmp c.tcp.snd.una .ls seg.ack .le c.tcp.snd.nxt = true := by
    rw [hfin.ack]
    exact (sncmp_ls_le_iff (UInt32.le_of_lt hlt) _).2 ⟨hlt, UInt32.le_refl _⟩
  simp only [step, tcpReceived, hst, receivedEventProcess, receivedWhenFinWait2, hAF, if_true,
    tcpHandleFinAck, hcmp, tcpSendCtrlSeg_working] at hd
  subst hd
  let ack := newSegment c.tcp seg.ack (seg.seq + 1) segFlagAck []
  refine ⟨rfl, ?_, ⟨connDatagram c.tcp ack, ?_, verifies_newSegment _ _ _ (by decide), rfl, ?_⟩, ?_,
    ?_⟩
  · simp [TimedTimerLib.expired_start, Env.working]
  · simp [outputs, connDatagram, newSegment, ack]
  · simp [connDatagram, newSegment, hfin.seq, ack]
  · simp [acceptedBytes]
  · simp

theorem step_loop_of_timeWait (hst : c.tcp.state = .timeWait) {now : ℕ}
    (hexp : TimerLib.expired c.tcp.tmr now = true) :
    (step c (.loop (.working now))).tcp.state = .closed := by
  simp [step, tcpLoopVisit, Env.working, hexp, tcpTimeout, hst, timeoutEventProcess,
    timeoutWhenTimeWait]

end End

/-! ## Both ends -/

/-- As in `LateOk`, but the user may call `tcp_close`. -/
def LateCloseOk (now k : ℕ) (peer : Conn τ) : Event → Prop
  | .close env => env.AllocOk ∧ now ≤ env.now
  | e => LateOk now k peer e

/-- The timers run, both users may close, what arrives was sent after `p`, and no clock goes back. -/
def SinceCloseOk (p : Pair τ) (t : TimedPair τ) : PairEvent → Prop
  | .atA e => LateCloseOk t.nowA p.b.log.length t.pair.b e
  | .atB e => LateCloseOk t.nowB p.a.log.length t.pair.a e

theorem LateOk.lateCloseOk {now k : ℕ} {e : Event} (h : LateOk now k y e) : LateCloseOk now k y e := by
  cases e with
  | close env => exact h.elim
  | _ => exact h

theorem SinceOk.sinceCloseOk {p : Pair τ} {t : TimedPair τ} {e : PairEvent} (h : SinceOk p t e) :
    SinceCloseOk p t e := by
  cases e with
  | atA e => exact LateOk.lateCloseOk h
  | atB e => exact LateOk.lateCloseOk h

theorem LateCloseOk.closeNetOk {now k : ℕ} {e : Event} (h : LateCloseOk now k y e) :
    CloseNetOk y e := by
  cases e with
  | received env seg => exact LateOk.netOk (e := .received env seg) h
  | close env => exact h.1
  | loop env => exact h.1
  | _ => exact h.elim

theorem SinceCloseOk.pairCloseOk {p : Pair τ} {t : TimedPair τ} {e : PairEvent}
    (h : SinceCloseOk p t e) : PairCloseOk t.pair e := by
  cases e with
  | atA e => exact LateCloseOk.closeNetOk h
  | atB e => exact LateCloseOk.closeNetOk h

section Pair

variable [TimerLib τ]

/-- `a` closes, then `b`. -/
theorem closing_run [TimedTimerLib τ] {p₀ p : Pair τ} {t : TimedPair τ} (ht : t.pair = p)
    (ha : p.a.tcp.state = .established) (hb : p.b.tcp.state = .established)
    (hdrainedA : Drained p.a n r) (hdrainedB : Drained p.b r n) (hlt : n < n + 1)
    (hwnd : p.b.tcp.rcv.wnd = 1500) (hwrap : ¬ WindowWraps p.b.tcp)
    (hlaterA : p₀.a.log.length ≤ p.a.log.length) (hlaterB : p₀.b.log.length ≤ p.b.log.length) :
    ∃ es, Machine.Along timedStep (SinceCloseOk p₀) t es ∧
      (runTimed t es).pair.a.tcp.state = .closed ∧ (runTimed t es).pair.b.tcp.state = .closed ∧
      acceptedBytes (runTimed t es).pair.a.log = acceptedBytes p.a.log ∧
      acceptedBytes (runTimed t es).pair.b.log = acceptedBytes p.b.log := by
  rcases t with ⟨q, nowA, nowB⟩
  change q = p at ht
  subst q
  have hclose : ∀ now, (Env.working now).AllocOk ∧ now ≤ now := fun now =>
    ⟨Env.allocOk_working now, Nat.le_refl now⟩
  let hear (now : ℕ) (dg : Datagram) : Event := .received (.working now) (dg.received [])
  -- the FIN of `a` goes out and is acknowledged
  let a₁ := step (step p.a (.close (.working nowA))) (.loop (.working (nowA + 1)))
  rcases close_sends (d := a₁) (Or.inl ha) hdrainedA rfl with ⟨hsta₁, hfina₁, hsaida₁⟩
  rw [ha] at hsta₁
  rcases hsaida₁.late hlaterA nowB with ⟨fin, hfin, hlate₁⟩
  have hacc : seqAccepted p.b.tcp (fin.received []).toSegment = true := by
    refine seqAccepted_of_inRun hwnd hwrap ?_
    have hseq : (fin.received []).toSegment.seq = p.b.tcp.rcv.nxt :=
      hfin.seq.trans hdrainedB.rcv.symm
    rw [hseq]
    exact inRun_self (by decide)
  let b₁ := step p.b (hear nowB fin)
  rcases fin_at_established (d := b₁) hb hdrainedB hwnd hacc hfin rfl with
      ⟨hstb₁, hdrainedb₁, hsaidb₁⟩
  rcases hsaidb₁.late hlaterB (nowA + 1) with ⟨ack, hack, hlate₂⟩
  let a₂ := step a₁ (hear (nowA + 1) ack)
  rcases ack_at_finWait1 hsta₁ hfina₁ (ack.received []) hack (nowA + 1) with ⟨hsta₂, hsnda₂⟩
  have hquieta₂ := quiet_step_of_ended (Or.inl hsta₁) (hear (nowA + 1) ack)
  have hlonger := (log_prefix_step a₁ (hear (nowA + 1) ack)).length_le
  -- and that of `b`
  let b₂ := step (step b₁ (.close (.working nowB))) (.loop (.working (nowB + 1)))
  rcases close_sends (d := b₂) (Or.inr hstb₁) hdrainedb₁ rfl with ⟨hstb₂, hfinb₂, hsaidb₂⟩
  rw [hstb₁] at hstb₂
  rcases hsaidb₂.late (hlaterB.trans hsaidb₁.longer) (nowA + 1) with ⟨fin', hfin', hlate₃⟩
  let a₃ := step a₂ (hear (nowA + 1) fin')
  have hnxt : a₂.tcp.snd.una = n ∧ a₂.tcp.snd.nxt = n + 1 :=
    ⟨(congrArg Snd.una hsnda₂).trans hfina₁.una, (congrArg Snd.nxt hsnda₂).trans hfina₁.nxt⟩
  rcases fin_at_finWait2 (d := a₃) hsta₂ (by rw [hnxt.1, hnxt.2]; exact hlt)
      (fin'.received []) (by rw [hnxt.2]; exact hfin') rfl with ⟨hsta₃, hexp, hsaida₃⟩
  rcases hsaida₃.late (hlaterA.trans (hsaida₁.longer.trans hlonger)) (nowB + 1) with
      ⟨ack', hack', hlate₄⟩
  have hclosedB := ack_at_lastAck hstb₂ hfinb₂ (ack'.received []) hack' (nowB + 1)
  have hlast : Ended b₂.tcp.state := by simp [hstb₂, closeState, Ended]
  have hquietB := quiet_step_of_ended hlast (hear (nowB + 1) ack')
  -- TIME_WAIT runs out
  let later := nowA + 1 + a₂.tcp.timeWaitSeconds
  have hclosedA := step_loop_of_timeWait hsta₃ hexp
  have hquietA := quiet_step_of_ended (Or.inr (Or.inr (Or.inl hsta₃))) (.loop (.working later))
  refine ⟨[.atA (.close (.working nowA)), .atA (.loop (.working (nowA + 1))), .atB (hear nowB fin),
    .atA (hear (nowA + 1) ack), .atB (.close (.working nowB)), .atB (.loop (.working (nowB + 1))),
    .atA (hear (nowA + 1) fin'), .atB (hear (nowB + 1) ack'), .atA (.loop (.working later))], ?_,
    hclosedA, hclosedB, ?_, ?_⟩
  · exact ⟨hclose nowA, lateOk_loop (Nat.le_succ nowA) p₀.b.log.length p.b, hlate₁, hlate₂,
      hclose nowB, lateOk_loop (Nat.le_succ nowB) p₀.a.log.length a₂, hlate₃, hlate₄,
      lateOk_loop (Nat.le_add_right (nowA + 1) _) p₀.b.log.length b₂, trivial⟩
  · exact hquietA.accepted.trans
      (hsaida₃.accepted.trans (hquieta₂.accepted.trans hsaida₁.accepted))
  · exact hquietB.accepted.trans (hsaidb₂.accepted.trans hsaidb₁.accepted)

/-- Where everything is delivered, nothing waits, and the peer expects what comes next. -/
theorem Going.drained [LawfulTimerLib τ] {s : Endpoint} (h : Going s x y) (hd : Delivered x y) :
    x.tcp.snd.nxt = x.tcp.snd.una ∧ y.tcp.rcv.nxt = x.tcp.snd.una := by
  have hstreaming := h.live.this.streaming h.this
  have huna := hstreaming.una_eq (d := y) (h.live.paced.openHistory h.live.this) h.live.paced.lined
  refine ⟨?_, ?_⟩
  · rw [hstreaming.nxt]
    simp [pendingBytes, hd.txSeg]
  · have hsame : (exchange x y).rcvd = (exchange x y).acked := by
      rcases h.live.inv with hsame | ⟨a, ha, _⟩
      · exact hsame
      · have hnone : (exchange x y).inFlight = none := pendingText_none hd.txSeg
        rw [hnone] at ha
        cases ha
    rw [h.live.toTandem.rcv_nxt_peer h.that, huna, hsame]

variable {a₀ b₀ : Conn τ} {p : Pair τ}

/-- From every state of every run of the data path in which both ends are ESTABLISHED, with the
numbers of both streams and the windows behind them below `2^32`, and whole words in every buffer that
is not yet acknowledged: the timers, `tcp_close` at both ends, and datagrams that were sent after this
state and that `tcp_unpack` accepts, bring both ends to CLOSED, and everything that was accepted has
been queued.  The clocks may show any time at first, and go on from there. -/
theorem closes_down [LastingTimerLib τ] (h : Connected a₀ b₀ p)
    (hlenA : a₀.tcp.snd.iss.toNat + (acceptedBytes p.a.log).length + 1502 ≤ 2 ^ 32)
    (hlenB : b₀.tcp.snd.iss.toNat + (acceptedBytes p.b.log).length + 1502 ≤ 2 ^ 32)
    (hwholeA : AllText WholeWords p.a) (hwholeB : AllText WholeWords p.b) (nowA nowB : ℕ) :
    ∃ gs, Machine.Along timedStep (SinceCloseOk p) ⟨p, nowA, nowB⟩ gs ∧
      let q := runPair p gs
      (q.a.tcp.state = .closed ∧ q.b.tcp.state = .closed) ∧
        (acceptedBytes q.a.log = acceptedBytes p.a.log ∧
          acceptedBytes q.b.log = acceptedBytes p.b.log) ∧
        NothingLost q.a q.b ∧ NothingLost q.b q.a := by
  let _ : LawfulTimerLib τ := TimedTimerLib.lawful τ
  let s : Endpoint := ⟨false, a₀.tcp.snd.iss, b₀.tcp.snd.iss⟩
  have hgoing : Going s p.a p.b := by
    rcases h.run with ⟨es, hes, rfl⟩
    exact going_run h.active h.passive hes h.a h.b hlenA hlenB hwholeA hwholeB
  -- first the text is brought over
  rcases hgoing.exists_delivered (LastingTimerLib.timersRun τ) nowA nowB with ⟨fs, hfs, hend, hdA, hdB⟩
  have hacceptedA : acceptedBytes (runPair p fs).a.log = acceptedBytes p.a.log := by
    rw [← flatten_acceptedBlocks, hend.acceptedA, flatten_acceptedBlocks]
  have hacceptedB : acceptedBytes (runPair p fs).b.log = acceptedBytes p.b.log := by
    rw [← flatten_acceptedBlocks, hend.acceptedB, flatten_acceptedBlocks]
  rcases hend.going.drained hdA with ⟨hnxtA, hrcvB⟩
  rcases hend.going.flip.drained hdB with ⟨hnxtB, hrcvA⟩
  have hlt : (runPair p fs).a.tcp.snd.una < (runPair p fs).a.tcp.snd.una + 1 := by
    have hle := hend.going.live.toTandem.length_rcvd_le
    have hthis := hend.going.unwrapped.this
    rw [← hrcvB, hend.going.live.toTandem.rcv_nxt_peer hend.going.that]
    refine lt_succ_of_toNat_lt ?_
    rw [Endpoint.toNat_sndSeq (by omega)]
    omega
  -- then the ends close
  have hwrap := hend.going.live.toTandem.not_wraps hend.going.unwrapped hend.going.that
  let t := runTimed ⟨p, nowA, nowB⟩ fs
  have ht : t.pair = runPair p fs := pair_runTimed _ fs
  rcases closing_run ht hend.going.this hend.going.that
      ⟨hdA.txSeg, hdA.txData, rfl, hnxtA, hrcvA⟩ ⟨hdB.txSeg, hdB.txData, rfl, hnxtB, hrcvB⟩ hlt
      hend.going.live.pacedPeer.wnd hwrap hend.laterA hend.laterB with
    ⟨es, hes, hclosedA, hclosedB, hsameA, hsameB⟩
  have hrun : (runTimed t es).pair = runPair p (fs ++ es) := by
    rw [pair_runTimed, ht]
    exact (Machine.run_append pairStep p fs es).symm
  have hgs : Machine.Along timedStep (SinceCloseOk p) ⟨p, nowA, nowB⟩ (fs ++ es) := by
    refine (Machine.along_append timedStep _ _ fs es).2 ⟨?_, hes⟩
    exact hfs.mono timedStep fun _ _ => SinceOk.sinceCloseOk
  rw [hrun] at hclosedA hclosedB hsameA hsameB
  have hA := hsameA.trans hacceptedA
  have hB := hsameB.trans hacceptedB
  -- and the whole run is one of those that lose nothing
  have hlen : longest (runPair p (fs ++ es)) + 1 < 2 ^ 32 := by
    have hmax : longest (runPair p (fs ++ es)) ≤ 2 ^ 32 - 1502 := by
      refine max_le ?_ ?_
      · rw [hA]
        omega
      · rw [hB]
        omega
    omega
  have hcloses : Machine.Along pairStep PairCloseOk p (fs ++ es) :=
    along_pair (hgs.mono timedStep fun _ _ => SinceCloseOk.pairCloseOk)
  have hparting := h.partingTo hlen hcloses (.refl _)
  exact ⟨fs ++ es, hgs, ⟨hclosedA, hclosedB⟩, ⟨hA, hB⟩, Parting.nothingLost hparting rfl,
    Parting.nothingLost hparting.flip rfl⟩

/-- Two bytes were queued, and their acknowledgment was lost. -/
theorem closes_down_sample :
    let p := runPair ⟨sampleConn 100 (some samplePeer), sampleServer⟩ (sampleExchange.take 6)
    p.a.tcp.txSeg ≠ none ∧ ∃ gs, Machine.Along timedStep (SinceCloseOk p) ⟨p, 104, 206⟩ gs ∧
      (runPair p gs).a.tcp.state = .closed ∧ (runPair p gs).b.tcp.state = .closed := by
  intro p
  have hconnected : Connected (sampleConn 100 (some samplePeer)) sampleServer p :=
    ⟨openedLossy_sampleConn 100, openedPassive_sampleServer, by decide,
      ⟨_, sampleExchange_take_ok 6, rfl⟩, by decide, by decide⟩
  have hwholeA : AllText WholeWords p.a := by
    refine ⟨by decide, fun seg hs _ => ?_⟩
    cases hs
    decide
  have hwholeB : AllText WholeWords p.b := by
    refine ⟨by decide, fun seg hs _ => ?_⟩
    cases hs
  rcases closes_down hconnected (by decide) (by decide) hwholeA hwholeB 104 206 with
      ⟨gs, hgs, hclosed, _⟩
  exact ⟨by decide, gs, hgs, hclosed⟩

end Pair

end Tcp
end DtsNet
