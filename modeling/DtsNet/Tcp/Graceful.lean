import DtsNet.Tcp.Incoming
import DtsNet.Tcp.Tandem

/-!
# Graceful — closing a connection between two ends of this stack

Once both ends were ESTABLISHED, either user may call `tcp_close` at any time, with text on its way
in both directions.  The FIN waits for the text before it, so that nothing is lost: an end that has
seen the FIN has queued everything, and an end that knows its FIN to be acknowledged is right.  Two
ends that close at the same time wait for each other forever: FIN_WAIT_1 does not answer a FIN.
-/

namespace DtsNet
namespace Tcp

open Ip Dblk History Slices

variable {τ : Type}

/-! ## From the data path -/

section Tandem

variable {s : Endpoint} {x y : Conn τ} {me you : Peer}

/-- What an end says before it is closed is part of its whole stream. -/
theorem utters_of_sends {sent rcvd : List Byte} {seg : Segment} (h : s.Sends sent rcvd seg)
    (hirs : me.irs = s.iss) (hsent : sent <+: me.stream) (m : ℕ) : Utters me m seg := by
  have hfin : segCtrlF seg = true → False := fun hF => by
    rw [h.fin] at hF
    cases hF
  have hsyn : segCtrlS seg = true → seg.seq = me.irs ∧ segCtrlF seg = false := fun hS =>
    ⟨(h.syn hS).trans hirs.symm, h.fin⟩
  refine ⟨?_, fun hF => (hfin hF).elim⟩
  by_cases htext : segCtrlS seg = false ∧ seg.payload ≠ []
  · rcases h.text htext.1 htext.2 with ⟨o, hseq, hslice⟩
    refine ⟨o, hsyn, fun _ _ => ⟨?_, hslice.mono hsent⟩, fun hF => (hfin hF).elim⟩
    rw [hseq, Endpoint.sndSeq, Peer.seq, hirs]
  · refine ⟨0, hsyn, fun hS h' => ?_, fun hF => (hfin hF).elim⟩
    rcases h' with h' | h'
    · exact absurd ⟨hS, h'⟩ htext
    · exact (hfin h').elim

/-- An end that was not closed, as one that may be. -/
theorem outgoing_of_tandem (h : Tandem s x y) (hst : x.tcp.state = .established)
    (hirs : me.irs = s.iss) (hwithin : acceptedBytes x.log <+: me.stream) :
    Outgoing me (queuedBytes y.log).length x := by
  have hstreaming : Streaming s x := by
    have hshape := h.this.shape
    rwa [hst] at hshape
  have hload : Loading True x := by
    have hshape := h.paced.send.shape
    rw [hst] at hshape
    exact hshape.toLoading
  have hbytes : acceptedBytes x.log = (exchange x y).acked.flatten ++ pendingBytes x.tcp ++
      waitingBytes x.tcp := by
    rw [← flatten_acceptedBlocks, ← h.paced.sent (d := y) h.this, StopAndWait.sent,
      List.flatten_append, List.flatten_append, ← flatten_pendingText]
    simp [exchange, waitingBytes, List.flatMap_def]
  have huna := hstreaming.una_eq (d := y) hload.toOpenHistory h.paced.lined
  refine ⟨⟨?_, ?_⟩, hwithin, fun hended => absurd hst hended.ne.1⟩
  · exact h.this.emits.imp_of_earlier fun pre seg hpre hsays =>
      utters_of_sends hsays hirs ((acceptedBytes_mono hpre).trans hwithin) _
  · rw [hst]
    refine ⟨⟨_, hbytes, ?_, ?_⟩, fun hs => ?_, fun seg hs => ?_⟩
    · rw [← flatten_queuedBlocks]
      exact h.inv.acked_prefix.flatten.length_le
    · rw [hstreaming.nxt, huna, Endpoint.sndSeq, Peer.seq, hirs]
      exact Circular.add_ofNat_add _ _ _
    · rw [hstreaming.nxt]
      simp [pendingBytes, hs]
    · exact (ctrl_of_flags_ack (hload.flags seg hs)).2.2.2

theorem incoming_of_tandem (h : Tandem s x y) (hst : x.tcp.state = .established)
    (hirs : you.irs = s.irs) (hwithin : acceptedBytes y.log <+: you.stream) : Incoming you x := by
  have hstreaming : Streaming s x := by
    have hshape := h.this.shape
    rwa [hst] at hshape
  have hqueued : queuedBytes x.log <+: you.stream := h.back.safe.trans hwithin
  have hseq : ∀ k, s.rcvSeq k = you.seq k := fun k => by
    rw [Endpoint.rcvSeq, Peer.seq, hirs]
  have hin : InOrder you x := ⟨hqueued, hstreaming.rcv.trans (hseq _)⟩
  have hnot : ¬ FinHeard x.tcp.state := by simp [hst, FinHeard]
  refine ⟨⟨?_, by rw [hst]; exact hin⟩, by simp [hst, Met], fun hheard => absurd hheard hnot,
    Nat.le_succ_of_le hqueued.length_le, fun _ => ⟨hin, ?_⟩⟩
  · refine h.this.emits.imp_of_earlier fun pre seg hpre hsays hA => ?_
    rcases hsays.ack hA with ⟨k, hk, hack⟩
    have hsofar := (queuedBytes_mono hpre).trans hqueued
    have hle := hsofar.length_le
    refine ⟨k, by omega, hack.trans (hseq k), ?_⟩
    -- what is acknowledged was queued
    rw [List.prefix_iff_eq_take.1 hsofar]
    exact List.take_prefix_take_left hk
  · refine h.this.emits.imp_of_earlier fun pre seg hpre hsays hA => ?_
    rcases hsays.ack hA with ⟨k, hk, hack⟩
    have hle := ((queuedBytes_mono hpre).trans hqueued).length_le
    exact ⟨k, by omega, hack.trans (hseq k)⟩

end Tandem

/-! ## Both ends -/

/-- What may happen to an end whose peer is `peer`: as before, but `tcp_close` may be called. -/
def CloseNetOk (peer : Conn τ) : Event → Prop
  | .close env => env.AllocOk
  | e => NetOk peer e

def PairCloseOk (p : Pair τ) : PairEvent → Prop
  | .atA e => CloseNetOk p.b e
  | .atB e => CloseNetOk p.a e

/-- The states that an end is in once its own FIN was acknowledged. -/
def Told (s : State) : Prop :=
  s = .finWait2 ∨ s = .timeWait ∨ s = .closed

/-- Both ends, where `me` and `you` are the whole streams of the one and the other. -/
structure Parting (me you : Peer) (x y : Conn τ) : Prop where
  out : Outgoing me (queuedBytes y.log).length x
  back : Outgoing you (queuedBytes x.log).length y
  hears : Incoming you x
  heard : Incoming me y
  told : Told x.tcp.state → FinHeard y.tcp.state
  toldPeer : Told y.tcp.state → FinHeard x.tcp.state

variable {x y : Conn τ} {me you : Peer}

theorem Parting.flip (h : Parting me you x y) : Parting you me y x :=
  ⟨h.back, h.out, h.heard, h.hears, h.toldPeer, h.told⟩

theorem parting_of_tandem {s : Endpoint} (h : Tandem s x y) (hx : x.tcp.state = .established)
    (hy : y.tcp.state = .established) (hme : me.irs = s.iss) (hyou : you.irs = s.irs)
    (hwithin : acceptedBytes x.log <+: me.stream) (hwithinPeer : acceptedBytes y.log <+: you.stream) :
    Parting me you x y := by
  refine ⟨outgoing_of_tandem h hx hme hwithin, outgoing_of_tandem h.flip hy hyou hwithinPeer,
    incoming_of_tandem h hx hyou hwithinPeer, incoming_of_tandem h.flip hy hme hwithin, ?_, ?_⟩
  · intro htold
    simp [hx, Told] at htold
  · intro htold
    simp [hy, Told] at htold

/-- An end gets there from FIN_WAIT_1 or LAST_ACK. -/
theorem told_of_follows {s s' : State} (hmet : Met s) (hno : ¬ Told s) (h : s' ∈ follows s)
    (htold : Told s') : (s = .finWait1 ∨ s = .lastAck) ∧ s' ≠ s := by
  have hne : s' ≠ s := fun heq => hno (heq ▸ htold)
  rcases hmet with rfl | rfl | rfl | rfl | rfl | rfl | rfl <;>
    simp only [follows, List.mem_cons, List.not_mem_nil, or_false] at h
  · rcases h with rfl | rfl | rfl <;> simp [Told] at htold
  · exact ⟨Or.inl rfl, hne⟩
  · exact absurd (Or.inl rfl) hno
  · rcases h with rfl | rfl <;> simp [Told] at htold
  · exact ⟨Or.inr rfl, hne⟩
  · exact absurd (Or.inr (Or.inl rfl)) hno
  · exact absurd (Or.inr (Or.inr rfl)) hno

/-- What arrives was sent by the peer. -/
theorem Parting.outOk (h : Parting me you x y) {e : Event} (hok : CloseNetOk y e) :
    OutOk me (queuedBytes y.log).length e := by
  cases e with
  | received env seg =>
      rcases hok with ⟨hmem, dg, hdg, beyond, rfl⟩
      refine ⟨hmem, fun hA => ?_⟩
      rcases meets_of_mem_outputs (lasting_ackCovered me) h.heard.emits.log hdg hA with
          ⟨k, hk, hack, hcov⟩
      have hle := hcov.length_le
      rw [List.length_take] at hle
      exact ⟨k, hk, hack, hle⟩
  | send env data =>
      exact ⟨hok.1, Nat.lt_of_le_of_lt hok.2.2 (by decide)⟩
  | recv data size =>
      trivial
  | close env =>
      exact hok
  | loop env =>
      trivial

theorem Parting.inOk (h : Parting me you x y) {e : Event} (hok : CloseNetOk y e) : InOk you x e := by
  cases e with
  | received env seg =>
      rcases hok with ⟨_, dg, hdg, beyond, rfl⟩
      exact meets_of_mem_outputs (lasting_utters you _) h.back.emits.log hdg
  | _ =>
      trivial

theorem Parting.bytesOnly (h : Parting me you x y) {e : Event} (hok : CloseNetOk y e)
    (hno : ¬ FinHeard y.tcp.state) :
    ∀ env seg, e = .received env seg → BytesOnly me seg.toSegment := by
  rintro env seg rfl
  rcases hok with ⟨_, dg, hdg, beyond, rfl⟩
  exact meets_of_mem_outputs (lasting_bytesOnly me) (h.heard.early hno).2.log hdg

section Step

variable [TimerLib τ]

/-- While the peer acknowledges bytes only, the FIN is not acknowledged. -/
theorem ackWhenClosing_state_of_bytesOnly {m : ℕ} {c : Conn τ} (env : Env)
    (hshape : Flowing me m c ∨ FinPending me m c) (hlen : me.stream.length + 1 < 2 ^ 32)
    {seg : Received} (hbytes : BytesOnly me seg.toSegment) (next : State) :
    (ackWhenClosing env c seg next).tcp.state = c.tcp.state := by
  rcases ackWhenClosing_cases env c seg next with
      hsame | ⟨s, hs, hF, hA, hack, _⟩ | ⟨s, _, _, _, _, htaken⟩
  · rw [hsame]
  · exfalso
    rcases hshape with h | h
    · rw [h.noFin s hs] at hF
      cases hF
    · rcases h.txSeg with ⟨fin, hfin, _, hseq⟩
      rw [hs] at hfin
      cases hfin
      rcases hbytes hA with ⟨k, hk, hk'⟩
      -- the number behind the FIN is that of no byte
      have heq : me.seq (me.stream.length + 1) = me.seq k := by
        rw [← hk', ← hack, hseq]
        exact (Circular.add_ofNat_add _ me.stream.length 1).symm
      have := Circular.ofNat_add_inj (by omega) (by omega) heq
      omega
  · rw [htaken, tcpConstructData_state]
    rfl

/-- An end that waits for its FIN to be acknowledged waits on. -/
theorem state_eq_of_bytesOnly {m : ℕ} {c : Conn τ} (hc : Outflow me m c)
    (hst : c.tcp.state = .finWait1 ∨ c.tcp.state = .lastAck) (hlen : me.stream.length + 1 < 2 ^ 32)
    {e : Event} (hbytes : ∀ env seg, e = .received env seg → BytesOnly me seg.toSegment) :
    (step c e).tcp.state = c.tcp.state := by
  cases e with
  | received env seg =>
      have hack : ∀ next, (ackWhenClosing env c seg next).tcp.state = c.tcp.state := by
        have hshape := hc.shape
        rcases hst with hst | hst <;> rw [hst] at hshape <;>
          exact ackWhenClosing_state_of_bytesOnly env hshape hlen (hbytes env seg rfl)
      rcases hst with hst | hst
      · have hstay : (receivedWhenFinWait1 env c seg).tcp.state = .finWait1 := by
          rw [receivedWhenFinWait1, if_pos ((hack _).trans hst), tcpContructFinAck_state, hack, hst]
        simp [step, tcpReceived, hst, receivedEventProcess, hstay]
      · have hstay : (receivedWhenLastAck env c seg).tcp.state = .lastAck := by
          rw [receivedWhenLastAck, if_pos ((hack _).trans hst), tcpContructFinAck_state, hack, hst]
        simp [step, tcpReceived, hst, receivedEventProcess, hstay]
  | send env data =>
      exact tcpSend_state env c data
  | recv data size =>
      exact recvEvent_state c data size
  | close env =>
      have hsparse : c.tcp.state ≠ .established ∧ c.tcp.state ≠ .closeWait := by
        rcases hst with hst | hst <;> simp [hst]
      rw [step, tcpClose_of_sparse env hsparse]
  | loop env =>
      rw [step]
      rcases tcpLoopVisit_cases env c with h | ⟨_, h⟩ | ⟨htw, _⟩ | ⟨_, _, h⟩
      · rw [h]
      · rw [h, tcpRetransmit_tcp]
        rfl
      · rcases hst with hst | hst <;> rw [hst] at htw <;> cases htw
      · rw [h]
        rfl

theorem parting_step (h : Parting me you x y) (hme : me.stream.length + 1 < 2 ^ 32)
    (hyou : you.stream.length + 1 < 2 ^ 32) {e : Event} (hok : CloseNetOk y e)
    (hwithin : acceptedBytes (step x e).log <+: me.stream)
    (hwhole : Ended (step x e).tcp.state → acceptedBytes (step x e).log = me.stream) :
    Parting me you (step x e) y := by
  have hgrows := (queuedBytes_mono (log_prefix_step x e)).length_le
  refine ⟨outgoing_step h.out hme (h.outOk hok) hwithin hwhole, h.back.mono hgrows,
    incoming_step h.hears hyou (h.inOk hok), h.heard, ?_, ?_⟩
  · intro htold
    by_cases hbefore : Told x.tcp.state
    · exact h.told hbefore
    · -- it would be the acknowledgment of a FIN that the peer has not seen
      by_contra hno
      rcases told_of_follows h.hears.met hbefore (step_mem_follows x e) htold with ⟨hst, hne⟩
      exact hne (state_eq_of_bytesOnly h.out.toOutflow hst hme (h.bytesOnly hok hno))
  · intro htold
    exact finHeard_of_follows (h.toldPeer htold) (step_mem_follows x e)

/-! ## Runs -/

/-- What an end on the way to `d` has accepted, compared with what `d` has. -/
def Before (c d : Conn τ) : Prop :=
  acceptedBytes c.log <+: acceptedBytes d.log ∧
    (Ended c.tcp.state → acceptedBytes c.log = acceptedBytes d.log)

theorem Before.back {c d : Conn τ} {e : Event} (h : Before (step c e) d) : Before c d := by
  refine ⟨(acceptedBytes_mono (log_prefix_step c e)).trans h.1, fun hended => ?_⟩
  rw [← (quiet_step_of_ended hended e).accepted]
  exact h.2 (ended_of_follows hended (step_mem_follows c e))

/-- Both ends at `p`, on the way to `t`. -/
def PairBefore (t p : Pair τ) : Prop :=
  Before p.a t.a ∧ Before p.b t.b

omit [TimerLib τ] in
theorem PairBefore.refl (p : Pair τ) : PairBefore p p :=
  ⟨⟨List.prefix_refl _, fun _ => rfl⟩, List.prefix_refl _, fun _ => rfl⟩

theorem PairBefore.back {t p : Pair τ} {e : PairEvent} (h : PairBefore t (pairStep p e)) :
    PairBefore t p := by
  cases e with
  | atA e => exact ⟨h.1.back, h.2⟩
  | atB e => exact ⟨h.1, h.2.back⟩

theorem PairBefore.back_run {t p : Pair τ} {es : List PairEvent} (h : PairBefore t (runPair p es)) :
    PairBefore t p :=
  Machine.of_run_back pairStep (fun _ _ => PairBefore.back) h

omit [TimerLib τ] in
theorem PairBefore.longest_le {t p : Pair τ} (h : PairBefore t p) : longest p ≤ longest t :=
  max_le_max h.1.1.length_le h.2.1.length_le

/-- The invariant on the way to `t`, where the streams are whole. -/
def PartingTo (s : Endpoint) (t p : Pair τ) : Prop :=
  Parting ⟨s.iss, acceptedBytes t.a.log⟩ ⟨s.irs, acceptedBytes t.b.log⟩ p.a p.b

variable {s : Endpoint} {p q t : Pair τ}

omit [TimerLib τ] in
theorem streams_lt_of_longest (hlen : longest t + 1 < 2 ^ 32) :
    (acceptedBytes t.a.log).length + 1 < 2 ^ 32 ∧ (acceptedBytes t.b.log).length + 1 < 2 ^ 32 := by
  have ha : (acceptedBytes t.a.log).length ≤ longest t := Nat.le_max_left _ _
  have hb : (acceptedBytes t.b.log).length ≤ longest t := Nat.le_max_right _ _
  exact ⟨Nat.lt_of_le_of_lt (Nat.succ_le_succ ha) hlen,
    Nat.lt_of_le_of_lt (Nat.succ_le_succ hb) hlen⟩

theorem partingTo_pairStep (hlen : longest t + 1 < 2 ^ 32) (h : PartingTo s t p) {e : PairEvent}
    (hok : PairCloseOk p e) (hbefore : PairBefore t (pairStep p e)) :
    PartingTo s t (pairStep p e) := by
  rcases streams_lt_of_longest hlen with ⟨hlenA, hlenB⟩
  cases e with
  | atA e =>
      exact parting_step h hlenA hlenB hok hbefore.1.1 hbefore.1.2
  | atB e =>
      exact (parting_step h.flip hlenB hlenA hok hbefore.2.1 hbefore.2.2).flip

theorem partingTo_run (hlen : longest t + 1 < 2 ^ 32) (h : PartingTo s t p) {fs : List PairEvent}
    (hok : Machine.Along pairStep PairCloseOk p fs) (hbefore : PairBefore t (runPair p fs)) :
    PartingTo s t (runPair p fs) :=
  Machine.run_invariant_of_back pairStep (fun _ _ => PairBefore.back)
    (fun _ _ h hok hbefore => partingTo_pairStep hlen h hok hbefore) h hok hbefore

end Step

/-! ## The results -/

section Results

variable [TimerLib τ]

/-- A run of the data path has brought both ends to ESTABLISHED. -/
structure Connected (a₀ b₀ : Conn τ) (p : Pair τ) : Prop where
  active : OpenedLossy a₀
  passive : OpenedPassive b₀
  iss : a₀.tcp.snd.iss < a₀.tcp.snd.iss + 1
  run : ∃ es, Machine.Along pairStep PairOk ⟨a₀, b₀⟩ es ∧ runPair ⟨a₀, b₀⟩ es = p
  a : p.a.tcp.state = .established
  b : p.b.tcp.state = .established

variable {a₀ b₀ : Conn τ} {p t : Pair τ} {fs gs : List PairEvent}

theorem Connected.partingTo (h : Connected a₀ b₀ p) (hlen : longest t + 1 < 2 ^ 32)
    (hok : Machine.Along pairStep PairCloseOk p fs) (hbefore : PairBefore t (runPair p fs)) :
    PartingTo ⟨false, a₀.tcp.snd.iss, b₀.tcp.snd.iss⟩ t (runPair p fs) := by
  rcases h.run with ⟨es, hes, hp⟩
  have hstart := hbefore.back_run
  have hle := hstart.longest_le
  have htandem := tandem_run h.active h.passive h.iss hes (by rw [hp]; omega)
  rw [hp] at htandem
  exact partingTo_run hlen
    (parting_of_tandem htandem h.a h.b rfl rfl hstart.1.1 hstart.2.1) hok hbefore

/-- What was given to `tcp_send` at the one end, and what was queued at the other. -/
structure NothingLost (src dst : Conn τ) : Prop where
  /-- Until its FIN is seen, bytes arrive in order and once. -/
  sofar : ¬ FinHeard dst.tcp.state → queuedBytes dst.log <+: acceptedBytes src.log
  /-- Its FIN comes behind all of them, and may be queued as one more. -/
  whole : FinHeard dst.tcp.state →
    ∃ behind, queuedBytes dst.log = acceptedBytes src.log ++ behind ∧ behind.length ≤ 1
  /-- A FIN that is acknowledged has been seen. -/
  told : Told src.tcp.state → FinHeard dst.tcp.state

omit [TimerLib τ] in
theorem Parting.nothingLost (h : Parting me you x y) (hme : me.stream = acceptedBytes x.log) :
    NothingLost x y := by
  refine ⟨fun hno => ?_, fun hheard => ?_, h.told⟩
  · rw [← hme]
    exact (h.heard.early hno).1.queued
  · rcases h.heard.whole hheard with ⟨behind, hbehind⟩
    refine ⟨behind, by rw [← hme, hbehind], ?_⟩
    have hmost := h.heard.most
    rw [← hbehind, List.length_append] at hmost
    omega

/-- Whoever calls `tcp_close`, and whenever: an end that has seen the FIN of its peer has queued all
that the peer accepted. -/
theorem close_loses_nothing (h : Connected a₀ b₀ p)
    (hok : Machine.Along pairStep PairCloseOk p fs) (hlen : longest (runPair p fs) + 1 < 2 ^ 32) :
    let q := runPair p fs
    NothingLost q.a q.b ∧ NothingLost q.b q.a := by
  have hend := h.partingTo hlen hok (.refl _)
  exact ⟨Parting.nothingLost hend rfl, Parting.nothingLost hend.flip rfl⟩

def samplePair : Pair Deadline :=
  runPair ⟨sampleConn 100 (some samplePeer), sampleServer⟩ sampleExchange

theorem connected_samplePair :
    Connected (sampleConn 100 (some samplePeer)) sampleServer samplePair :=
  ⟨openedLossy_sampleConn 100, openedPassive_sampleServer, by decide,
    ⟨sampleExchange, sampleExchange_ok, rfl⟩, by decide, by decide⟩

/-- The opener closes, and its FIN is acknowledged. -/
def sampleClose : List PairEvent :=
  let hear (now : ℕ) (dg : Datagram) : Event := .received (.working now) (dg.received [])
  [.atA (.close (.working 110)), .atA (.loop (.working 112)),
    .atB (hear 213 (sampleRequest 103 202 (segFlagFin ||| segFlagAck) [])),
    .atA (hear 114 (sampleAnswer 202 104 segFlagAck []))]

theorem close_loses_nothing_sample :
    let q := runPair samplePair sampleClose
    (q.a.tcp.state = .finWait2 ∧ q.b.tcp.state = .closeWait) ∧
      NothingLost q.a q.b ∧ NothingLost q.b q.a := by
  refine ⟨by decide, close_loses_nothing connected_samplePair ?_ (by decide)⟩
  refine ⟨Env.allocOk_working _, Env.allocOk_working _, ⟨Env.allocOk_working _, _, ?_, [], rfl⟩,
    ⟨Env.allocOk_working _, _, ?_, [], rfl⟩, trivial⟩
  all_goals decide

/-! ## Closing at the same time -/

/-- Both ends wait for their FIN to be acknowledged, and neither has seen the other's. -/
def Crossed (p : Pair τ) : Prop :=
  p.a.tcp.state = .finWait1 ∧ p.b.tcp.state = .finWait1

theorem Parting.waits_step (h : Parting me you x y) (hme : me.stream.length + 1 < 2 ^ 32)
    {e : Event} (hok : CloseNetOk y e) (hx : x.tcp.state = .finWait1)
    (hy : y.tcp.state = .finWait1) : (step x e).tcp.state = .finWait1 := by
  have hno : ¬ FinHeard y.tcp.state := by simp [hy, FinHeard]
  -- the peer acknowledges no FIN before it has seen one
  exact (state_eq_of_bytesOnly h.out.toOutflow (Or.inl hx) hme (h.bytesOnly hok hno)).trans hx

theorem crossed_pairStep {s : Endpoint} (hlen : longest t + 1 < 2 ^ 32) (h : PartingTo s t p)
    (hp : Crossed p) {e : PairEvent} (hok : PairCloseOk p e) : Crossed (pairStep p e) := by
  rcases streams_lt_of_longest hlen with ⟨hlenA, hlenB⟩
  cases e with
  | atA e =>
      exact ⟨h.waits_step hlenA hok hp.1 hp.2, hp.2⟩
  | atB e =>
      exact ⟨hp.1, h.flip.waits_step hlenB hok hp.2 hp.1⟩

/-- Two ends in FIN_WAIT_1 stay there: neither looks at the FIN of the other. -/
theorem simultaneous_close_stalls (h : Connected a₀ b₀ p)
    (hok : Machine.Along pairStep PairCloseOk p fs) (hcrossed : Crossed (runPair p fs))
    (hlater : Machine.Along pairStep PairCloseOk (runPair p fs) gs)
    (hlen : longest (runPair (runPair p fs) gs) + 1 < 2 ^ 32) :
    Crossed (runPair (runPair p fs) gs) := by
  let s : Endpoint := ⟨false, a₀.tcp.snd.iss, b₀.tcp.snd.iss⟩
  let t := runPair (runPair p fs) gs
  have hend : PairBefore t (runPair (runPair p fs) gs) := .refl t
  have hrun : PartingTo s t t ∧ Crossed t := by
    refine Machine.run_invariant_of_back pairStep (I := fun q => PartingTo s t q ∧ Crossed q)
      (fun _ _ => PairBefore.back) ?_ ⟨h.partingTo hlen hok hend.back_run, hcrossed⟩ hlater hend
    intro q e hq hok hbefore
    exact ⟨partingTo_pairStep hlen hq.1 hok hbefore, crossed_pairStep hlen hq.1 hq.2 hok⟩
  exact hrun.2

/-- Everything is acknowledged, and both users close. -/
def sampleCloses : List PairEvent :=
  [.atB (.received (.working 209) ((sampleRequest 103 202 segFlagAck []).received [])),
    .atA (.close (.working 110)), .atB (.close (.working 210))]

/-- The two FINs cross. -/
def sampleFinsCross : List PairEvent :=
  let hear (now : ℕ) (dg : Datagram) : Event := .received (.working now) (dg.received [])
  [.atA (.loop (.working 112)), .atB (.loop (.working 212)),
    .atB (hear 213 (sampleRequest 103 202 (segFlagFin ||| segFlagAck) [])),
    .atA (hear 114 (sampleAnswer 202 103 (segFlagFin ||| segFlagAck) []))]

theorem simultaneous_close_stalls_sample :
    Crossed (runPair (runPair samplePair sampleCloses) sampleFinsCross) := by
  refine simultaneous_close_stalls connected_samplePair ?_ ⟨by decide, by decide⟩ ?_ (by decide)
  · refine ⟨⟨Env.allocOk_working _, _, ?_, [], rfl⟩, Env.allocOk_working _, Env.allocOk_working _,
      trivial⟩
    decide
  · refine ⟨Env.allocOk_working _, Env.allocOk_working _, ⟨Env.allocOk_working _, _, ?_, [], rfl⟩,
      ⟨Env.allocOk_working _, _, ?_, [], rfl⟩, trivial⟩
    all_goals decide

/-! ## Closing too early -/

/-- `dst` was closed before it had queued all that `src` accepted, and has not seen the FIN of
`src`. -/
def Stranded (src dst : Conn τ) : Prop :=
  (dst.tcp.state = .finWait1 ∨ dst.tcp.state = .finWait2) ∧
    queuedBytes dst.log ≠ acceptedBytes src.log

/-- `bs` is all that an end will ever queue of the longer stream of `you`. -/
structure CutOff (you : Peer) (bs : List Byte) (c : Conn τ) : Prop where
  waits : c.tcp.state = .finWait1 ∨ c.tcp.state = .finWait2
  queued : queuedBytes c.log = bs
  short : bs.length < you.stream.length

variable {bs : List Byte}

omit [TimerLib τ] in
theorem CutOff.not_finHeard {c : Conn τ} (h : CutOff you bs c) : ¬ FinHeard c.tcp.state := by
  rcases h.waits with hst | hst <;> simp [hst, FinHeard]

/-- The FIN of the peer would come behind bytes that are never queued. -/
theorem Parting.cutOff_step (h : Parting me you x y) {e : Event} (hok : CloseNetOk y e)
    (hcut : CutOff you bs x) : CutOff you bs (step x e) := by
  have hended : Ended x.tcp.state :=
    h.hears.met.ended (by rcases hcut.waits with hst | hst <;> simp [hst])
  have hno : ¬ FinHeard (step x e).tcp.state := by
    intro hheard
    rcases fin_of_finHeard h.hears.met hcut.not_finHeard hheard with ⟨env, seg, rfl, hF⟩
    have hwhole := (h.inOk hok).2 hF
    rw [hcut.queued] at hwhole
    exact absurd hcut.short (Nat.not_lt.2 hwhole)
  have hmet := met_of_follows h.hears.met (step_mem_follows x e)
  have hended' := ended_of_follows hended (step_mem_follows x e)
  refine ⟨?_, (quiet_step_of_ended hended e).queued.trans hcut.queued, hcut.short⟩
  rcases hmet with hst | hst | hst | hst
  · exact absurd hst hended'.ne.1
  · exact Or.inl hst
  · exact Or.inr hst
  · exact absurd hst hno

omit [TimerLib τ] in
theorem NothingLost.cutOff (h : NothingLost y x) (hst : Stranded y x)
    (hyou : acceptedBytes y.log <+: you.stream) : CutOff you (queuedBytes x.log) x := by
  have hno : ¬ FinHeard x.tcp.state := by
    rcases hst.1 with hst | hst <;> simp [hst, FinHeard]
  have hpre := h.sofar hno
  refine ⟨hst.1, rfl, Nat.lt_of_lt_of_le ?_ hyou.length_le⟩
  exact Nat.lt_of_le_of_ne hpre.length_le fun heq => hst.2 (hpre.eq_of_length heq)

/-- What becomes of the end `src`, and of the end `dst` that was closed too early. -/
structure StrandedFrom (src dst src' dst' : Conn τ) : Prop where
  stranded : Stranded src' dst'
  /-- Nothing more is queued, and no FIN ever seen. -/
  queued : queuedBytes dst'.log = queuedBytes dst.log
  /-- The other end never has its FIN acknowledged. -/
  untold : ¬ Told src'.tcp.state

omit [TimerLib τ] in
theorem CutOff.strandedFrom {x' y' : Conn τ} (hcut : CutOff you (queuedBytes x.log) x')
    (h : Parting me you x' y') (hyou : you.stream = acceptedBytes y'.log) :
    StrandedFrom y x y' x' := by
  refine ⟨⟨hcut.waits, fun heq => ?_⟩, hcut.queued, fun htold => ?_⟩
  · have hshort := hcut.short
    rw [hyou, ← heq, hcut.queued] at hshort
    exact Nat.lt_irrefl _ hshort
  · exact hcut.not_finHeard (h.toldPeer htold)

/-- FIN_WAIT_1 and FIN_WAIT_2 queue no text.  What was still on its way when `tcp_close` was called is
never acknowledged, so that the other end never builds its FIN. -/
theorem close_strands_peer (h : Connected a₀ b₀ p)
    (hok : Machine.Along pairStep PairCloseOk p fs)
    (hlater : Machine.Along pairStep PairCloseOk (runPair p fs) gs)
    (hlen : longest (runPair (runPair p fs) gs) + 1 < 2 ^ 32) :
    let q := runPair p fs
    let r := runPair q gs
    (Stranded q.b q.a → StrandedFrom q.b q.a r.b r.a) ∧
      (Stranded q.a q.b → StrandedFrom q.a q.b r.a r.b) := by
  intro q r
  let s : Endpoint := ⟨false, a₀.tcp.snd.iss, b₀.tcp.snd.iss⟩
  have hend : PairBefore r (runPair q gs) := .refl r
  -- the streams are whole at `r`, so that the invariant speaks of what is accepted later
  have hq : PairBefore r q := hend.back_run
  have hlenq : longest q + 1 < 2 ^ 32 := Nat.lt_of_le_of_lt (Nat.succ_le_succ hq.longest_le) hlen
  have hnow : PartingTo s q q := h.partingTo hlenq hok (.refl q)
  let I : Pair τ → Prop := fun u => PartingTo s r u ∧
    (Stranded q.b q.a → CutOff ⟨s.irs, acceptedBytes r.b.log⟩ (queuedBytes q.a.log) u.a) ∧
    (Stranded q.a q.b → CutOff ⟨s.iss, acceptedBytes r.a.log⟩ (queuedBytes q.b.log) u.b)
  have hstart : I q := by
    refine ⟨h.partingTo hlen hok hq, fun hst => ?_, fun hst => ?_⟩
    · exact NothingLost.cutOff (Parting.nothingLost hnow.flip rfl) hst hq.2.1
    · exact NothingLost.cutOff (Parting.nothingLost hnow rfl) hst hq.1.1
  have hrun : I r := by
    refine Machine.run_invariant_of_back pairStep (I := I) (fun _ _ => PairBefore.back) ?_ hstart
      hlater hend
    rintro u e ⟨hparting, hcutA, hcutB⟩ hok hbefore
    refine ⟨partingTo_pairStep hlen hparting hok hbefore, ?_⟩
    cases e with
    | atA e => exact ⟨fun hst => hparting.cutOff_step hok (hcutA hst), hcutB⟩
    | atB e => exact ⟨hcutA, fun hst => hparting.flip.cutOff_step hok (hcutB hst)⟩
  rcases hrun with ⟨hparting, hcutA, hcutB⟩
  exact ⟨fun hst => (hcutA hst).strandedFrom hparting rfl,
    fun hst => (hcutB hst).strandedFrom hparting.flip rfl⟩

/-- The opener closes while a byte of the other end is on its way. -/
def sampleHasty : List PairEvent :=
  [.atB (.received (.working 209) ((sampleRequest 103 202 segFlagAck []).received [])),
    .atB (.send (.working 210) [4]), .atA (.close (.working 110))]

def sampleLate : List PairEvent :=
  let hear (now : ℕ) (dg : Datagram) : Event := .received (.working now) (dg.received [])
  [.atA (hear 111 (sampleAnswer 202 103 segFlagAck [4])), .atA (.loop (.working 112)),
    .atB (hear 213 (sampleRequest 103 202 (segFlagFin ||| segFlagAck) [])),
    .atB (.close (.working 214)), .atB (.loop (.working 216))]

theorem close_strands_peer_sample :
    let q := runPair samplePair sampleHasty
    let r := runPair q sampleLate
    (r.a.tcp.state = .finWait1 ∧ r.b.tcp.state = .lastAck) ∧ StrandedFrom q.b q.a r.b r.a := by
  refine ⟨by decide, (close_strands_peer connected_samplePair ?_ ?_ (by decide)).1
    ⟨by decide, by decide⟩⟩
  · refine ⟨⟨Env.allocOk_working _, _, ?_, [], rfl⟩, ⟨Env.allocOk_working _, by decide, by decide⟩,
      Env.allocOk_working _, trivial⟩
    decide
  · refine ⟨⟨Env.allocOk_working _, _, ?_, [], rfl⟩, Env.allocOk_working _,
      ⟨Env.allocOk_working _, _, ?_, [], rfl⟩, Env.allocOk_working _, Env.allocOk_working _, trivial⟩
    all_goals decide

end Results

end Tcp
end DtsNet
