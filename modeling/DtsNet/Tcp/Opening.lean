import DtsNet.Tcp.Closing
import DtsNet.Tcp.Recovery

/-!
# Opening — from where the handshake can still be completed

SYN_SENT and ESTABLISHED have a timeout handler, SYN_RECEIVED has none.  A lost SYN is sent again, and
the last acknowledgment is made up for by any segment that the opener sends with data, if the listener
accepts it.  A lost SYN,ACK is never made up for: the repeated SYN is out of the window of the listener,
which answers it with a bare acknowledgment, and this is no SYN,ACK.
-/

namespace DtsNet
namespace Tcp

open Ip Dblk History Slices

variable {τ : Type} [TimerLib τ]

/-! ## What is sent from now on -/

/-- Of the segments of the peer only those behind the first `n` entries of its record arrive. -/
def OnlyLater (n : ℕ) (peer : Conn τ) : Event → Prop
  | .received _ seg => ∃ dg ∈ outputs (peer.log.drop n), ∃ beyond, seg = dg.received beyond
  | _ => True

/-- Whatever happens, nothing that was sent before `p` arrives any more. -/
def PairLater (p q : Pair τ) : PairEvent → Prop
  | .atA e => OnlyLater p.b.log.length q.b e
  | .atB e => OnlyLater p.a.log.length q.a e

/-- Every segment sent behind the first `n` entries of the record has the property. -/
def SentLater (P : Segment → Prop) (n : ℕ) (log : List Action) : Prop :=
  n ≤ log.length ∧ ∀ dg ∈ outputs (log.drop n), P dg.seg

omit [TimerLib τ] in
theorem sentLater_length (P : Segment → Prop) (log : List Action) : SentLater P log.length log :=
  ⟨Nat.le_refl _, by simp [outputs]⟩

omit [TimerLib τ] in
theorem SentLater.append {P : Segment → Prop} {n : ℕ} {log l : List Action} (h : SentLater P n log)
    (hl : ∀ dg ∈ outputs l, P dg.seg) : SentLater P n (log ++ l) := by
  refine ⟨?_, ?_⟩
  · rw [List.length_append]
    exact h.1.trans (Nat.le_add_right _ _)
  · intro dg hdg
    rw [List.drop_append_of_le_length h.1, outputs, List.filterMap_append] at hdg
    rcases List.mem_append.1 hdg with hdg | hdg
    · exact h.2 dg hdg
    · exact hl dg hdg

omit [TimerLib τ] in
theorem eq_of_mem_outputs_singleton {dg dg' : Datagram} {sent : Bool}
    (h : dg' ∈ outputs [.output (some dg) sent]) : dg' = dg := by
  cases sent with
  | true =>
      simpa [outputs] using h
  | false =>
      simp [outputs] at h

omit [TimerLib τ] in
theorem SentLater.concat {P : Segment → Prop} {n : ℕ} {log : List Action} (h : SentLater P n log)
    {dg : Datagram} {sent : Bool} (hdg : P dg.seg) :
    SentLater P n (log ++ [.output (some dg) sent]) := by
  refine h.append fun dg' hdg' => ?_
  rw [eq_of_mem_outputs_singleton hdg']
  exact hdg

/-! ## A lost SYN,ACK -/

/-- The opener has nothing but its SYN to send. -/
structure OpenerWaits (isn : UInt32) (n : ℕ) (c : Conn τ) : Prop where
  state : c.tcp.state = .synSent
  iss : c.tcp.snd.iss = isn
  nxt : c.tcp.snd.nxt = isn + 1
  raw : ∀ seg r, c.tcp.txSeg = some seg → seg.rawData = some r → r.flags = segFlagSyn
  sent : SentLater (fun seg => seg.flags = segFlagSyn) n c.log

/-- The listener has nothing but acknowledgments of the SYN to send. -/
structure ListenerWaits (isn : UInt32) (n : ℕ) (c : Conn τ) : Prop where
  state : c.tcp.state = .synReceived
  rcv : c.tcp.rcv.nxt = isn + 1
  sent : SentLater (fun seg => seg.flags = segFlagAck ∧ seg.ack = isn + 1) n c.log

section Waits

variable {isn : UInt32} {n : ℕ} {c : Conn τ}

/-- A bare acknowledgment of the SYN changes nothing in SYN_SENT. -/
theorem receivedWhenSynSent_of_ack (env : Env) {seg : Received} (hflags : seg.flags = segFlagAck)
    (hack : seg.ack = c.tcp.snd.nxt) (hlt : c.tcp.snd.iss < c.tcp.snd.nxt) :
    receivedWhenSynSent env c seg = c := by
  rcases ctrl_of_flags_ack hflags with ⟨_, hS, hR, _⟩
  have hcmp : sncmp c.tcp.snd.iss .ls seg.ack .le c.tcp.snd.nxt = true := by
    rw [hack, sncmp_ls_le_iff (UInt32.le_of_lt hlt)]
    exact ⟨hlt, UInt32.le_refl _⟩
  rcases receivedWhenSynSent_cases env c seg with h | ⟨_, _, hno, _⟩ | ⟨_, _, ⟨hR', _⟩ | ⟨_, hS', _⟩⟩
  · exact h
  · rw [hcmp] at hno
    cases hno
  · rw [hR] at hR'
    cases hR'
  · rw [hS] at hS'
    cases hS'

theorem OpenerWaits.step (h : OpenerWaits isn n c) (hisn : isn < isn + 1) {e : Event}
    (hack : ∀ env seg, e = .received env seg → seg.flags = segFlagAck ∧ seg.ack = isn + 1) :
    OpenerWaits isn n (step c e) := by
  have hst := h.state
  cases e with
  | received env seg =>
      rcases hack env seg rfl with ⟨hflags, hnum⟩
      have heq : Tcp.step c (.received env seg) = c := by
        have hlt : c.tcp.snd.iss < c.tcp.snd.nxt := by
          rw [h.iss, h.nxt]
          exact hisn
        have hhandler := receivedWhenSynSent_of_ack env hflags (hnum.trans h.nxt.symm) hlt
        simpa [Tcp.step, tcpReceived, hst, receivedEventProcess] using hhandler
      rw [heq]
      exact h
  | send env data =>
      have heq : Tcp.step c (.send env data) = c := by
        rw [Tcp.step, tcpSend_of_not env c (by simp [hst])]
      rw [heq]
      exact h
  | recv data size =>
      rcases recvEvent_log c data size with ⟨bs, hlog⟩
      refine ⟨by simp [Tcp.step, hst], by simp [Tcp.step, h.iss], by simp [Tcp.step, h.nxt], ?_, ?_⟩
      · simpa [Tcp.step] using h.raw
      · rw [Tcp.step, hlog]
        exact h.sent.append (by simp [outputs])
  | close env =>
      have heq : Tcp.step c (.close env) = c := by
        simp [Tcp.step, tcpClose, hst, closeEventProcess]
      rw [heq]
      exact h
  | loop env =>
      rcases tcpLoopVisit_cases env c with heq | ⟨_, heq⟩ | ⟨htw, _⟩ | ⟨hno, _⟩
      · rw [Tcp.step, heq]
        exact h
      · -- the SYN goes out again
        have htcp := tcpRetransmit_tcp env (stopTimer c)
        rw [Tcp.step, heq]
        refine ⟨by rw [htcp]; exact hst, by rw [htcp]; exact h.iss, by rw [htcp]; exact h.nxt,
          by rw [htcp]; exact h.raw, ?_⟩
        rcases tcpRetransmit_log env (stopTimer c) with hlog | ⟨seg, sent, hs, hlog⟩
        · rw [hlog]
          exact h.sent
        · rw [hlog]
          cases hraw : seg.rawData with
          | none =>
              exact h.sent.append (by simp [outputs])
          | some r =>
              exact h.sent.concat (h.raw seg r hs hraw)
      · rw [hst] at htw
        cases htw
      · exact absurd (Or.inl hst) hno

omit [TimerLib τ] in
/-- A repeated SYN is answered with a bare acknowledgment, or not at all. -/
theorem ListenerWaits.received (h : ListenerWaits isn n c) (env : Env) {seg : Received}
    (hflags : seg.flags = segFlagSyn) : ListenerWaits isn n (receivedWhenSynReceived env c seg) := by
  rcases ctrl_of_flags_syn hflags with ⟨hA, _, hR, _⟩
  cases hacc : seqAccepted c.tcp seg.toSegment with
  | true =>
      rw [receivedWhenSynReceived_of_no_ack env c hacc hR hA]
      exact h
  | false =>
      rw [receivedWhenSynReceived_of_rejected env c hacc]
      refine ⟨by simp [h.state], by simp [h.rcv], ?_⟩
      rcases (processReceivedSeq_of_rejected env c hacc).2 with heq | ⟨_, heq⟩
      · rw [heq]
        exact h.sent
      · rw [heq, tcpSendCtrlSeg_log]
        exact h.sent.concat ⟨rfl, h.rcv⟩

/-- Without a segment nothing happens in LISTEN and SYN_RECEIVED but that the timer may stop. -/
theorem step_quiet (hst : c.tcp.state = .listen ∨ c.tcp.state = .synReceived) {e : Event}
    (he : ¬ ∃ env seg, e = .received env seg) :
    ∃ t l, step c e = { tcp := { c.tcp with tmr := t }, log := c.log ++ l } ∧ outputs l = [] := by
  have hsame : ∃ t l, c = { tcp := { c.tcp with tmr := t }, log := c.log ++ l } ∧ outputs l = [] :=
    ⟨c.tcp.tmr, [], by simp, rfl⟩
  cases e with
  | received env seg =>
      exact absurd ⟨env, seg, rfl⟩ he
  | send env data =>
      have hne : c.tcp.state ≠ .established := by rcases hst with hst | hst <;> simp [hst]
      rw [step, tcpSend_of_not env c hne]
      exact hsame
  | recv data size =>
      have hrecv : (tcpRecv c data size).1 = c := by
        rcases hst with hst | hst <;> simp [tcpRecv, hst, recvEventProcess]
      refine ⟨c.tcp.tmr, [.returned (memRead (tcpRecv c data size).2.1 (tcpRecv c data size).2.2)],
        ?_, rfl⟩
      simp [step, recvEvent, hrecv]
  | close env =>
      have hclose : tcpClose env c = c := by
        rcases hst with hst | hst <;> simp [tcpClose, hst, closeEventProcess]
      rw [step, hclose]
      exact hsame
  | loop env =>
      rcases tcpLoopVisit_cases env c with heq | ⟨hre, _⟩ | ⟨htw, _⟩ | ⟨_, _, heq⟩
      · rw [step, heq]
        exact hsame
      · rcases hst with hst | hst <;> simp [Retransmits, hst] at hre
      · rcases hst with hst | hst <;> simp [hst] at htw
      · exact ⟨TimerLib.stop c.tcp.tmr, [], by simp [step, heq, stopTimer], rfl⟩

theorem ListenerWaits.step (h : ListenerWaits isn n c) {e : Event}
    (hsyn : ∀ env seg, e = .received env seg → seg.flags = segFlagSyn) :
    ListenerWaits isn n (step c e) := by
  have hst := h.state
  by_cases he : ∃ env seg, e = .received env seg
  · rcases he with ⟨env, seg, rfl⟩
    have hhandler := h.received env (hsyn env seg rfl)
    simpa [Tcp.step, tcpReceived, hst, receivedEventProcess] using hhandler
  · rcases step_quiet (Or.inr hst) he with ⟨t, l, heq, hl⟩
    rw [heq]
    exact ⟨hst, h.rcv, h.sent.append (by simp [hl])⟩

end Waits

/-- The SYN,ACK that took the listener to SYN_RECEIVED will not arrive. -/
structure Stalled (isn : UInt32) (p q : Pair τ) : Prop where
  opener : OpenerWaits isn p.a.log.length q.a
  listener : ListenerWaits isn p.b.log.length q.b

theorem Stalled.step {isn : UInt32} {p q : Pair τ} (h : Stalled isn p q) (hisn : isn < isn + 1)
    {e : PairEvent} (hlater : PairLater p q e) : Stalled isn p (pairStep q e) := by
  cases e with
  | atA e =>
      refine ⟨h.opener.step hisn ?_, h.listener⟩
      rintro env seg rfl
      rcases hlater with ⟨dg, hdg, beyond, rfl⟩
      exact h.listener.sent.2 dg hdg
  | atB e =>
      refine ⟨h.opener, h.listener.step ?_⟩
      rintro env seg rfl
      rcases hlater with ⟨dg, hdg, beyond, rfl⟩
      exact h.opener.sent.2 dg hdg

/-! ## What the two ends know of each other -/

section Meeting

variable [LawfulTimerLib τ] {s : Endpoint}

/-- Beside `Live`: neither end is ahead of the handshake. -/
structure Meeting (s : Endpoint) (p : Pair τ) : Prop where
  live : Live s p.a p.b
  syn : p.a.tcp.state = .synSent → ∀ dg ∈ outputs p.a.log, dg.seg.flags = segFlagSyn
  silent : p.b.tcp.state = .listen → p.a.tcp.state = .synSent ∧ outputs p.b.log = []
  second : p.b.tcp.state = .established → p.a.tcp.state = .established
  una : p.b.tcp.state ≠ .established → p.b.tcp.snd.una = s.irs
  synSent : SynSentInv p.a

theorem Live.openerWaits {x y : Conn τ} (h : Live s x y) (hst : x.tcp.state = .synSent) {n : ℕ}
    (hsent : SentLater (fun seg => seg.flags = segFlagSyn) n x.log) : OpenerWaits s.iss n x := by
  have hshape := h.this.shape
  have hopening := h.paced.send.shape
  rw [hst] at hshape hopening
  refine ⟨hst, h.this.iss, hshape.2.2, ?_, hsent⟩
  intro seg r hs hraw
  rcases hopening.txSeg with ⟨seg', hs', hflags, _⟩
  rcases h.ready.retransmit.packed seg hs with ⟨r', hr', hid⟩
  rw [hs] at hs'
  cases hs'
  rw [hraw] at hr'
  cases hr'
  exact (Segment.flags_of_identity hid).trans hflags

theorem Live.listenerWaits {x y : Conn τ} (h : Live s x y) (hst : y.tcp.state = .synReceived) :
    ListenerWaits s.iss y.log.length y := by
  have hshape := h.that.shape
  rw [hst] at hshape
  exact ⟨hst, hshape.2.2.2.2, sentLater_length _ _⟩

/-- The states of the two ends. -/
theorem Live.states {x y : Conn τ} (h : Live s x y) (hactive : s.passive = false) :
    (x.tcp.state = .synSent ∨ x.tcp.state = .established) ∧
      (y.tcp.state = .listen ∨ y.tcp.state = .synReceived ∨ y.tcp.state = .established) := by
  have hx := h.this.shape
  have hy := h.that.shape
  refine ⟨?_, ?_⟩
  · rcases h.this.state with hst | hst | hst | hst
    · rw [hst] at hx
      have hno := hx.1
      simp [hactive] at hno
    · exact Or.inl hst
    · rw [hst] at hx
      have hno := hx.1
      simp [hactive] at hno
    · exact Or.inr hst
  · rcases h.that.state with hst | hst | hst | hst
    · exact Or.inl hst
    · rw [hst] at hy
      have hno := hy.1
      simp [Endpoint.peer, hactive] at hno
    · exact Or.inr (Or.inl hst)
    · exact Or.inr (Or.inr hst)

/-- An opener that is in SYN_SENT still has sent nothing but SYNs. -/
theorem meeting_step_syn {x y : Conn τ} (h : Live s x y) (hactive : s.passive = false)
    (hiss : s.iss < s.iss + 1) {e : Event} (hnext : Live s (step x e) y)
    (hsyn : x.tcp.state = .synSent → ∀ dg ∈ outputs x.log, dg.seg.flags = segFlagSyn)
    (hst' : (step x e).tcp.state = .synSent) :
    ∀ dg ∈ outputs (step x e).log, dg.seg.flags = segFlagSyn := by
  have hst : x.tcp.state = .synSent := by
    rcases (h.states hactive).1 with hst | hst
    · exact hst
    · rw [established_step hnext.this hst] at hst'
      cases hst'
  have hwaits := h.openerWaits hst (n := 0) ⟨Nat.zero_le _, hsyn hst⟩
  by_cases harrives : ∃ env seg, e = .received env seg
  · rcases harrives with ⟨env, seg, rfl⟩
    have hstep : step x (.received env seg) = receivedWhenSynSent env x seg := by
      simp [step, tcpReceived, hst, receivedEventProcess]
    have hno : ∀ dg ∈ outputs (step x (.received env seg)).log, segCtrlR dg.seg = false := by
      intro dg hdg
      by_contra hR
      have hsaid : s.Says _ dg.seg := meets_of_mem_outputs s.lasting_says hnext.this.emits.log hdg
      have hpassive := (hsaid.rst (by simpa using hR)).1
      rw [hactive] at hpassive
      cases hpassive
    rw [hstep] at hst' hno ⊢
    rcases receivedWhenSynSent_cases env x seg with
        heq | ⟨_, _, _, heq⟩ | ⟨_, _, ⟨_, heq⟩ | ⟨_, _, _, heq⟩⟩
    · rw [heq]
      exact hsyn hst
    · -- a RST that went out would be one of the opener
      rw [heq, tcpSendCtrlSeg_log] at hno ⊢
      refine (hwaits.sent.append (l := [_]) fun dg hdg => ?_).2
      have hR := hno dg (by
        rw [outputs, List.filterMap_append]
        exact List.mem_append_right _ hdg)
      have hflags : dg.seg.flags = segFlagRst := by
        rw [eq_of_mem_outputs_singleton hdg]
        rfl
      rw [(ctrl_of_flags_rst hflags).2.2.1] at hR
      cases hR
    · rw [heq] at hst'
      cases hst'
    · rw [heq] at hst' ⊢
      rcases synAckReply_cases env x seg with ⟨_, _, hlog | ⟨dg, _, hlog⟩⟩ | ⟨_, _, hest⟩
      · rw [hlog]
        exact hsyn hst
      · rw [hlog]
        exact (hwaits.sent.append (by simp [outputs])).2
      · rw [hest, tcpTxSegComplete_state] at hst'
        cases hst'
  · exact (hwaits.step hiss fun env seg he => absurd ⟨env, seg, he⟩ harrives).sent.2

/-- An event at the opener. -/
theorem meeting_atA {p : Pair τ} (h : Meeting s p) (hactive : s.passive = false)
    (hiss : s.iss < s.iss + 1) {e : Event} (hok : NetOk p.b e) (hnext : Live s (step p.a e) p.b) :
    Meeting s { p with a := step p.a e } := by
  refine ⟨hnext, meeting_step_syn h.live hactive hiss hnext h.syn, ?_,
    fun hb => established_step hnext.this (h.second hb), h.una, synSentInv_step p.a e h.synSent⟩
  intro hb
  rcases h.silent hb with ⟨hst, hout⟩
  refine ⟨?_, hout⟩
  have hwaits := h.live.openerWaits hst (n := 0) ⟨Nat.zero_le _, h.syn hst⟩
  refine (hwaits.step hiss ?_).state
  rintro env seg rfl
  rcases hok with ⟨_, dg, hdg, _⟩
  rw [hout] at hdg
  exact absurd hdg List.not_mem_nil

omit [TimerLib τ] [LawfulTimerLib τ] in
/-- In LISTEN the SYN is taken when the SYN,ACK goes out, and not otherwise. -/
theorem receivedWhenListen_of_syn (env : Env) {c : Conn τ} (hst : c.tcp.state = .listen)
    (seg : Received) (hflags : seg.flags = segFlagSyn) :
    (receivedWhenListen env c seg).tcp.snd.una = c.tcp.snd.una ∧
      ((receivedWhenListen env c seg).tcp.state = .synReceived ∨
        (receivedWhenListen env c seg).tcp.state = .listen ∧
          outputs (receivedWhenListen env c seg).log = outputs c.log) := by
  rcases ctrl_of_flags_syn hflags with ⟨hA, hS, hR, _⟩
  have hreply : receivedWhenListen env c seg = synReply env c seg := by
    simp only [receivedWhenListen, hA, hS, hR]
    rfl
  rw [hreply, synReply_tcp, synReply_log]
  cases hsend : env.ipHlSend c.log with
  | true =>
      exact ⟨rfl, Or.inl rfl⟩
  | false =>
      exact ⟨rfl, Or.inr ⟨hst, by simp [outputs]⟩⟩

omit [TimerLib τ] [LawfulTimerLib τ] in
/-- In SYN_RECEIVED, from a peer that neither resets nor closes. -/
theorem receivedWhenSynReceived_of_peer (env : Env) (c : Conn τ) (seg : Received)
    (hR : segCtrlR seg.toSegment = false) (hF : segCtrlF seg.toSegment = false) :
    (receivedWhenSynReceived env c seg).tcp = c.tcp ∨
      segCtrlA seg.toSegment = true ∧
        (receivedWhenSynReceived env c seg).tcp.state = .established := by
  cases hacc : seqAccepted c.tcp seg.toSegment with
  | false =>
      left
      rw [receivedWhenSynReceived_of_rejected env c hacc, processReceivedSeq_tcp]
  | true =>
      cases hA : segCtrlA seg.toSegment with
      | false =>
          left
          rw [receivedWhenSynReceived_of_no_ack env c hacc hR hA]
      | true =>
          rw [receivedWhenSynReceived_of_ack env c hacc hR hA, hF, if_neg Bool.false_ne_true]
          cases hcmp : sncmp c.tcp.snd.una .le seg.ack .le c.tcp.snd.nxt with
          | false =>
              left
              rw [ackSynReceived_of_not env c hcmp, tcpSendCtrlSeg_rst_tcp]
          | true =>
              right
              exact ⟨rfl, by rw [ackSynReceived_of env c hcmp]⟩

/-- An event at the listener. -/
theorem meeting_atB {p : Pair τ} (h : Meeting s p) (hactive : s.passive = false) {e : Event}
    (hok : NetOk p.a e) (hnext : Live s p.a (step p.b e)) : Meeting s { p with b := step p.b e } := by
  rcases (h.live.states hactive).2 with hst | hst | hst
  · rcases h.silent hst with ⟨ha, hout⟩
    have huna := h.una (by simp [hst])
    by_cases he : ∃ env seg, e = .received env seg
    · rcases he with ⟨env, seg, rfl⟩
      rcases hok with ⟨_, dg, hdg, beyond, rfl⟩
      have hstep : step p.b (.received env (dg.received beyond)) =
          receivedWhenListen env p.b (dg.received beyond) := by
        simp [step, tcpReceived, hst, receivedEventProcess]
      rcases receivedWhenListen_of_syn env hst (dg.received beyond) (h.syn ha dg hdg) with
        ⟨huna', hst' | ⟨hst', hout'⟩⟩
      · refine ⟨hnext, h.syn, ?_, ?_, ?_, h.synSent⟩
        · intro hlisten
          simp [hstep, hst'] at hlisten
        · intro hest
          simp [hstep, hst'] at hest
        · intro _
          exact (congrArg (fun c => c.tcp.snd.una) hstep).trans (huna'.trans huna)
      · refine ⟨hnext, h.syn, fun _ => ⟨ha, ?_⟩, ?_, ?_, h.synSent⟩
        · exact (congrArg (fun c => outputs c.log) hstep).trans (hout'.trans hout)
        · intro hest
          simp [hstep, hst'] at hest
        · intro _
          exact (congrArg (fun c => c.tcp.snd.una) hstep).trans (huna'.trans huna)
    · rcases step_quiet (Or.inl hst) he with ⟨t, l, heq, hl⟩
      rw [heq] at hnext ⊢
      refine ⟨hnext, h.syn, fun _ => ⟨ha, ?_⟩, fun hest => ?_, fun _ => huna, h.synSent⟩
      · simp only [outputs, List.filterMap_append] at hl hout ⊢
        rw [hl, hout]
        rfl
      · exact h.second hest
  · have huna := h.una (by simp [hst])
    by_cases he : ∃ env seg, e = .received env seg
    · rcases he with ⟨env, seg, rfl⟩
      rcases hok with ⟨_, dg, hdg, beyond, rfl⟩
      have hstep : step p.b (.received env (dg.received beyond)) =
          receivedWhenSynReceived env p.b (dg.received beyond) := by
        simp [step, tcpReceived, hst, receivedEventProcess]
      have hsaid : s.Says p.a.log dg.seg :=
        meets_of_mem_outputs s.lasting_says h.live.this.emits.log hdg
      have hR : segCtrlR dg.seg = false := by
        by_contra hR
        have hpassive := (hsaid.rst (by simpa using hR)).1
        rw [hactive] at hpassive
        cases hpassive
      rcases receivedWhenSynReceived_of_peer env p.b (dg.received beyond) hR hsaid.fin with
        htcp | ⟨hA, hest⟩
      · refine ⟨hnext, h.syn, ?_, ?_, ?_, h.synSent⟩
        · intro hlisten
          simp [hstep, htcp, hst] at hlisten
        · intro hest
          simp [hstep, htcp, hst] at hest
        · intro _
          simp [hstep, htcp, huna]
      · refine ⟨hnext, h.syn, ?_, fun _ => ?_, ?_, h.synSent⟩
        · intro hlisten
          simp [hstep, hest] at hlisten
        · -- a SYN would not have acknowledged anything
          refine (h.live.states hactive).1.resolve_left fun ha => ?_
          have hno := (ctrl_of_flags_syn (h.syn ha dg hdg)).1
          have hyes : segCtrlA dg.seg = true := hA
          rw [hno] at hyes
          cases hyes
        · intro hne
          simp [hstep, hest] at hne
    · rcases step_quiet (Or.inr hst) he with ⟨t, l, heq, _⟩
      rw [heq] at hnext ⊢
      refine ⟨hnext, h.syn, fun hlisten => ?_, h.second, fun _ => huna, h.synSent⟩
      simp [hst] at hlisten
  · have hst' := established_step hnext.that hst
    refine ⟨hnext, h.syn, fun hlisten => ?_, fun _ => h.second hst, fun hne => ?_, h.synSent⟩
    · rw [hst'] at hlisten
      cases hlisten
    · exact absurd hst' hne

theorem meeting_pairStep {p : Pair τ} (h : Meeting s p) (hactive : s.passive = false)
    (hiss : s.iss < s.iss + 1) {e : PairEvent} (hok : PairOk p e) (hlen : longest p + 1 < 2 ^ 32) :
    Meeting s (pairStep p e) := by
  have hnext := live_pairStep h.live hactive hiss hok hlen
  cases e with
  | atA e =>
      exact meeting_atA h hactive hiss hok hnext
  | atB e =>
      exact meeting_atB h hactive hok hnext

theorem meeting_opened {a b : Conn τ} (ha : OpenedLossy a) (hb : OpenedPassive b) :
    Meeting ⟨false, a.tcp.snd.iss, b.tcp.snd.iss⟩ ⟨a, b⟩ := by
  rcases hb.listen with ⟨hst, hsnd, _, hout⟩
  have hlive := live_opened ha hb
  have hsynSent : SynSentInv a := by
    rcases ha with ⟨env, ip, port, dest, destPort, _, hopen⟩
    exact synSentInv_opened ⟨env, ip, port, some dest, destPort, hopen⟩
  rcases ha with ⟨env, ip, port, dest, destPort, hmem, hopen⟩
  rcases tcpOpenConn_active (τ := τ) env hmem ip port dest destPort with ⟨sent, _, h⟩
  rw [hopen] at h
  cases h
  refine ⟨hlive, fun _ dg hdg => ?_, fun _ => ⟨rfl, hout⟩, fun hest => ?_, fun _ => ?_, hsynSent⟩
  · cases sent with
    | true =>
        have heq := List.mem_singleton.1 hdg
        rw [heq]
        rfl
    | false =>
        exact absurd hdg List.not_mem_nil
  · rw [hst] at hest
    cases hest
  · exact congrArg Snd.una hsnd

theorem meeting_run {a₀ b₀ : Conn τ} (ha : OpenedLossy a₀) (hb : OpenedPassive b₀)
    (hiss : a₀.tcp.snd.iss < a₀.tcp.snd.iss + 1) {es : List PairEvent}
    (hok : Machine.Along pairStep PairOk ⟨a₀, b₀⟩ es)
    (hlen : longest (runPair ⟨a₀, b₀⟩ es) + 1 < 2 ^ 32) :
    Meeting ⟨false, a₀.tcp.snd.iss, b₀.tcp.snd.iss⟩ (runPair ⟨a₀, b₀⟩ es) := by
  have hN : longest (Machine.run pairStep ⟨a₀, b₀⟩ es) + 1 < 2 ^ 32 := hlen
  refine Machine.run_invariant_of_le pairStep
    (I := fun p => Meeting ⟨false, a₀.tcp.snd.iss, b₀.tcp.snd.iss⟩ p) (m := longest)
    (N := 2 ^ 32 - 2) (fun p e _ => longest_step p e) ?_ (meeting_opened ha hb) hok (by omega)
  intro p e h hok hle
  have := longest_step p e
  exact meeting_pairStep h rfl hiss hok (by omega)

/-- The SYN,ACK is lost for good. -/
theorem stalled_run {p : Pair τ} (h : Meeting s p) (hiss : s.iss < s.iss + 1)
    (ha : p.a.tcp.state = .synSent) (hb : p.b.tcp.state = .synReceived) {fs : List PairEvent}
    (hlater : Machine.Along pairStep (PairLater p) p fs) : Stalled s.iss p (runPair p fs) := by
  have hstart : Stalled s.iss p p :=
    ⟨h.live.openerWaits ha (sentLater_length _ _), h.live.listenerWaits hb⟩
  exact Machine.run_invariant pairStep (I := fun q => Stalled s.iss p q)
    (fun q e hq hok => hq.step hiss hok) hstart hlater

/-! ## The way on -/

/-- As `OnlyLater`, and `tcp_unpack` accepts what arrives. -/
def OnlyVerified (n : ℕ) (peer : Conn τ) : Event → Prop
  | .received _ seg =>
      ∃ dg ∈ outputs (peer.log.drop n), dg.Verifies ∧ ∃ beyond, seg = dg.received beyond
  | _ => True

/-- What may happen to an end behind the time `now`. -/
structure LaterAt (now n : ℕ) (peer : Conn τ) (e : Event) : Prop where
  netOk : NetOk peer e
  inTime : now ≤ e.clock now
  arrives : OnlyVerified n peer e

/-- What may happen on a way that does without anything sent before `p`, and on which no clock goes
back. -/
def LaterOk (p : Pair τ) (t : TimedPair τ) : PairEvent → Prop
  | .atA e => LaterAt t.nowA p.b.log.length t.pair.b e
  | .atB e => LaterAt t.nowB p.a.log.length t.pair.a e

omit [TimerLib τ] [LawfulTimerLib τ] in
theorem OnlyVerified.onlyLater {n : ℕ} {y : Conn τ} {e : Event} (h : OnlyVerified n y e) :
    OnlyLater n y e := by
  cases e with
  | received env seg =>
      rcases h with ⟨dg, hdg, _, hseg⟩
      exact ⟨dg, hdg, hseg⟩
  | _ => trivial

omit [TimerLib τ] [LawfulTimerLib τ] in
theorem LaterOk.pairLater {p : Pair τ} {t : TimedPair τ} {e : PairEvent} (h : LaterOk p t e) :
    PairLater p t.pair e := by
  cases e with
  | atA e => exact (LaterAt.arrives h).onlyLater
  | atB e => exact (LaterAt.arrives h).onlyLater

/-- As `Meeting`, some time after `p`. -/
structure Since (s : Endpoint) (p q : Pair τ) : Prop extends Meeting s q where
  laterA : p.a.log.length ≤ q.a.log.length
  laterB : p.b.log.length ≤ q.b.log.length
  short : longest q + 1 < 2 ^ 32

omit [TimerLib τ] [LawfulTimerLib τ] in
theorem LateOk.laterAt {now n : ℕ} {y : Conn τ} {e : Event} (h : LateOk now n y e) :
    LaterAt now n y e := by
  refine ⟨h.netOk, ?_, ?_⟩
  · cases e with
    | received env seg => exact h.2.2.1
    | loop env => exact h.2.2
    | _ => exact h.elim
  · cases e with
    | received env seg =>
        rcases h with ⟨_, _, _, dg, hdg, hverifies, hseg⟩
        exact ⟨dg, hdg, hverifies, [], hseg⟩
    | loop env => trivial
    | _ => exact h.elim

omit [TimerLib τ] [LawfulTimerLib τ] in
theorem SinceOk.laterOk {p : Pair τ} {t : TimedPair τ} {e : PairEvent} (h : SinceOk p t e) :
    LaterOk p t e := by
  cases e with
  | atA e => exact LateOk.laterAt h
  | atB e => exact LateOk.laterAt h

omit [TimerLib τ] [LawfulTimerLib τ] in
theorem SinceOk.pairOk {p : Pair τ} {t : TimedPair τ} {e : PairEvent} (h : SinceOk p t e) :
    PairOk t.pair e := by
  cases e with
  | atA e => exact LateOk.netOk h
  | atB e => exact LateOk.netOk h

theorem Since.next {p q : Pair τ} (h : Since s p q) (hactive : s.passive = false)
    (hiss : s.iss < s.iss + 1) {e : PairEvent} (hok : PairOk q e)
    (hshort : longest (pairStep q e) + 1 < 2 ^ 32) : Since s p (pairStep q e) := by
  refine ⟨meeting_pairStep h.toMeeting hactive hiss hok h.short, ?_, ?_, hshort⟩
  · cases e with
    | atA e => exact h.laterA.trans (log_prefix_step q.a e).length_le
    | atB e => exact h.laterA
  · cases e with
    | atA e => exact h.laterB
    | atB e => exact h.laterB.trans (log_prefix_step q.b e).length_le

/-- The timers and what arrives add nothing to the streams. -/
theorem Since.late {p : Pair τ} {t : TimedPair τ} (h : Since s p t.pair) (hactive : s.passive = false)
    (hiss : s.iss < s.iss + 1) {e : PairEvent} (hlate : SinceOk p t e) :
    Since s p (timedStep t e).pair := by
  rw [pair_timedStep]
  refine h.next hactive hiss hlate.pairOk ?_
  have hsame : ∀ {c c' : Conn τ}, acceptedBlocks c'.log = acceptedBlocks c.log →
      acceptedBytes c'.log = acceptedBytes c.log := fun heq => by
    rw [← flatten_acceptedBlocks, heq, flatten_acceptedBlocks]
  have hshort := h.short
  cases e with
  | atA e =>
      have hok := h.live.endOk (LateOk.netOk hlate)
      have heq := hsame (acceptedBlocks_late h.live.this h.live.paced hok hlate)
      simpa only [longest, pairStep, heq] using hshort
  | atB e =>
      have hok := h.live.flip.endOk (LateOk.netOk hlate)
      have heq := hsame (acceptedBlocks_late h.live.that h.live.pacedPeer hok hlate)
      simpa only [longest, pairStep, heq] using hshort

section Way

variable {p q : Pair τ} {t : TimedPair τ}

/-- The listener has queued nothing before it is ESTABLISHED, and the opener has accepted nothing. -/
theorem Meeting.queued_nil (h : Meeting s q) (hst : q.b.tcp.state ≠ .established) :
    queuedBytes q.b.log = [] ∧ acceptedBytes q.b.log = [] := by
  have hshape := h.live.that.shape
  rcases h.live.that.state with hst' | hst' | hst' | hst'
  · rw [hst'] at hshape
    exact ⟨hshape.2.1.queued, hshape.2.1.accepted⟩
  · rw [hst'] at hshape
    exact ⟨hshape.2.1.queued, hshape.2.1.accepted⟩
  · rw [hst'] at hshape
    exact ⟨hshape.2.1.queued, hshape.2.1.accepted⟩
  · exact absurd hst' hst

omit [LawfulTimerLib τ] in
/-- A SYN reaches the listener, which answers it. -/
theorem syn_answered (hst : q.b.tcp.state = .listen) (dg : Datagram)
    (hflags : dg.seg.flags = segFlagSyn) (now : ℕ) :
    let b' := step q.b (.received (.working now) (dg.received []))
    b'.tcp.state = .synReceived ∧ ∀ n ≤ q.b.log.length, ∃ dg' ∈ outputs (b'.log.drop n),
      dg'.Verifies ∧ dg'.seg.flags = segFlagSyn ||| segFlagAck := by
  intro b'
  rcases ctrl_of_flags_syn hflags with ⟨hA, hS, hR, _⟩
  have hstep : b' = synReply (.working now) q.b (dg.received []) := by
    have hA' : segCtrlA (dg.received []).toSegment = false := hA
    have hS' : segCtrlS (dg.received []).toSegment = true := hS
    have hR' : segCtrlR (dg.received []).toSegment = false := hR
    simp only [b', step, tcpReceived, hst, receivedEventProcess, receivedWhenListen, hA', hS', hR']
    rfl
  rw [hstep, synReply_tcp, synReply_log]
  exact ⟨rfl, fun n hn =>
    ⟨_, mem_outputs_drop hn _ [], verifies_newSegment _ _ _ (by decide), rfl⟩⟩

/-- The SYN,ACK reaches the opener, which acknowledges it. -/
theorem synAck_answered (h : Meeting s q) (hiss : s.iss < s.iss + 1)
    (hst : q.a.tcp.state = .synSent) (hstB : q.b.tcp.state ≠ .established) {dg : Datagram}
    (hdg : dg ∈ outputs q.b.log) (hflags : dg.seg.flags = segFlagSyn ||| segFlagAck) (now : ℕ) :
    let a' := step q.a (.received (.working now) (dg.received []))
    a'.tcp.state = .established ∧ ∀ n ≤ q.a.log.length, ∃ dg' ∈ outputs (a'.log.drop n),
      dg'.Verifies ∧ dg'.seg.flags = segFlagAck ∧ dg'.seg.seq = s.iss + 1 := by
  intro a'
  rcases ctrl_of_flags_synAck hflags with ⟨hA, hS, hR, _⟩
  have hwaits := h.live.openerWaits hst (n := 0) ⟨Nat.zero_le _, h.syn hst⟩
  have hack : (dg.received []).ack = s.iss + 1 := by
    have hsaid : s.peer.Says q.b.log dg.seg :=
      meets_of_mem_outputs s.peer.lasting_says h.live.that.emits.log hdg
    rw [Endpoint.Says, (h.queued_nil hstB).1] at hsaid
    exact s.ack_of_nil hsaid hA
  have hne : q.a.tcp.snd.iss ≠ 4294967295 := by
    rw [hwaits.iss]
    exact Circular.lt_succ_iff.1 hiss
  have hls : sncmp q.a.tcp.snd.iss .ls (dg.received []).ack .le q.a.tcp.snd.nxt = true := by
    rw [hack, hwaits.iss, hwaits.nxt, sncmp_ls_le_iff (UInt32.le_of_lt hiss)]
    exact ⟨hiss, UInt32.le_refl _⟩
  have hle : sncmp q.a.tcp.snd.una .le (dg.received []).ack .le q.a.tcp.snd.nxt = true := by
    rw [hack, hwaits.nxt]
    rcases h.synSent.una hst hne with huna | huna <;> rw [huna, hwaits.iss]
    · rw [sncmp_le_le_iff (UInt32.le_of_lt hiss)]
      exact ⟨UInt32.le_of_lt hiss, UInt32.le_refl _⟩
    · rw [sncmp_le_le_iff (UInt32.le_refl _)]
      exact ⟨UInt32.le_refl _, UInt32.le_refl _⟩
  have hstep : a' = synAckReply (.working now) q.a (dg.received []) := by
    have hA' : segCtrlA (dg.received []).toSegment = true := hA
    have hS' : segCtrlS (dg.received []).toSegment = true := hS
    have hR' : segCtrlR (dg.received []).toSegment = false := hR
    simp [a', step, tcpReceived, hst, receivedEventProcess, receivedWhenSynSent, synSentAcceptable,
      hA', hS', hR', hls, hle, synAckReply, takeSynAck]
  rcases synAckReply_cases (.working now) q.a (dg.received []) with ⟨hno | hno, _⟩ | ⟨_, _, heq⟩
  · rw [hack, hwaits.iss] at hno
    exact absurd hiss hno
  · cases hno
  · refine ⟨by rw [hstep, heq, tcpTxSegComplete_state], fun n hn => ?_⟩
    have hopening := h.live.paced.send.shape
    rw [hst] at hopening
    rcases hopening.txSeg with ⟨seg, hs, _⟩
    have hs' : (takeSynAck q.a.tcp (dg.received [])).txSeg = some seg := hs
    simp only [tcpTxSegComplete, hs', tcpSendCtrlSeg_log] at heq
    rw [hstep, heq, List.append_assoc]
    exact ⟨_, mem_outputs_drop hn _ _, verifies_newSegment _ _ _ (by decide), rfl, hack⟩

/-- Any acknowledgment that starts behind the SYN brings the listener to ESTABLISHED, with text or
without. -/
theorem ack_opens (h : Meeting s q) (hiss : s.iss.toNat + 1501 < 2 ^ 32) (hirs : s.irs < s.irs + 1)
    (hst : q.b.tcp.state = .synReceived) {dg : Datagram} (hdg : dg ∈ outputs q.a.log)
    (hflags : dg.seg.flags = segFlagAck) (hseq : dg.seg.seq = s.iss + 1) (now : ℕ) :
    (step q.b (.received (.working now) (dg.received []))).tcp.state = .established := by
  rcases ctrl_of_flags_ack hflags with ⟨hA, _, hR, hF⟩
  have hshape := h.live.that.shape
  rw [hst] at hshape
  rcases hshape with ⟨_, hfresh, _, hnxt, hrcv⟩
  have hsucc : (s.iss + 1).toNat = s.iss.toNat + 1 :=
    Circular.toNat_succ_of_lt (Circular.lt_succ_of_toNat_lt (by omega))
  have hrcv' : q.b.tcp.rcv.nxt = s.iss + 1 := hrcv
  have hwrap : ¬ WindowWraps q.b.tcp := by
    have hwnd : (1500 : UInt16).toNat = 1500 := rfl
    rw [WindowWraps, hrcv', hsucc, h.live.pacedPeer.wnd, hwnd]
    omega
  have hacc : seqAccepted q.b.tcp (dg.received []).toSegment = true := by
    refine seqAccepted_of_inRun h.live.pacedPeer.wnd hwrap ?_
    have heq : (dg.received []).toSegment.seq = q.b.tcp.rcv.nxt := hseq.trans hrcv'.symm
    rw [heq]
    exact Circular.inRun_self (by decide)
  -- it can acknowledge nothing but the SYN of the listener
  have hack : (dg.received []).ack = s.irs + 1 := by
    have hsaid : s.peer.peer.Says q.a.log dg.seg := by
      have hpeer : s.peer.peer = s := by simp [Endpoint.peer]
      rw [hpeer]
      exact meets_of_mem_outputs s.lasting_says h.live.this.emits.log hdg
    have hnil : queuedBytes q.a.log = [] := by
      have hle := h.live.back.safe.length_le
      have hrcvd : (stream q.b q.a).rcvd = queuedBytes q.a.log := rfl
      have hsent : (stream q.b q.a).sent = [] := hfresh.accepted
      rw [hsent, hrcvd] at hle
      exact List.eq_nil_of_length_eq_zero (Nat.le_zero.1 hle)
    rw [Endpoint.Says, hnil] at hsaid
    exact s.peer.ack_of_nil hsaid hA
  have hcmp : sncmp q.b.tcp.snd.una .le (dg.received []).ack .le q.b.tcp.snd.nxt = true := by
    have hnxt' : q.b.tcp.snd.nxt = s.irs + 1 := hnxt
    rw [hack, hnxt', h.una (by simp [hst]), sncmp_le_le_iff (UInt32.le_of_lt hirs)]
    exact ⟨UInt32.le_of_lt hirs, UInt32.le_refl _⟩
  have hstep : step q.b (.received (.working now) (dg.received [])) =
      receivedWhenSynReceived (.working now) q.b (dg.received []) := by
    simp [step, tcpReceived, hst, receivedEventProcess]
  have hF' : segCtrlF (dg.received []).toSegment = false := hF
  rw [hstep, receivedWhenSynReceived_of_ack _ _ hacc hR hA, hF', if_neg Bool.false_ne_true,
    ackSynReceived_of _ _ hcmp]

omit [TimerLib τ] [LawfulTimerLib τ] in
/-- What the opener accepts while the listener waits stands in `tx_seg`. -/
theorem send_pending {x y : Conn τ} (h : Tandem s x y) (hx : x.tcp.state = .established)
    (hqueued : queuedBytes y.log = []) (haccepted : acceptedBytes x.log ≠ []) :
    x.tcp.txSeg ≠ none := by
  intro hs
  have hsending : Sending True x := by
    have hshape := h.paced.send.shape
    rwa [hx] at hshape
  have hsent := h.paced.sent (d := y) h.this
  have hacked : (exchange x y).sent = (exchange x y).acked := by
    simp [StopAndWait.sent, exchange, pendingText_none hs, hsending.busy hs]
  have hle := h.inv.acked_prefix.flatten.length_le
  have hrcvd : (exchange x y).rcvd.flatten = [] := by
    rw [← hqueued]
    exact flatten_queuedBlocks y.log
  rw [hrcvd, ← hacked, hsent, flatten_acceptedBlocks] at hle
  exact haccepted (List.eq_nil_of_length_eq_zero (Nat.le_zero.1 hle))

/-- From `t` some allowed way leads to a connection that is open at both ends. -/
def Opens (p : Pair τ) (t : TimedPair τ) : Prop :=
  ∃ fs, Machine.Along timedStep (LaterOk p) t fs ∧
    (runTimed t fs).pair.a.tcp.state = .established ∧ (runTimed t fs).pair.b.tcp.state = .established

omit [LawfulTimerLib τ] in
theorem Opens.cons {e : PairEvent} (hok : LaterOk p t e) (h : Opens p (timedStep t e)) :
    Opens p t := by
  rcases h with ⟨fs, hfs, hopen⟩
  exact ⟨e :: fs, ⟨hok, hfs⟩, hopen⟩

/-- The numbers with which the comparisons of the handshake are right. -/
structure OpenNumbers (s : Endpoint) : Prop where
  active : s.passive = false
  iss : s.iss.toNat + 1501 < 2 ^ 32
  irs : s.irs < s.irs + 1

omit [TimerLib τ] [LawfulTimerLib τ] in
theorem OpenNumbers.lt (hs : OpenNumbers s) : s.iss < s.iss + 1 :=
  Circular.lt_succ_of_toNat_lt (by have := hs.iss; omega)

omit [LawfulTimerLib τ] in
/-- A buffer that the user gives to an ESTABLISHED end is accepted behind those before. -/
theorem acceptedBytes_send {env : Env} {c : Conn τ} (hmem : env.AllocOk)
    (hst : c.tcp.state = .established) (data : List Byte) :
    acceptedBytes (step c (.send env data)).log = acceptedBytes c.log ++ data := by
  have hsend : step c (.send env data) = tcpConstructData env (acceptData c data) := by
    rw [step, tcpSend_of_established env c hst, hmem, if_pos rfl]
  rw [hsend, ← flatten_acceptedBlocks, acceptedBlocks_tcpConstructData hmem, flatten_acceptedBlocks]
  simp [acceptData, acceptedBytes]

/-- An acknowledgment of the opener is under way. -/
theorem opens_of_ack (h : Since s p t.pair) (hs : OpenNumbers s)
    (ha : t.pair.a.tcp.state = .established) (hb : t.pair.b.tcp.state = .synReceived) {dg : Datagram}
    (hdg : dg ∈ outputs (t.pair.a.log.drop p.a.log.length)) (hverifies : dg.Verifies)
    (hflags : dg.seg.flags = segFlagAck) (hseq : dg.seg.seq = s.iss + 1) : Opens p t := by
  have hlate : SinceOk p t (.atB (.received (.working t.nowB) (dg.received []))) :=
    lateOk_received t.nowB hdg hverifies
  have hmem := outputs_drop_subset t.pair.a.log (Nat.zero_le p.a.log.length) dg hdg
  exact .cons hlate.laterOk
    ⟨[], trivial, ha, ack_opens h.toMeeting hs.iss hs.irs hb hmem hflags hseq t.nowB⟩

/-- A SYN,ACK is under way. -/
theorem opens_of_synAck (h : Since s p t.pair) (hs : OpenNumbers s)
    (ha : t.pair.a.tcp.state = .synSent) (hb : t.pair.b.tcp.state = .synReceived) {dg : Datagram}
    (hdg : dg ∈ outputs (t.pair.b.log.drop p.b.log.length)) (hverifies : dg.Verifies)
    (hflags : dg.seg.flags = segFlagSyn ||| segFlagAck) : Opens p t := by
  have hlate : SinceOk p t (.atA (.received (.working t.nowA) (dg.received []))) :=
    lateOk_received t.nowA hdg hverifies
  have hmem := outputs_drop_subset t.pair.b.log (Nat.zero_le p.b.log.length) dg hdg
  rcases synAck_answered h.toMeeting hs.lt ha (by simp [hb]) hmem hflags t.nowA with ⟨ha', hsent⟩
  rcases hsent _ h.laterA with ⟨ack, hack, hverifies', hflags', hseq⟩
  exact .cons hlate.laterOk
    (opens_of_ack (h.late hs.active hs.lt hlate) hs ha' hb hack hverifies' hflags' hseq)

/-- The opener sends its SYN again. -/
theorem opens_of_listen (hruns : TimersRun τ) (h : Since s p t.pair) (hs : OpenNumbers s)
    (hb : t.pair.b.tcp.state = .listen) : Opens p t := by
  rcases h.silent hb with ⟨ha, _⟩
  have hwaits := h.live.openerWaits ha (n := 0) ⟨Nat.zero_le _, h.syn ha⟩
  have hopening := h.live.paced.send.shape
  rw [ha] at hopening
  rcases hopening.txSeg with ⟨seg, htx, _, hempty⟩
  rcases h.live.ready.retransmit.packed seg htx with ⟨raw, hraw, hid⟩
  have hflags : raw.flags = segFlagSyn := hwaits.raw seg raw htx hraw
  have hpayload : raw.payload = [] := (Segment.payload_of_identity hid).trans hempty
  rcases h.live.ready.resends hruns htx hraw t.nowA with ⟨later, tmr, hle, hstep⟩
  let e : PairEvent := .atA (.loop (.working later))
  have hlate : SinceOk p t e := lateOk_loop hle p.b.log.length t.pair.b
  have h₁ := h.late hs.active hs.lt hlate
  have ha₁ : (timedStep t e).pair.a.tcp.state = .synSent := by
    simp only [e, timedStep, pairStep, hstep]
    exact ha
  -- the SYN arrives
  let dg := connDatagram t.pair.a.tcp raw
  have hverifies : dg.Verifies := by
    refine verifies_of_wholeWords ?_ ?_ ?_ ?_
    · exact (Segment.dataOffset_of_identity hid).trans (h.live.ready.noOptions seg htx)
    · rw [show dg.seg.flags = segFlagSyn from hflags]
      decide
    · rw [show dg.seg.payload = [] from hpayload]
      exact Nat.zero_le _
    · rw [show dg.seg.payload = [] from hpayload]
      rfl
  have hdg : dg ∈ outputs ((timedStep t e).pair.a.log.drop p.a.log.length) := by
    simp only [e, timedStep, pairStep, hstep]
    exact mem_outputs_drop h.laterA dg []
  have hlate₁ : SinceOk p (timedStep t e) (.atB (.received (.working t.nowB) (dg.received []))) :=
    lateOk_received t.nowB hdg hverifies
  rcases syn_answered (q := (timedStep t e).pair) hb dg hflags t.nowB with ⟨hb', hsent⟩
  rcases hsent _ h₁.laterB with ⟨synAck, hsynAck, hverifies', hflags'⟩
  exact .cons hlate.laterOk (.cons hlate₁.laterOk
    (opens_of_synAck (h₁.late hs.active hs.lt hlate₁) hs ha₁ hb' hsynAck hverifies' hflags'))

/-- The opener sends its pending segment again, which the listener takes for the last
acknowledgment. -/
theorem opens_of_pending (hruns : TimersRun τ) (h : Since s p t.pair) (hs : OpenNumbers s)
    (ha : t.pair.a.tcp.state = .established) (hb : t.pair.b.tcp.state = .synReceived) {seg : TxSegment}
    (htx : t.pair.a.tcp.txSeg = some seg) (hwhole : WholeWords seg.payload) : Opens p t := by
  rcases h.live.pending ha htx with ⟨raw, hp⟩
  have hsize : seg.payload.length ≤ 1379 :=
    h.live.paced.pending_sized h.live.this (pendingText_some hp.txSeg hp.nonempty)
  have hverifies := hp.verifies hsize hwhole
  rcases h.live.ready.resends hruns hp.txSeg hp.rawData t.nowA with ⟨later, tmr, hle, hstep⟩
  let e : PairEvent := .atA (.loop (.working later))
  have hlate : SinceOk p t e := lateOk_loop hle p.b.log.length t.pair.b
  have h₁ := h.late hs.active hs.lt hlate
  have ha₁ : (timedStep t e).pair.a.tcp.state = .established := established_step h₁.live.this ha
  have hdg : connDatagram t.pair.a.tcp raw ∈
      outputs ((timedStep t e).pair.a.log.drop p.a.log.length) := by
    have ha' : (timedStep t e).pair.a = step t.pair.a (.loop (.working later)) := rfl
    rw [ha', hstep]
    exact mem_outputs_drop h.laterA _ []
  -- nothing has been acknowledged, so it starts behind the SYN
  have hseq : raw.seq = s.iss + 1 := by
    have hstreaming := h.live.this.streaming ha
    have huna := hstreaming.una_eq (d := t.pair.b) (h.live.paced.openHistory h.live.this)
      h.live.paced.lined
    have hle := h.live.inv.acked_prefix.flatten.length_le
    have hrcvd : (exchange t.pair.a t.pair.b).rcvd.flatten = [] := by
      rw [← (h.queued_nil (by simp [hb])).1]
      exact flatten_queuedBlocks _
    rw [hrcvd] at hle
    rw [hp.seq, huna, Nat.le_zero.1 hle]
    simp [Endpoint.sndSeq]
  exact .cons hlate.laterOk (opens_of_ack h₁ hs ha₁ hb hdg hverifies hp.flags hseq)

/-- If the opener has nothing to send, a call of `tcp_send` helps. -/
theorem opens_of_drained (hruns : TimersRun τ) (h : Since s p t.pair) (hs : OpenNumbers s)
    (ha : t.pair.a.tcp.state = .established) (hb : t.pair.b.tcp.state = .synReceived)
    (htx : t.pair.a.tcp.txSeg = none) : Opens p t := by
  let e : PairEvent := .atA (.send (.working t.nowA) [0, 0])
  have hok : PairOk t.pair e := ⟨Env.allocOk_working _, Nat.zero_lt_two, by decide⟩
  have hlater : LaterOk p t e := ⟨hok, Nat.le_refl _, trivial⟩
  have hqueued : queuedBytes t.pair.b.log = [] := (h.queued_nil (by simp [hb])).1
  -- nothing was accepted before
  have hnil : acceptedBytes t.pair.a.log = [] := by
    by_contra hne
    exact send_pending h.live.toTandem ha hqueued hne htx
  have haccepted : acceptedBytes (pairStep t.pair e).a.log = [0, 0] := by
    have hsend := acceptedBytes_send (Env.allocOk_working t.nowA) ha [0, 0]
    rwa [hnil] at hsend
  have hlong : longest (pairStep t.pair e) + 1 < 2 ^ 32 := by
    have hbnil : acceptedBytes (pairStep t.pair e).b.log = [] := (h.queued_nil (by simp [hb])).2
    rw [longest, hbnil, haccepted]
    decide
  have h₁ : Since s p (timedStep t e).pair := h.next hs.active hs.lt hok hlong
  have ha₁ : (timedStep t e).pair.a.tcp.state = .established := established_step h₁.live.this ha
  -- so the segment built from it is the one pending
  have htx₁ : (timedStep t e).pair.a.tcp.txSeg ≠ none := by
    refine send_pending h₁.live.toTandem ha₁ hqueued ?_
    rw [pair_timedStep, haccepted]
    exact List.cons_ne_nil _ _
  rcases Option.ne_none_iff_exists'.1 htx₁ with ⟨seg, htx₁⟩
  have hsending : Sending True t.pair.a := by
    have hshape := h.live.paced.send.shape
    rwa [ha] at hshape
  have hall₁ : AllText WholeWords (timedStep t e).pair.a := by
    have hend := h.live.endOk (e := .send (.working t.nowA) [0, 0]) hok
    refine allText_step h.live.this h.live.paced.send (hsending.allText htx) hend ?_
    intro env data he
    cases he
    rfl
  rcases h₁.live.pending ha₁ htx₁ with ⟨raw, hp⟩
  exact .cons hlater (opens_of_pending hruns h₁ hs ha₁ hb htx₁ (hall₁.pending seg htx₁ hp.data))

theorem opens_of_established (hruns : TimersRun τ) (h : Since s p t.pair) (hs : OpenNumbers s)
    (ha : t.pair.a.tcp.state = .established) (hb : t.pair.b.tcp.state = .synReceived)
    (hwhole : ∀ seg, t.pair.a.tcp.txSeg = some seg → WholeWords seg.payload) : Opens p t := by
  cases htx : t.pair.a.tcp.txSeg with
  | none =>
      exact opens_of_drained hruns h hs ha hb htx
  | some seg =>
      exact opens_of_pending hruns h hs ha hb htx (hwhole seg htx)

end Way

/-! ## Which states have a way on -/

/-- The SYN,ACK is not sent again: once the opener is in SYN_SENT and the listener in SYN_RECEIVED,
they stay there in every run in which nothing of what was sent before arrives any more, whatever else
happens. -/
theorem synAck_lost_stalls {a₀ b₀ : Conn τ} (ha : OpenedLossy a₀) (hb : OpenedPassive b₀)
    (hiss : a₀.tcp.snd.iss < a₀.tcp.snd.iss + 1) {es : List PairEvent}
    (hok : Machine.Along pairStep PairOk ⟨a₀, b₀⟩ es)
    (hlen : longest (runPair ⟨a₀, b₀⟩ es) + 1 < 2 ^ 32)
    (hsta : (runPair ⟨a₀, b₀⟩ es).a.tcp.state = .synSent)
    (hstb : (runPair ⟨a₀, b₀⟩ es).b.tcp.state = .synReceived) {fs : List PairEvent}
    (hlater : Machine.Along pairStep (PairLater (runPair ⟨a₀, b₀⟩ es)) (runPair ⟨a₀, b₀⟩ es) fs) :
    (runPair (runPair ⟨a₀, b₀⟩ es) fs).a.tcp.state = .synSent ∧
      (runPair (runPair ⟨a₀, b₀⟩ es) fs).b.tcp.state = .synReceived := by
  have hend := stalled_run (meeting_run ha hb hiss hok hlen) hiss hsta hstb hlater
  exact ⟨hend.opener.state, hend.listener.state⟩

omit [LawfulTimerLib τ] in
/-- With numbers that the comparisons get right, and whole words in the segment that the opener has
pending: a connection that nobody closes can still be opened, by what is sent from now on and accepted
by `tcp_unpack`, exactly if the opener is not waiting for a SYN,ACK that was sent. -/
theorem opens_iff [LastingTimerLib τ] {a₀ b₀ : Conn τ} (ha : OpenedLossy a₀) (hb : OpenedPassive b₀)
    {es : List PairEvent} (hok : Machine.Along pairStep PairOk ⟨a₀, b₀⟩ es)
    (hissA : a₀.tcp.snd.iss.toNat + 1501 < 2 ^ 32) (hissB : b₀.tcp.snd.iss ≠ 4294967295)
    (hlen : longest (runPair ⟨a₀, b₀⟩ es) + 1 < 2 ^ 32)
    (hwhole : ∀ seg, (runPair ⟨a₀, b₀⟩ es).a.tcp.txSeg = some seg → WholeWords seg.payload)
    (nowA nowB : ℕ) :
    let p := runPair ⟨a₀, b₀⟩ es
    (∃ fs, Machine.Along timedStep (LaterOk p) ⟨p, nowA, nowB⟩ fs ∧
        (runPair p fs).a.tcp.state = .established ∧ (runPair p fs).b.tcp.state = .established) ↔
      ¬ (p.a.tcp.state = .synSent ∧ p.b.tcp.state = .synReceived) := by
  intro p
  let _ : LawfulTimerLib τ := TimedTimerLib.lawful τ
  have hs : OpenNumbers ⟨false, a₀.tcp.snd.iss, b₀.tcp.snd.iss⟩ :=
    ⟨rfl, hissA, lt_add_one_of_ne hissB⟩
  have hmeet := meeting_run ha hb hs.lt hok hlen
  constructor
  · rintro ⟨fs, hfs, hest, _⟩ ⟨hsta, hstb⟩
    have hlater : Machine.Along pairStep (PairLater p) p fs :=
      along_pair (hfs.mono timedStep fun _ _ => LaterOk.pairLater)
    have hend := stalled_run hmeet hs.lt hsta hstb hlater
    rw [hend.opener.state] at hest
    cases hest
  · intro hno
    let t : TimedPair τ := ⟨p, nowA, nowB⟩
    have hsince : Since ⟨false, a₀.tcp.snd.iss, b₀.tcp.snd.iss⟩ p t.pair :=
      ⟨hmeet, Nat.le_refl _, Nat.le_refl _, hlen⟩
    have hruns := LastingTimerLib.timersRun τ
    have hopens : Opens p t := by
      rcases hmeet.live.states rfl with ⟨_, hlisten | hrcvd | hest⟩
      · exact opens_of_listen hruns hsince hs hlisten
      · have hsta := (hmeet.live.states rfl).1.resolve_left fun hsta => hno ⟨hsta, hrcvd⟩
        exact opens_of_established hruns hsince hs hsta hrcvd hwhole
      · exact ⟨[], trivial, hmeet.second hest, hest⟩
    rcases hopens with ⟨fs, hfs, hopen⟩
    rw [pair_runTimed] at hopen
    exact ⟨fs, hfs, hopen⟩

end Meeting

/-- The SYN,ACK is lost, and the SYN is sent again and answered. -/
def sampleStall : List PairEvent :=
  let hear (now : ℕ) (dg : Datagram) : Event := .received (.working now) (dg.received [])
  [.atA (.loop (.working 106)),
    .atB (hear 207 (sampleRequest 100 0 segFlagSyn [])),
    .atA (hear 108 (sampleAnswer 201 101 segFlagAck [])),
    .atB (.loop (.working 900)),
    .atA (.send (.working 900) [1])]

theorem synAck_lost_stalls_sample :
    let p := runPair ⟨sampleConn 100 (some samplePeer), sampleServer⟩ (sampleExchange.take 1)
    (runPair p sampleStall).a.tcp.state = .synSent ∧
      (runPair p sampleStall).b.tcp.state = .synReceived := by
  refine synAck_lost_stalls (openedLossy_sampleConn 100) openedPassive_sampleServer (by decide)
    (sampleExchange_take_ok 1) (by decide) (by decide) (by decide) ⟨trivial, ⟨_, ?_, [], rfl⟩,
      ⟨_, ?_, [], rfl⟩, trivial, trivial, trivial⟩
  all_goals decide

/-- The third segment was lost, and the first one with data. -/
def sampleHalfOpen : List PairEvent :=
  sampleExchange.take 2 ++ [.atA (.send (.working 104) [1, 2])]

/-- The connection can still be opened. -/
theorem opens_iff_sample :
    let p := runPair ⟨sampleConn 100 (some samplePeer), sampleServer⟩ sampleHalfOpen
    p.b.tcp.state = .synReceived ∧
      ∃ fs, Machine.Along timedStep (LaterOk p) ⟨p, 104, 201⟩ fs ∧
        (runPair p fs).a.tcp.state = .established ∧ (runPair p fs).b.tcp.state = .established := by
  have hok : Machine.Along pairStep PairOk ⟨sampleConn 100 (some samplePeer), sampleServer⟩
      sampleHalfOpen :=
    (Machine.along_append pairStep PairOk _ _ _).2
      ⟨sampleExchange_take_ok 2, ⟨Env.allocOk_working 104, by decide, by decide⟩, trivial⟩
  refine ⟨by decide, (opens_iff (openedLossy_sampleConn 100) openedPassive_sampleServer hok (by decide)
    (by decide) (by decide) ?_ 104 201).2 (by decide)⟩
  intro seg hseg
  cases hseg
  decide

end Tcp
end DtsNet
