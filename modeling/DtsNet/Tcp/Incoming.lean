import DtsNet.Tcp.Outgoing

/-!
# Incoming — the receiving side of an end, from ESTABLISHED to the last state

The other half of `Outgoing`.  The peer's FIN comes when everything before it has been queued, so
that the bytes queued are the stream of the peer, with perhaps one byte more: `tcp_handle_data`
counts the FIN as text.  Until that FIN is seen, no acknowledgment covers it.
-/

namespace DtsNet
namespace Tcp

open Ip Dblk History Slices

variable {τ : Type} {p : Peer} {m : ℕ} {c c' : Conn τ}

/-- The states of an end that has seen the FIN of its peer. -/
def FinHeard (s : State) : Prop :=
  s = .closeWait ∨ s = .lastAck ∨ s = .timeWait ∨ s = .closed

instance (s : State) : Decidable (FinHeard s) :=
  inferInstanceAs (Decidable (_ ∨ _))

/-- The states in which an end can be once both ends were ESTABLISHED. -/
def Met (s : State) : Prop :=
  s = .established ∨ s = .finWait1 ∨ s = .finWait2 ∨ FinHeard s

theorem Met.ended {s : State} (h : Met s) (hne : s ≠ .established) : Ended s := by
  rcases h with rfl | rfl | rfl | rfl | rfl | rfl | rfl
  · exact absurd rfl hne
  all_goals simp [Ended]

/-- An acknowledgment of bytes, not of the FIN behind them. -/
def BytesOnly (p : Peer) (seg : Segment) : Prop :=
  segCtrlA seg = true → ∃ k ≤ p.stream.length, seg.ack = p.seq k

theorem lasting_bytesOnly (p : Peer) : Lasting fun _ => BytesOnly p :=
  fun _ _ _ h => h

structure Incoming (p : Peer) (c : Conn τ) : Prop extends AckInv p c where
  met : Met c.tcp.state
  whole : FinHeard c.tcp.state → p.stream <+: queuedBytes c.log
  most : (queuedBytes c.log).length ≤ p.stream.length + 1
  early : ¬ FinHeard c.tcp.state → InOrder p c ∧ Emits (fun _ => BytesOnly p) c

theorem bytesOnly_of_nxt (h : InOrder p c) {seg : Segment} (hack : seg.ack = c.tcp.rcv.nxt) :
    BytesOnly p seg :=
  fun _ => ⟨_, h.queued.length_le, hack.trans h.nxt⟩

/-! ## What an arriving segment may be -/

/-- A FIN that comes behind everything is in order. -/
theorem finInOrder_of_whole {seg : Segment} {o : ℕ} (hsends : p.Sends seg o)
    (hF : segCtrlF seg = true) (hm : p.stream.length ≤ m) (takes : Prop) :
    FinInOrder m o seg takes := by
  have ho := hsends.fin hF
  by_cases hpayload : seg.payload = []
  · rw [FinInOrder, if_pos hpayload]
    omega
  · have hpos := List.length_pos_of_ne_nil hpayload
    rw [FinInOrder, if_neg hpayload]
    left
    omega

/-- What may happen to the end: the peer sends its FIN behind everything that is queued. -/
def InOk (p : Peer) (c : Conn τ) : Event → Prop
  | .received _ seg => Utters p (queuedBytes c.log).length seg.toSegment
  | _ => True

theorem InOk.ackOk [TimerLib τ] {e : Event} (h : InOk p c e)
    (hlen : p.stream.length + 1 < 2 ^ 32) : AckOk p c e := by
  cases e with
  | received env seg =>
      rcases h with ⟨⟨o, hsends⟩, hfin⟩
      have horder : segCtrlAF seg.toSegment = true → ∀ takes,
          FinInOrder (queuedBytes c.log).length o seg.toSegment takes := by
        intro hAF
        have hF : segCtrlF seg.toSegment = true := (Bool.and_eq_true_iff.1 hAF).1
        exact finInOrder_of_whole hsends hF (hfin hF)
      refine ⟨o, hsends, ?_⟩
      cases c.tcp.state with
      | established =>
          refine ⟨fun hbig => ?_, fun _ _ hAF _ => horder hAF _⟩
          omega
      | finWait2 | timeWait | closeWait =>
          exact fun hAF _ => horder hAF _
      | _ =>
          trivial
  | _ =>
      trivial

/-! ## Text -/

/-- Text that is taken ends inside the stream; a FIN behind everything adds one byte. -/
theorem length_takeText (h : InOrder p c) (hlen : p.stream.length + 1 < 2 ^ 32) {dat : Received}
    (hutters : Utters p (queuedBytes c.log).length dat.toSegment) (hseq : dat.seq = c.tcp.rcv.nxt)
    (hpos : 0 < tcpSegmentLength dat.toSegment) :
    (queuedBytes c.log).length + textLength c.tcp dat ≤
      p.stream.length + if segCtrlF dat.toSegment then 1 else 0 := by
  rcases hutters with ⟨⟨o, hsends⟩, _⟩
  rcases h.slice hsends hseq hpos (fun hbig => by omega) with ⟨hS, ho, hslice⟩
  rw [ho] at hslice
  have hend := (hslice.prefix_append h.queued).length_le
  rw [List.length_append] at hend
  have hle : textLength c.tcp dat ≤ tcpSegmentLength dat.toSegment := Nat.min_le_right _ _
  have htext : tcpSegmentLength dat.toSegment =
      dat.payload.length + if segCtrlF dat.toSegment then 1 else 0 := by
    simp [tcpSegmentLength, hS]
  omega

/-- What `tcp_handle_data` says while no FIN has come. -/
theorem bytesOnly_tcpHandleData (env : Env) (h : InOrder p c) (hemits : Emits (fun _ => BytesOnly p) c)
    (hlen : p.stream.length + 1 < 2 ^ 32) {dat : Received}
    (hutters : Utters p (queuedBytes c.log).length dat.toSegment)
    (hF : segCtrlF dat.toSegment = false) :
    Emits (fun _ => BytesOnly p) (tcpHandleData env c dat).1 := by
  refine emits_tcpHandleData env (lasting_bytesOnly p) hemits dat fun hseq hpos _ => ?_
  have hle := length_takeText h hlen hutters hseq hpos
  rw [hF, if_neg Bool.false_ne_true, Nat.add_zero] at hle
  refine ⟨_, hle, ?_⟩
  rw [newSegment_ack, takeText, h.nxt]
  exact Circular.add_ofNat_add _ _ _

section Step

variable [TimerLib τ] {env : Env}

theorem bytesOnly_receivedWhenEstablished (h : InOrder p c)
    (hemits : Emits (fun _ => BytesOnly p) c) (hlen : p.stream.length + 1 < 2 ^ 32) {seg : Received}
    (hutters : Utters p (queuedBytes c.log).length seg.toSegment)
    (hno : (receivedWhenEstablished env c seg).tcp.state ≠ .closeWait) :
    Emits (fun _ => BytesOnly p) (receivedWhenEstablished env c seg) := by
  have hE := lasting_bytesOnly p
  cases hacc : seqAccepted c.tcp seg.toSegment with
  | false =>
      rw [receivedWhenEstablished_of_rejected env c hacc]
      exact emits_processReceivedSeq env hE hemits seg (bytesOnly_of_nxt h rfl)
  | true =>
      by_cases hRA : segCtrlR seg.toSegment = true ∨ segCtrlA seg.toSegment = false
      · rw [receivedWhenEstablished_of_ignored env c hacc hRA]
        exact hemits
      · rw [not_or, Bool.not_eq_true, Bool.not_eq_false] at hRA
        rw [receivedWhenEstablished_of_ack env c hacc hRA.1 hRA.2] at hno ⊢
        cases hF : segCtrlF seg.toSegment with
        | true =>
            exact absurd (by rw [hF]; rfl) hno
        | false =>
            have hqueued := (queueMove_ackEstablished env c seg).bytes_eq
            have hacked : InOrder p (ackEstablished env c seg) :=
              h.congr hqueued (by rw [ackEstablished_rcv])
            have hemits' : Emits (fun _ => BytesOnly p) (ackEstablished env c seg) :=
              emits_ackEstablished env hE hemits seg fun _ _ _ _ _ => bytesOnly_of_nxt h rfl
            rw [← hqueued] at hutters
            exact bytesOnly_tcpHandleData env hacked hemits' hlen hutters hF

/-- FIN_WAIT_1 does not look at what arrives, except for its acknowledgment. -/
theorem bytesOnly_receivedWhenFinWait1 (h : InOrder p c) (hemits : Emits (fun _ => BytesOnly p) c)
    (seg : Received) : Emits (fun _ => BytesOnly p) (receivedWhenFinWait1 env c seg) := by
  have hE := lasting_bytesOnly p
  have hack : Emits (fun _ => BytesOnly p) (ackWhenClosing env c seg .finWait2) := by
    rcases ackWhenClosing_cases env c seg .finWait2 with
        hsame | ⟨_, _, _, _, _, hdone⟩ | ⟨s, _, _, _, _, htaken⟩
    · rw [hsame]
      exact hemits
    · rw [hdone]
      exact (emits_tcpTxSegComplete hE hemits seg.ack).congr rfl rfl
    · rw [htaken]
      exact emits_tcpConstructData env hE (emits_ackedConn hE hemits s) fun _ _ _ _ =>
        bytesOnly_of_nxt h rfl
  have hnxt : (ackWhenClosing env c seg .finWait2).tcp.rcv.nxt = c.tcp.rcv.nxt := by
    rw [ackWhenClosing_rcv]
  rw [receivedWhenFinWait1]
  split
  · exact emits_tcpContructFinAck env hE hack fun _ _ => bytesOnly_of_nxt h hnxt
  · exact hack

theorem length_queued_receivedWhenEstablished (h : InOrder p c)
    (hlen : p.stream.length + 1 < 2 ^ 32) {seg : Received}
    (hutters : Utters p (queuedBytes c.log).length seg.toSegment) :
    (queuedBytes (receivedWhenEstablished env c seg).log).length ≤ p.stream.length + 1 := by
  have hle := Nat.le_succ_of_le h.queued.length_le
  cases hacc : seqAccepted c.tcp seg.toSegment with
  | false =>
      rw [receivedWhenEstablished_of_rejected env c hacc,
        (queueMove_processReceivedSeq env c seg).bytes_eq]
      exact hle
  | true =>
      by_cases hRA : segCtrlR seg.toSegment = true ∨ segCtrlA seg.toSegment = false
      · rw [receivedWhenEstablished_of_ignored env c hacc hRA]
        exact hle
      · rw [not_or, Bool.not_eq_true, Bool.not_eq_false] at hRA
        have hqueued := (queueMove_ackEstablished env c seg).bytes_eq
        have hacked : InOrder p (ackEstablished env c seg) :=
          h.congr hqueued (by rw [ackEstablished_rcv])
        have htext : (queuedBytes (textEstablished env c seg).log).length ≤ p.stream.length + 1 := by
          rw [textEstablished]
          rcases tcpHandleData_cases env (ackEstablished env c seg) seg with
              ⟨hsame, _⟩ | ⟨hseq, hpos, _, l, hlog, hl⟩
          · rw [hsame, hqueued]
            exact hle
          · -- the numbers taken are those of the stream, and of the FIN behind it
            rw [← hqueued] at hutters
            have htaken := length_takeText hacked hlen hutters hseq hpos
            have hquiet : queuedBytes l = [] := by
              rcases hl with rfl | ⟨sent, rfl⟩ <;> simp [queuedBytes]
            have hone : (if segCtrlF seg.toSegment then 1 else 0) ≤ 1 := by split <;> omega
            rw [hlog, queuedBytes_append, queuedBytes_append, hquiet]
            simp only [queuedBytes, List.append_nil, List.length_append, List.flatMap_cons,
              List.flatMap_nil, length_textBytes] at htaken ⊢
            omega
        rw [receivedWhenEstablished_of_ack env c hacc hRA.1 hRA.2]
        split
        · rw [(queueMove_tcpHandleFinAck env (textEstablished env c seg) seg).bytes_eq]
          exact htext
        · exact htext

/-! ## One event -/

/-- Only an arriving segment moves `rcv.nxt` or adds to the queue. -/
theorem receiving_of_call {e : Event} (he : ∀ env seg, e ≠ .received env seg) :
    (step c e).tcp.rcv = c.tcp.rcv ∧ queuedBytes (step c e).log = queuedBytes c.log := by
  cases e with
  | received env seg =>
      exact absurd rfl (he env seg)
  | send env data =>
      by_cases hst : c.tcp.state = .established
      · rw [step, tcpSend_of_established env c hst]
        refine ⟨?_, ?_⟩
        · rw [tcpConstructData_rcv]
          split <;> rfl
        · rw [(queueMove_tcpConstructData env _).bytes_eq]
          split <;> simp [acceptData, queuedBytes]
      · rw [step, tcpSend_of_not env c hst]
        exact ⟨rfl, rfl⟩
  | recv data size =>
      rcases recvEvent_log c data size with ⟨bs, hlog⟩
      exact ⟨recvEvent_rcv c data size, by simp [step, hlog, queuedBytes]⟩
  | close env =>
      rw [step]
      rcases tcpClose_cases env c with ⟨_, h⟩ | h
      · rw [h]
        exact ⟨tcpContructFinAck_rcv env c, (queueMove_tcpContructFinAck env c).bytes_eq⟩
      · rw [h]
        exact ⟨rfl, rfl⟩
  | loop env =>
      rw [step]
      rcases tcpLoopVisit_cases env c with h | ⟨_, h⟩ | ⟨_, h⟩ | ⟨_, _, h⟩
      · rw [h]
        exact ⟨rfl, rfl⟩
      · rw [h, (queueMove_tcpRetransmit env (stopTimer c)).bytes_eq, tcpRetransmit_tcp]
        exact ⟨rfl, rfl⟩
      · rw [h]
        exact ⟨rfl, rfl⟩
      · rw [h]
        exact ⟨rfl, rfl⟩

theorem bytesOnly_of_call (h : InOrder p c) (hemits : Emits (fun _ => BytesOnly p) c) {e : Event}
    (he : ∀ env seg, e ≠ .received env seg) : Emits (fun _ => BytesOnly p) (step c e) := by
  have hE := lasting_bytesOnly p
  cases e with
  | received env seg =>
      exact absurd rfl (he env seg)
  | send env data =>
      by_cases hst : c.tcp.state = .established
      · have hkeep : ∀ c₁ : Conn τ, c₁.tcp.txSeg = c.tcp.txSeg → c₁.tcp.rcv = c.tcp.rcv →
            (c₁.log = c.log ∨ c₁.log = c.log ++ [.accepted data]) →
              Emits (fun _ => BytesOnly p) (tcpConstructData env c₁) := by
          intro c₁ hseg hrcv hlog
          have hemits₁ : Emits (fun _ => BytesOnly p) c₁ := by
            rcases hlog with hlog | hlog
            · exact hemits.congr hseg hlog
            · refine hemits.of_keep hE hseg hlog ?_
              intro a ha
              rw [List.mem_singleton.1 ha]
              trivial
          refine emits_tcpConstructData env hE hemits₁ fun tx rest _ _ => ?_
          exact bytesOnly_of_nxt h (congrArg Rcv.nxt hrcv)
        rw [step, tcpSend_of_established env c hst]
        split
        · exact hkeep _ rfl rfl (Or.inr rfl)
        · exact hkeep _ rfl rfl (Or.inl rfl)
      · rw [step, tcpSend_of_not env c hst]
        exact hemits
  | recv data size =>
      exact emits_recvEvent hE hemits data size
  | close env =>
      rw [step]
      rcases tcpClose_cases env c with ⟨_, h'⟩ | h'
      · rw [h']
        exact (emits_tcpContructFinAck env hE hemits fun _ _ => bytesOnly_of_nxt h rfl).congr rfl rfl
      · rw [h']
        exact hemits
  | loop env =>
      exact emits_tcpLoopVisit env hE hemits

omit [TimerLib τ] in
theorem met_of_follows {s s' : State} (hs : Met s) (h : s' ∈ follows s) : Met s' := by
  rcases hs with rfl | rfl | rfl | rfl | rfl | rfl | rfl <;>
    simp only [follows, List.mem_cons, List.not_mem_nil, or_false] at h
  · rcases h with rfl | rfl | rfl <;> simp [Met, FinHeard]
  all_goals rcases h with rfl | rfl <;> simp [Met, FinHeard]

omit [TimerLib τ] in
theorem finHeard_of_follows {s s' : State} (hs : FinHeard s) (h : s' ∈ follows s) : FinHeard s' := by
  rcases hs with rfl | rfl | rfl | rfl <;>
    simp only [follows, List.mem_cons, List.not_mem_nil, or_false] at h <;>
    rcases h with rfl | rfl <;> simp [FinHeard]

theorem receivedWhenEstablished_state_of_text (env : Env) (c : Conn τ) {seg : Received}
    (hF : segCtrlF seg.toSegment = false) :
    (receivedWhenEstablished env c seg).tcp.state = c.tcp.state := by
  cases hacc : seqAccepted c.tcp seg.toSegment with
  | false =>
      rw [receivedWhenEstablished_of_rejected env c hacc, processReceivedSeq_tcp]
  | true =>
      by_cases hRA : segCtrlR seg.toSegment = true ∨ segCtrlA seg.toSegment = false
      · rw [receivedWhenEstablished_of_ignored env c hacc hRA]
      · rw [not_or, Bool.not_eq_true, Bool.not_eq_false] at hRA
        rw [receivedWhenEstablished_of_ack env c hacc hRA.1 hRA.2, hF, if_neg Bool.false_ne_true,
          textEstablished, tcpHandleData_state, ackEstablished_state]

/-- An end that sees the FIN of its peer gets it in this event. -/
theorem fin_of_finHeard (hmet : Met c.tcp.state) (hc : ¬ FinHeard c.tcp.state) {e : Event}
    (h : FinHeard (step c e).tcp.state) :
    ∃ env seg, e = .received env seg ∧ segCtrlF seg.toSegment = true := by
  have hwait : c.tcp.state ≠ .closeWait ∧ c.tcp.state ≠ .timeWait := by
    refine ⟨?_, ?_⟩ <;>
    · intro hst
      exact hc (by simp [hst, FinHeard])
  cases e with
  | received env seg =>
      refine ⟨env, seg, rfl, ?_⟩
      by_contra hF
      rw [Bool.not_eq_true] at hF
      have hAF : segCtrlAF seg.toSegment = false := by simp [segCtrlAF, hF]
      rcases hmet with hst | hst | hst | hst
      · -- ESTABLISHED is left by a FIN only
        have hstay := receivedWhenEstablished_state_of_text env c hF
        simp [step, tcpReceived, hst, receivedEventProcess, hstay, FinHeard] at h
      · -- FIN_WAIT_1 goes on to FIN_WAIT_2, FIN or not
        have hmem := step_mem_follows c (.received env seg)
        simp only [hst, follows, List.mem_cons, List.not_mem_nil, or_false] at hmem
        rcases hmem with hmem | hmem <;> simp [hmem, FinHeard] at h
      · simp [step, tcpReceived, hst, receivedEventProcess, receivedWhenFinWait2, hAF, FinHeard] at h
      · exact hc hst
  | send env data =>
      rw [step, tcpSend_state] at h
      exact absurd h hc
  | recv data size =>
      rw [step, recvEvent_state] at h
      exact absurd h hc
  | close env =>
      rw [step] at h
      rcases tcpClose_cases env c with ⟨hst | hst, h'⟩ | h'
      · rw [h', hst] at h
        simp [closeState, FinHeard] at h
      · exact absurd hst hwait.1
      · rw [h'] at h
        exact absurd h hc
  | loop env =>
      rw [step] at h
      rcases tcpLoopVisit_cases env c with h' | ⟨_, h'⟩ | ⟨hst, _⟩ | ⟨_, _, h'⟩
      · rw [h'] at h
        exact absurd h hc
      · rw [h', tcpRetransmit_tcp] at h
        exact absurd h hc
      · exact absurd hst hwait.2
      · rw [h'] at h
        exact absurd h hc

/-- Before the FIN is seen, the queue ends at `rcv.nxt` and only bytes are acknowledged. -/
theorem early_step (hmet : Met c.tcp.state) (hin : InOrder p c)
    (hemits : Emits (fun _ => BytesOnly p) c) (hlen : p.stream.length + 1 < 2 ^ 32) {e : Event}
    (hok : InOk p c e) (hack : AckInv p (step c e)) (hno : ¬ FinHeard (step c e).tcp.state) :
    InOrder p (step c e) ∧ Emits (fun _ => BytesOnly p) (step c e) := by
  by_cases he : ∃ env seg, e = .received env seg
  · rcases he with ⟨env, seg, rfl⟩
    rcases hmet with hst | hst | hst | hst
    · have hreceived : step c (.received env seg) = receivedWhenEstablished env c seg := by
        simp [step, tcpReceived, hst, receivedEventProcess]
      rw [hreceived] at hno hack ⊢
      have hne : (receivedWhenEstablished env c seg).tcp.state ≠ .closeWait := fun h =>
        hno (Or.inl h)
      have hstay : (receivedWhenEstablished env c seg).tcp.state = .established := by
        rcases receivedWhenEstablished_state env c seg with h | h
        · exact h.trans hst
        · exact absurd h hne
      have hshape := hack.shape
      rw [hstay] at hshape
      exact ⟨hshape, bytesOnly_receivedWhenEstablished hin hemits hlen hok hne⟩
    · have hreceived : step c (.received env seg) = receivedWhenFinWait1 env c seg := by
        simp [step, tcpReceived, hst, receivedEventProcess]
      -- FIN_WAIT_1 queues nothing, and acknowledges what it had
      have hended : Ended c.tcp.state := Or.inl hst
      have hquiet := quiet_step_of_ended hended (.received env seg)
      rw [hreceived] at hquiet ⊢
      refine ⟨hin.congr hquiet.queued ?_, bytesOnly_receivedWhenFinWait1 hin hemits seg⟩
      rw [receivedWhenFinWait1]
      split <;> simp
    · -- in FIN_WAIT_2 anything but a FIN is ignored
      cases hAF : segCtrlAF seg.toSegment with
      | true =>
          exfalso
          apply hno
          simp [step, tcpReceived, hst, receivedEventProcess, receivedWhenFinWait2, hAF, FinHeard]
      | false =>
          have hsame : step c (.received env seg) = c := by
            simp [step, tcpReceived, hst, receivedEventProcess, receivedWhenFinWait2, hAF]
          rw [hsame]
          exact ⟨hin, hemits⟩
    · exact absurd (finHeard_of_follows hst (step_mem_follows c _)) hno
  · have hcall : ∀ env seg, e ≠ .received env seg := fun env seg h => he ⟨env, seg, h⟩
    rcases receiving_of_call (c := c) hcall with ⟨hrcv, hqueued⟩
    exact ⟨hin.congr hqueued (by rw [hrcv]), bytesOnly_of_call hin hemits hcall⟩

theorem most_step (hmet : Met c.tcp.state) (hin : c.tcp.state = .established → InOrder p c)
    (hmost : (queuedBytes c.log).length ≤ p.stream.length + 1)
    (hlen : p.stream.length + 1 < 2 ^ 32) {e : Event} (hok : InOk p c e) :
    (queuedBytes (step c e).log).length ≤ p.stream.length + 1 := by
  by_cases hst : c.tcp.state = .established
  · by_cases he : ∃ env seg, e = .received env seg
    · rcases he with ⟨env, seg, rfl⟩
      have hreceived : step c (.received env seg) = receivedWhenEstablished env c seg := by
        simp [step, tcpReceived, hst, receivedEventProcess]
      rw [hreceived]
      exact length_queued_receivedWhenEstablished (hin hst) hlen hok
    · rw [(receiving_of_call fun env seg h => he ⟨env, seg, h⟩).2]
      exact hmost
  · rw [(quiet_step_of_ended (hmet.ended hst) e).queued]
    exact hmost

theorem incoming_step (hc : Incoming p c) (hlen : p.stream.length + 1 < 2 ^ 32) {e : Event}
    (hok : InOk p c e) : Incoming p (step c e) := by
  have hack := ackInv_step hc.toAckInv (hok.ackOk hlen)
  have hgrows := queuedBytes_mono (log_prefix_step c e)
  refine ⟨hack, met_of_follows hc.met (step_mem_follows c e), ?_, ?_, ?_⟩
  · intro hheard
    by_cases hbefore : FinHeard c.tcp.state
    · exact (hc.whole hbefore).trans hgrows
    · -- the FIN finds everything before it in the queue
      rcases fin_of_finHeard hc.met hbefore hheard with ⟨env, seg, rfl, hF⟩
      have hin := (hc.early hbefore).1
      have hqueued : queuedBytes c.log = p.stream := hin.queued.eq_of_length_le (hok.2 hF)
      rwa [hqueued] at hgrows
  · exact most_step hc.met (fun hst => (hc.early (by simp [hst, FinHeard])).1) hc.most hlen hok
  · intro hno
    have hbefore : ¬ FinHeard c.tcp.state := fun h =>
      hno (finHeard_of_follows h (step_mem_follows c e))
    rcases hc.early hbefore with ⟨hin, hemits⟩
    exact early_step hc.met hin hemits hlen hok hack hno

end Step

end Tcp
end DtsNet
