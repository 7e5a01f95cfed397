import DtsNet.Tcp.Binding
import DtsNet.Tcp.Queue

/-!
# Closing — what a closed connection can still become

`tcp_close` has a handler for ESTABLISHED and CLOSE_WAIT only, and leaves a connection in any other
state as it is.  From most states no arrow leads to ESTABLISHED; from LISTEN, SYN_SENT and
SYN_RECEIVED the handshake goes on as if the connection had not been closed.
-/

namespace DtsNet
namespace Tcp

open Ip Dblk

variable {τ : Type} [TimerLib τ]

/-- From here on the connection is never ESTABLISHED and never leaves LISTEN for SYN_RECEIVED. -/
def StaysClosed (c : Conn τ) : Prop :=
  ∀ es, (runConn c es).tcp.state ≠ .established ∧
    ∀ e, (runConn c es).tcp.state = .listen → (runConn c (es ++ [e])).tcp.state ≠ .synReceived

/-- The states from which no event leads to ESTABLISHED or LISTEN. -/
def Ended (s : State) : Prop :=
  s = .finWait1 ∨ s = .finWait2 ∨ s = .timeWait ∨ s = .closeWait ∨ s = .lastAck ∨ s = .closing ∨
    s = .closed

theorem ended_of_follows {s s' : State} (hs : Ended s) (h : s' ∈ follows s) : Ended s' := by
  rcases hs with rfl | rfl | rfl | rfl | rfl | rfl | rfl <;>
    simp only [follows, List.mem_cons, List.not_mem_nil, or_false] at h <;>
    rcases h with rfl | rfl <;> simp [Ended]

theorem Ended.ne {s : State} (hs : Ended s) : s ≠ .established ∧ s ≠ .listen := by
  rcases hs with rfl | rfl | rfl | rfl | rfl | rfl | rfl <;> simp

/-- An invariant of all events that excludes ESTABLISHED and LISTEN keeps the connection closed. -/
theorem staysClosed_of_invariant {I : Conn τ → Prop} (hstep : ∀ c e, I c → I (step c e))
    (hI : ∀ c, I c → c.tcp.state ≠ .established ∧ c.tcp.state ≠ .listen) {c : Conn τ} (hc : I c) :
    StaysClosed c := by
  intro es
  have hrun := hI _ (Machine.run_preserves step hstep hc es)
  exact ⟨hrun.1, fun _ hlisten => absurd hlisten hrun.2⟩

theorem staysClosed_of_ended {c : Conn τ} (hc : Ended c.tcp.state) : StaysClosed c :=
  staysClosed_of_invariant (I := fun c => Ended c.tcp.state)
    (fun c e h => ended_of_follows h (step_mem_follows c e)) (fun _ h => h.ne) hc

/-! ## SYN_SENT -/

/-- What SYN_SENT knows of the send sequence: `snd.una` moves only to the one number sent, except
behind the largest ISN, where the comparison of sequence numbers lets others through. -/
structure SynSentInv (c : Conn τ) : Prop where
  nxt : c.tcp.state = .synSent → c.tcp.snd.nxt = c.tcp.snd.iss + 1
  una : c.tcp.state = .synSent → c.tcp.snd.iss ≠ 4294967295 →
    c.tcp.snd.una = c.tcp.snd.iss ∨ c.tcp.snd.una = c.tcp.snd.iss + 1

omit [TimerLib τ] in
theorem SynSentInv.congr {c c' : Conn τ} (hc : SynSentInv c)
    (hstate : c'.tcp.state = .synSent → c.tcp.state = .synSent)
    (hsnd : c'.tcp.snd = c.tcp.snd) : SynSentInv c' := by
  refine ⟨?_, ?_⟩
  · intro hst
    rw [hsnd]
    exact hc.nxt (hstate hst)
  · intro hst
    rw [hsnd]
    exact hc.una (hstate hst)

theorem lt_add_one_of_ne {x : UInt32} (h : x ≠ 4294967295) : x < x + 1 := by
  have hlt := x.toNat_lt
  have hne : x.toNat ≠ 4294967295 := fun heq => h (UInt32.toNat_inj.1 heq)
  rw [UInt32.lt_iff_toNat_lt, UInt32.toNat_add]
  simp
  omega

theorem synSentInv_receivedWhenSynSent {c : Conn τ} (env : Env) (hst : c.tcp.state = .synSent)
    (hc : SynSentInv c) (seg : Received) : SynSentInv (receivedWhenSynSent env c seg) := by
  rcases receivedWhenSynSent_cases env c seg with h | ⟨_, _, _, h⟩ | ⟨_, _, h⟩
  · rw [h]
    exact hc
  · rw [h]
    exact hc.congr (fun _ => hst) (by simp)
  · rcases h with ⟨_, h⟩ | ⟨_, _, hack, h⟩
    · rw [h]
      exact hc.congr (fun h => by simp at h) rfl
    · rw [h]
      rcases synAckReply_cases env c seg with ⟨_, htcp, _⟩ | ⟨_, _, h⟩
      · refine ⟨?_, ?_⟩
        · intro _
          simpa [htcp, takeSynAck] using hc.nxt hst
        · -- only `iss + 1` is above `iss` and not above `snd.nxt`
          intro _ hmax
          simp only [htcp, takeSynAck] at hmax ⊢
          rw [hc.nxt hst] at hack
          have hlt := lt_add_one_of_ne hmax
          have hne : c.tcp.snd.iss ≠ c.tcp.snd.iss + 1 := fun heq => by
            rw [← heq] at hlt
            exact absurd hlt (by simp)
          have hrange := (sncmp_ls_le_iff (UInt32.le_of_lt hlt) seg.ack).1 hack
          exact Or.inr (eq_of_sncmp_succ hrange.1 hack)
      · have hend : (synAckReply env c seg).tcp.state = .established := by simp [h]
        refine ⟨?_, ?_⟩ <;>
        · intro hst'
          simp [hend] at hst'

/-- In SYN_SENT only an arriving segment touches the state or the send sequence. -/
theorem step_synSent (c : Conn τ) (e : Event) (hst : c.tcp.state = .synSent) :
    (∃ env seg, step c e = receivedWhenSynSent env c seg) ∨
      (step c e).tcp.state = .synSent ∧ (step c e).tcp.snd = c.tcp.snd := by
  cases e with
  | received env seg =>
      left
      exact ⟨env, seg, by simp [step, tcpReceived, hst, receivedEventProcess]⟩
  | send env data =>
      right
      simp [step, tcpSend_of_not env c (by simp [hst]), hst]
  | recv data size =>
      right
      exact ⟨(recvEvent_state c data size).trans hst, recvEvent_snd c data size⟩
  | close env =>
      right
      simp [step, tcpClose, hst, closeEventProcess]
  | loop env =>
      right
      rcases tcpLoopVisit_cases env c with h | ⟨_, h⟩ | ⟨htw, _⟩ | ⟨_, _, h⟩
      · simp [step, h, hst]
      · simp [step, h, tcpRetransmit_tcp, stopTimer, hst]
      · simp [hst] at htw
      · simp [step, h, stopTimer, hst]

theorem synSentInv_step (c : Conn τ) (e : Event) (hc : SynSentInv c) : SynSentInv (step c e) := by
  by_cases hst : c.tcp.state = .synSent
  · rcases step_synSent c e hst with ⟨env, seg, h⟩ | ⟨_, hsnd⟩
    · rw [h]
      exact synSentInv_receivedWhenSynSent env hst hc seg
    · exact hc.congr (fun _ => hst) hsnd
  · -- an event that ends in SYN_SENT began there
    have hback : (step c e).tcp.state ≠ .synSent := by
      intro hst'
      have hmem := step_mem_follows c e
      rw [hst'] at hmem
      cases hs : c.tcp.state <;> simp [hs, follows] at hmem hst
    exact ⟨fun h => absurd h hback, fun h => absurd h hback⟩

theorem synSentInv_opened {c : Conn τ} (hc : Opened c) : SynSentInv c := by
  rcases hc with ⟨env, ip, port, dest, destPort, h⟩
  cases dest with
  | none =>
      rw [tcpOpenConn_passive] at h
      cases h
      exact ⟨fun h => by simp [listenTcb] at h, fun h => by simp [listenTcb] at h⟩
  | some dest =>
      have hc := tcpOpenConn_some env h
      subst hc
      refine ⟨?_, ?_⟩
      · intro _
        simp [tcpRetransmit_tcp, synPacked]
      · intro _ _
        simp [tcpRetransmit_tcp, synPacked]

/-! ## LISTEN and SYN_RECEIVED -/

/-- Only a passive opener is ever in LISTEN or SYN_RECEIVED. -/
def PassiveWaits (c : Conn τ) : Prop :=
  c.tcp.state = .listen ∨ c.tcp.state = .synReceived → c.tcp.passive = true

theorem passiveWaits_step (c : Conn τ) (e : Event) (hc : PassiveWaits c) :
    PassiveWaits (step c e) := by
  intro hst
  have hpassive : (step c e).tcp.passive = c.tcp.passive :=
    congrArg Binding.passive (binding_step c e)
  have hmem := step_mem_follows c e
  rw [hpassive]
  apply hc
  cases hs : c.tcp.state <;> rcases hst with hst | hst <;> simp [hs, hst, follows] at hmem ⊢

theorem passiveWaits_opened {c : Conn τ} (hc : Opened c) : PassiveWaits c := by
  rcases hc with ⟨env, ip, port, dest, destPort, h⟩
  rcases binding_tcpOpenConn env c h with ⟨hbinding, hstate⟩
  have hpassive : c.tcp.passive = dest.isNone := congrArg Binding.passive hbinding
  intro hst
  rw [hpassive]
  cases dest with
  | none =>
      rfl
  | some dest =>
      simp [hstate] at hst

theorem synSentInv_reachable {c : Conn τ} (hc : Reachable c) : SynSentInv c := by
  rcases hc with ⟨c₀, es, h₀, rfl⟩
  exact Machine.run_preserves step synSentInv_step (synSentInv_opened h₀) es

theorem passiveWaits_reachable {c : Conn τ} (hc : Reachable c) : PassiveWaits c := by
  rcases hc with ⟨c₀, es, h₀, rfl⟩
  exact Machine.run_preserves step passiveWaits_step (passiveWaits_opened h₀) es

/-! ## How each handshake goes on -/

/-- A segment with these fields and no text. -/
def bareSegment (seq ack : UInt32) (flags : UInt16) : Received :=
  peerSegment seq ack flags []

theorem synReceived_of_listen {c : Conn τ} (hst : c.tcp.state = .listen) :
    (step c (.received (.working 0) (bareSegment 0 0 segFlagSyn))).tcp.state = .synReceived := by
  have hflags : (bareSegment 0 0 segFlagSyn).toSegment.flags = segFlagSyn := rfl
  rcases ctrl_of_flags_syn hflags with ⟨hA, hS, hR, _⟩
  have hsend : ∀ (c : Conn τ) seq ack flags,
      (tcpSendCtrlSeg (.working 0) c seq ack flags).2 = true :=
    fun c seq ack flags => tcpSendCtrlSeg_ok (.working 0) c seq ack flags
  simp [step, tcpReceived, hst, receivedEventProcess, receivedWhenListen, hA, hS, hR, hsend]

theorem not_staysClosed_of_listen {c : Conn τ} (hst : c.tcp.state = .listen) :
    ¬ StaysClosed c := by
  intro h
  exact (h []).2 (.received (.working 0) (bareSegment 0 0 segFlagSyn)) hst
    (synReceived_of_listen hst)

omit [TimerLib τ] in
/-- With the window of 1500 there is always a number that `process_received_seq` accepts. -/
theorem exists_seqAccepted (t : Tcb τ) (hwnd : t.rcv.wnd = 1500) (ack : UInt32) (flags : UInt16) :
    ∃ seq, seqAccepted t (bareSegment seq ack flags).toSegment = true := by
  have hfirst : ∀ seq, sncmp t.rcv.nxt .le seq .ls (t.rcv.nxt + 1500) = true →
      seqAccepted t (bareSegment seq ack flags).toSegment = true := by
    intro seq h
    have hseq : (bareSegment seq ack flags).toSegment.seq = seq := rfl
    have hwnd' : t.rcv.wnd.toUInt32 = 1500 := by rw [hwnd]; rfl
    simp [seqAccepted, hwnd, hseq, h]
  have hne : t.rcv.nxt ≠ t.rcv.nxt + 1500 := by
    intro heq
    have := congrArg UInt32.toNat heq
    have := t.rcv.nxt.toNat_lt
    simp only [UInt32.toNat_add, UInt32.reduceToNat] at *
    omega
  by_cases hlt : t.rcv.nxt < t.rcv.nxt + 1500
  · exact ⟨t.rcv.nxt, hfirst _ (by simp [sncmp, hne, hlt])⟩
  · -- a window that wraps is compared from its end
    refine ⟨t.rcv.nxt + 1500, hfirst _ ?_⟩
    have hgt : t.rcv.nxt + 1500 < t.rcv.nxt :=
      UInt32.lt_of_le_of_ne (UInt32.not_lt.1 hlt) hne.symm
    simp [sncmp, hne, hlt, hgt]

/-- A RST takes the connection back to LISTEN, where a SYN opens it again. -/
theorem not_staysClosed_of_synReceived {c : Conn τ} (hst : c.tcp.state = .synReceived)
    (hpassive : c.tcp.passive = true) (hwnd : c.tcp.rcv.wnd = 1500) : ¬ StaysClosed c := by
  rcases exists_seqAccepted c.tcp hwnd 0 segFlagRst with ⟨seq, hseq⟩
  have hflags : (bareSegment seq 0 segFlagRst).toSegment.flags = segFlagRst := rfl
  rcases ctrl_of_flags_rst hflags with ⟨_, _, hR, _⟩
  have hlisten : (step c (.received (.working 0) (bareSegment seq 0 segFlagRst))).tcp.state =
      .listen := by
    simp [step, tcpReceived, hst, receivedEventProcess,
      receivedWhenSynReceived_of_rst _ c hseq hR, hpassive]
  intro h
  refine not_staysClosed_of_listen hlisten ?_
  intro es
  exact h (.received (.working 0) (bareSegment seq 0 segFlagRst) :: es)

theorem not_staysClosed_of_synSent {c : Conn τ} (hst : c.tcp.state = .synSent)
    (hmax : c.tcp.snd.iss ≠ 4294967295) (hc : SynSentInv c) : ¬ StaysClosed c := by
  let ack := c.tcp.snd.iss + 1
  let seg := bareSegment 0 ack (segFlagSyn ||| segFlagAck)
  have hlt : c.tcp.snd.iss < ack := lt_add_one_of_ne hmax
  have hne : c.tcp.snd.iss ≠ ack := fun heq => by
    rw [← heq] at hlt
    exact absurd hlt (by simp)
  have hiss : sncmp c.tcp.snd.iss .ls ack .le c.tcp.snd.nxt = true := by
    rw [hc.nxt hst, sncmp_ls_le_iff (UInt32.le_of_lt hlt)]
    exact ⟨hlt, UInt32.le_refl _⟩
  have huna : sncmp c.tcp.snd.una .le ack .le c.tcp.snd.nxt = true := by
    rw [hc.nxt hst]
    rcases hc.una hst hmax with h | h
    · rw [h, sncmp_le_le_iff (UInt32.le_of_lt hlt)]
      exact ⟨UInt32.le_of_lt hlt, UInt32.le_refl _⟩
    · rw [h, sncmp_le_le_iff (UInt32.le_refl _)]
      exact ⟨UInt32.le_refl _, UInt32.le_refl _⟩
  have hest : (step c (.received (.working 0) seg)).tcp.state = .established := by
    have hflags : seg.toSegment.flags = segFlagSyn ||| segFlagAck := rfl
    rcases ctrl_of_flags_synAck hflags with ⟨hA, hS, hR, _⟩
    have hsend : ∀ (c : Conn τ) seq ack flags,
        (tcpSendCtrlSeg (.working 0) c seq ack flags).2 = true :=
      fun c seq ack flags => tcpSendCtrlSeg_ok (.working 0) c seq ack flags
    have hack : seg.ack = ack := rfl
    simp [step, tcpReceived, hst, receivedEventProcess, receivedWhenSynSent, synSentAcceptable,
      hA, hS, hR, hack, hiss, huna, hlt, hsend]
  intro h
  exact (h [.received (.working 0) seg]).1 hest

/-! ## The result -/

/-- SYN_SENT behind the largest ISN never becomes ESTABLISHED, closed or not: no acknowledgment is
above `iss`. -/
theorem synSent_or_closed_step {c : Conn τ} (hst : c.tcp.state = .synSent)
    (hmax : c.tcp.snd.iss = 4294967295) (e : Event) :
    (step c e).tcp.state = .synSent ∨ (step c e).tcp.state = .closed := by
  rcases step_synSent c e hst with ⟨env, seg, h⟩ | ⟨h, _⟩
  · rw [h]
    rcases receivedWhenSynSent_cases env c seg with h | ⟨_, _, _, h⟩ | ⟨_, _, h⟩
    · exact Or.inl (by rw [h, hst])
    · exact Or.inl (by simp [h, hst])
    · rcases h with ⟨_, h⟩ | ⟨_, _, _, h⟩
      · exact Or.inr (by rw [h])
      · rcases synAckReply_cases env c seg with ⟨_, htcp, _⟩ | ⟨hlt, _, _⟩
        · exact Or.inl (by rw [h, htcp, takeSynAck, hst])
        · have hack : seg.ack.toNat < 2 ^ 32 := seg.ack.toNat_lt
          have hiss : c.tcp.snd.iss.toNat = 4294967295 := by rw [hmax]; rfl
          rw [UInt32.lt_iff_toNat_lt] at hlt
          omega
  · exact Or.inl h

theorem staysClosed_of_synSent {c : Conn τ} (hst : c.tcp.state = .synSent)
    (hmax : c.tcp.snd.iss = 4294967295) : StaysClosed c := by
  refine staysClosed_of_invariant
    (I := fun c => c.tcp.snd.iss = 4294967295 ∧ (c.tcp.state = .synSent ∨ c.tcp.state = .closed))
    ?_ ?_ ⟨hmax, Or.inl hst⟩
  · rintro c e ⟨hmax, hst⟩
    have hiss : (step c e).tcp.snd.iss = c.tcp.snd.iss := congrArg Binding.iss (binding_step c e)
    refine ⟨hiss.trans hmax, ?_⟩
    rcases hst with hst | hst
    · exact synSent_or_closed_step hst hmax e
    · have hmem := step_mem_follows c e
      simp only [hst, follows, List.mem_singleton] at hmem
      exact Or.inr hmem
  · rintro c ⟨_, hst | hst⟩ <;> simp [hst]

/-! ## The result -/

/-- The states, and for SYN_SENT the ISN, in which `tcp_close` closes the connection for good. -/
def CloseOk (t : Tcb τ) : Prop :=
  t.state ≠ .listen ∧ t.state ≠ .synReceived ∧ (t.state = .synSent → t.snd.iss = 4294967295)

instance (t : Tcb τ) : Decidable (CloseOk t) :=
  inferInstanceAs (Decidable (_ ∧ _ ∧ (_ → _)))

theorem tcpClose_of_sparse {c : Conn τ} (env : Env)
    (hst : c.tcp.state ≠ .established ∧ c.tcp.state ≠ .closeWait) : tcpClose env c = c := by
  rcases tcpClose_cases env c with ⟨h, _⟩ | h
  · rcases h with h | h
    · exact absurd h hst.1
    · exact absurd h hst.2
  · exact h

/-- A connection that `tcp_close` was called on stays closed exactly if it was not in LISTEN or
SYN_RECEIVED, nor in SYN_SENT with an ISN that can be acknowledged. -/
theorem staysClosed_tcpClose_iff {c : Conn τ} (hc : Reachable c) (env : Env) :
    StaysClosed (tcpClose env c) ↔ CloseOk c.tcp := by
  constructor
  · intro h
    refine ⟨?_, ?_, ?_⟩
    · intro hst
      rw [tcpClose_of_sparse env (by simp [hst])] at h
      exact not_staysClosed_of_listen hst h
    · intro hst
      rw [tcpClose_of_sparse env (by simp [hst])] at h
      exact not_staysClosed_of_synReceived hst (passiveWaits_reachable hc (Or.inr hst))
        (wnd_reachable hc) h
    · intro hst
      rw [tcpClose_of_sparse env (by simp [hst])] at h
      by_contra hmax
      exact not_staysClosed_of_synSent hst hmax (synSentInv_reachable hc) h
  · rintro ⟨hlisten, hreceived, hsent⟩
    cases hst : c.tcp.state with
    | listen =>
        exact absurd hst hlisten
    | synReceived =>
        exact absurd hst hreceived
    | synSent =>
        rw [tcpClose_of_sparse env (by simp [hst])]
        exact staysClosed_of_synSent hst (hsent hst)
    | established =>
        have h : (tcpClose env c).tcp.state = .finWait1 := by
          simp [tcpClose, hst, closeEventProcess, closeWhenEstablished]
        exact staysClosed_of_ended (by simp [h, Ended])
    | closeWait =>
        have h : (tcpClose env c).tcp.state = .lastAck := by
          simp [tcpClose, hst, closeEventProcess, closeWhenCloseWait]
        exact staysClosed_of_ended (by simp [h, Ended])
    | _ =>
        rw [tcpClose_of_sparse env (by simp [hst])]
        exact staysClosed_of_ended (by simp [hst, Ended])

theorem staysClosed_tcpClose_iff_sample :
    StaysClosed (tcpClose (.working 11) (runConn (sampleConn 7 (some samplePeer))
      [.received (.working 10) (peerSegment 300 8 (segFlagSyn ||| segFlagAck) [])])) :=
  (staysClosed_tcpClose_iff ⟨_, _, opened_sampleConn 7 _, rfl⟩ (.working 11)).2 (by decide)

/-- A connecting socket that is closed before the SYN,ACK arrives becomes ESTABLISHED all the
same. -/
theorem not_staysClosed_synSent :
    ¬ ∀ (c : Conn Deadline) (env : Env), Reachable c → StaysClosed (tcpClose env c) := by
  intro h
  have hclosed := h (sampleConn 7 (some samplePeer)) (.working 9)
    ⟨sampleConn 7 (some samplePeer), [], opened_sampleConn 7 _, rfl⟩
  refine (hclosed [.received (.working 10) (peerSegment 300 8 (segFlagSyn ||| segFlagAck) [])]).1 ?_
  decide

end Tcp
end DtsNet
