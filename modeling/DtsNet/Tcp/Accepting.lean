import DtsNet.Tcp.Handshake
import DtsNet.Tcp.Window

/-!
# Accepting — how a listener becomes a connection

A connection that was opened passively leaves LISTEN and SYN_RECEIVED by an acknowledgment only,
and SYN_RECEIVED takes any acknowledgment from `snd.una` to `snd.nxt`: that of the SYN,ACK it
sent, but also `iss` itself.  `AcceptOk` keeps a run away from the places where the code lets
other acknowledgments through: a FIN is looked at behind a refused acknowledgment, a listener
that is entered again adds to `snd.nxt`, and ranges that wrap around are compared wrongly.
-/

namespace DtsNet
namespace Tcp

open Ip Dblk

variable {τ : Type}

/-! ## The invariant -/

/-- The states before the connection is established. -/
def Handshaking (s : State) : Prop :=
  s = .listen ∨ s = .synReceived

structure PassiveInv (iss : UInt32) (c : Conn τ) : Prop where
  passive : c.tcp.passive = true
  sndIss : c.tcp.snd.iss = iss
  una : c.tcp.snd.una = iss
  nxt : c.tcp.state = .synReceived → c.tcp.snd.nxt = iss + 1

def AcceptOk (c : Conn τ) : Event → Prop
  | .received _ seg =>
      match c.tcp.state with
      | .listen =>
          segCtrlS seg.toSegment = true → segCtrlR seg.toSegment = false →
            c.tcp.snd.nxt = c.tcp.snd.iss
      | .synReceived =>
          ¬ WindowWraps c.tcp ∧ c.tcp.snd.iss ≠ 4294967295 ∧
            (segCtrlA seg.toSegment = true → segCtrlR seg.toSegment = false →
              segCtrlF seg.toSegment = true →
                sncmp c.tcp.snd.una .le seg.ack .le c.tcp.snd.nxt = true)
      | _ => True
  | _ => True

/-- The segment acknowledges `iss` or the SYN behind it. -/
def AcksSyn (iss : UInt32) (seg : Received) : Prop :=
  segCtrlA seg.toSegment = true ∧ (seg.ack = iss ∨ seg.ack = iss + 1)

/-- What `received_when_syn_received` asks of a segment before it leaves SYN_RECEIVED for
ESTABLISHED or CLOSE_WAIT. -/
structure AcceptedAck (iss : UInt32) (c : Conn τ) (seg : Received) : Prop where
  state : c.tcp.state = .synReceived
  accepted : seqAccepted c.tcp seg.toSegment = true
  not_rst : segCtrlR seg.toSegment = false
  acks : AcksSyn iss seg

theorem PassiveInv.congr {iss : UInt32} {c c' : Conn τ} (hc : PassiveInv iss c)
    (hpassive : c'.tcp.passive = c.tcp.passive) (hsnd : c'.tcp.snd = c.tcp.snd)
    (hst : c'.tcp.state = .synReceived → c.tcp.state = .synReceived) : PassiveInv iss c' := by
  refine ⟨hpassive.trans hc.passive, ?_, ?_, ?_⟩
  · rw [hsnd]
    exact hc.sndIss
  · rw [hsnd]
    exact hc.una
  · intro h
    rw [hsnd]
    exact hc.nxt (hst h)

/-! ## One step -/

variable {iss : UInt32} {c : Conn τ} (env : Env)

/-- Between `iss` and `iss + 1` there is nothing else. -/
theorem sncmp_iss_iff (hmax : iss ≠ 4294967295) (x : UInt32) :
    sncmp iss .le x .le (iss + 1) = true ↔ x = iss ∨ x = iss + 1 := by
  have hlt : iss < iss + 1 := Circular.lt_succ_iff.2 hmax
  have hsucc : (iss + 1).toNat = iss.toNat + 1 := Circular.toNat_succ_of_lt hlt
  have hle : iss ≤ iss + 1 := UInt32.le_of_lt hlt
  constructor
  · intro h
    rcases (sncmp_le_le_iff hle x).1 h with ⟨h₁, h₂⟩
    rw [UInt32.le_iff_toNat_le] at h₁ h₂
    have hx : x.toNat = iss.toNat ∨ x.toNat = (iss + 1).toNat := by omega
    exact hx.imp UInt32.toNat_inj.1 UInt32.toNat_inj.1
  · rintro (rfl | rfl)
    · exact (sncmp_le_le_iff hle _).2 ⟨UInt32.le_refl _, hle⟩
    · exact (sncmp_le_le_iff hle _).2 ⟨hle, UInt32.le_refl _⟩

theorem passiveInv_receivedWhenListen (hst : c.tcp.state = .listen) (hc : PassiveInv iss c)
    {seg : Received} (hok : AcceptOk c (.received env seg)) :
    Handshaking (receivedWhenListen env c seg).tcp.state ∧
      PassiveInv iss (receivedWhenListen env c seg) := by
  simp only [AcceptOk, hst] at hok
  refine ⟨receivedWhenListen_state env c hst seg, ?_⟩
  rcases receivedWhenListen_tcp env c seg with h | ⟨hS, hR, h | h⟩
  · exact hc.congr (by rw [h]) (by rw [h]) (by rw [h]; exact id)
  · -- the SYN,ACK did not go out
    refine ⟨?_, ?_, ?_, ?_⟩
    · simpa [h, takeSyn] using hc.passive
    · simpa [h, takeSyn] using hc.sndIss
    · simpa [h, takeSyn] using hc.una
    · intro hst'
      simp [h, takeSyn, hst] at hst'
  · refine ⟨?_, ?_, ?_, ?_⟩
    · simpa [h, takeSyn] using hc.passive
    · simpa [h, takeSyn] using hc.sndIss
    · simpa [h, takeSyn] using hc.una
    · intro _
      simpa [h, takeSyn, hc.sndIss] using hok hS hR

theorem passiveInv_receivedWhenSynReceived (hst : c.tcp.state = .synReceived)
    (hc : PassiveInv iss c) {seg : Received} (hok : AcceptOk c (.received env seg)) :
    (Handshaking (receivedWhenSynReceived env c seg).tcp.state ∧
        PassiveInv iss (receivedWhenSynReceived env c seg)) ∨
      ¬ Handshaking (receivedWhenSynReceived env c seg).tcp.state ∧ AcceptedAck iss c seg := by
  simp only [AcceptOk, hst] at hok
  rcases hok with ⟨_, hmax, hfin⟩
  -- whatever leaves the control block alone leaves the connection in SYN_RECEIVED
  have hsame : ∀ c' : Conn τ, c'.tcp = c.tcp →
      Handshaking c'.tcp.state ∧ PassiveInv iss c' := by
    intro c' h
    exact ⟨Or.inr (by rw [h, hst]), hc.congr (by rw [h]) (by rw [h]) (by rw [h]; exact id)⟩
  cases hacc : seqAccepted c.tcp seg.toSegment with
  | false =>
      left
      rw [receivedWhenSynReceived_of_rejected env c hacc]
      exact hsame _ (processReceivedSeq_tcp env c seg)
  | true =>
      cases hR : segCtrlR seg.toSegment with
      | true =>
          left
          rw [receivedWhenSynReceived_of_rst env c hacc hR, if_pos hc.passive]
          exact ⟨Or.inl rfl, hc.congr rfl rfl fun h => by cases h⟩
      | false =>
          cases hA : segCtrlA seg.toSegment with
          | false =>
              left
              rw [receivedWhenSynReceived_of_no_ack env c hacc hR hA]
              exact hsame c rfl
          | true =>
              have hcmp : sncmp c.tcp.snd.una .le seg.ack .le c.tcp.snd.nxt = true ↔
                  seg.ack = iss ∨ seg.ack = iss + 1 := by
                rw [hc.una, hc.nxt hst]
                exact sncmp_iss_iff (hc.sndIss ▸ hmax) seg.ack
              cases hack : sncmp c.tcp.snd.una .le seg.ack .le c.tcp.snd.nxt with
              | true =>
                  right
                  refine ⟨?_, hst, hacc, hR, hA, hcmp.1 hack⟩
                  rw [receivedWhenSynReceived_of_ack env c hacc hR hA, ackSynReceived_of env c hack]
                  cases segCtrlF seg.toSegment <;> simp [Handshaking]
              | false =>
                  left
                  have hF : segCtrlF seg.toSegment = false := by
                    by_contra hF
                    simp [hfin hA hR (by simpa using hF)] at hack
                  rw [receivedWhenSynReceived_of_ack env c hacc hR hA, hF,
                    ackSynReceived_of_not env c hack]
                  exact hsame _ (tcpSendCtrlSeg_rst_tcp env c seg.ack 0)

variable [TimerLib τ]

/-- A connection that is not yet established stays so until it accepts an acknowledgment. -/
theorem passiveInv_step (hst : Handshaking c.tcp.state) (hc : PassiveInv iss c) {e : Event}
    (hok : AcceptOk c e) :
    (Handshaking (step c e).tcp.state ∧ PassiveInv iss (step c e)) ∨
      ¬ Handshaking (step c e).tcp.state ∧
        ∃ env seg, e = .received env seg ∧ AcceptedAck iss c seg := by
  -- outside the handlers of segments there is nothing for these states
  have hkeep : ∀ c' : Conn τ, c'.tcp.passive = c.tcp.passive → c'.tcp.snd = c.tcp.snd →
      c'.tcp.state = c.tcp.state → Handshaking c'.tcp.state ∧ PassiveInv iss c' := by
    intro c' hpassive hsnd hst'
    exact ⟨hst' ▸ hst, hc.congr hpassive hsnd fun h => hst' ▸ h⟩
  cases e with
  | received env seg =>
      rcases hst with hst | hst
      · left
        simpa [step, tcpReceived, hst, receivedEventProcess] using
          passiveInv_receivedWhenListen env hst hc hok
      · have h := passiveInv_receivedWhenSynReceived env hst hc hok
        have hhandler : step c (.received env seg) = receivedWhenSynReceived env c seg := by
          simp [step, tcpReceived, hst, receivedEventProcess]
        rw [hhandler]
        rcases h with h | ⟨hout, h⟩
        · exact Or.inl h
        · exact Or.inr ⟨hout, env, seg, rfl, h⟩
  | send env data =>
      left
      have hne : c.tcp.state ≠ .established := by
        rcases hst with hst | hst <;> simp [hst]
      have h : step c (.send env data) = c := congrArg Prod.fst (tcpSend_of_not env c hne data)
      exact hkeep _ (by rw [h]) (by rw [h]) (by rw [h])
  | recv data size =>
      left
      exact hkeep _ (sendFrame_recvEvent c data size).passive (recvEvent_snd c data size)
        (recvEvent_state c data size)
  | close env =>
      left
      rcases tcpClose_cases env c with ⟨hst', _⟩ | h
      · rcases hst with hst | hst <;> simp [hst] at hst'
      · exact hkeep _ (by rw [step, h]) (by rw [step, h]) (by rw [step, h])
  | loop env =>
      left
      rcases tcpLoopVisit_cases env c with h | ⟨hre, _⟩ | ⟨hst', _⟩ | ⟨_, _, h⟩
      · exact hkeep _ (by rw [step, h]) (by rw [step, h]) (by rw [step, h])
      · rcases hst with hst | hst <;> simp [Retransmits, hst] at hre
      · rcases hst with hst | hst <;> simp [hst] at hst'
      · exact hkeep _ (by rw [step, h]; rfl) (by rw [step, h]; rfl) (by rw [step, h]; rfl)

theorem not_handshaking_step (hst : ¬ Handshaking c.tcp.state) (e : Event) :
    ¬ Handshaking (step c e).tcp.state := by
  have hfollows := step_mem_follows c e
  intro h
  cases hst' : c.tcp.state with
  | listen =>
      exact hst (Or.inl hst')
  | synReceived =>
      exact hst (Or.inr hst')
  | _ =>
      rcases h with h | h <;> simp [hst', h, follows] at hfollows

/-! ## Runs -/

theorem OpenedPassive.passiveInv {c₀ : Conn τ} (h₀ : OpenedPassive c₀) :
    PassiveInv c₀.tcp.snd.iss c₀ := by
  rcases h₀.listen with ⟨hst, hsnd, _, _⟩
  rcases h₀ with ⟨env, ip, port, destPort, hopen⟩
  rw [tcpOpenConn_passive] at hopen
  cases hopen
  exact ⟨rfl, rfl, rfl, fun h => by cases h⟩

theorem OpenedPassive.opened {c₀ : Conn τ} (h₀ : OpenedPassive c₀) : Opened c₀ := by
  rcases h₀ with ⟨env, ip, port, destPort, hopen⟩
  exact ⟨env, ip, port, none, destPort, hopen⟩

theorem passiveInv_run {c₀ : Conn τ} {es : List Event} (h₀ : OpenedPassive c₀)
    (hok : Machine.Along step AcceptOk c₀ es) (hst : Handshaking (runConn c₀ es).tcp.state) :
    PassiveInv c₀.tcp.snd.iss (runConn c₀ es) := by
  have hstep : ∀ (c : Conn τ) (e : Event),
      (Handshaking c.tcp.state → PassiveInv c₀.tcp.snd.iss c) → AcceptOk c e →
        Handshaking (step c e).tcp.state → PassiveInv c₀.tcp.snd.iss (step c e) := by
    intro c e hc hok hst'
    by_cases hst : Handshaking c.tcp.state
    · rcases passiveInv_step hst (hc hst) hok with h | ⟨hout, _⟩
      · exact h.2
      · exact absurd hst' hout
    · exact absurd hst' (not_handshaking_step hst e)
  exact Machine.run_invariant step
    (I := fun c => Handshaking c.tcp.state → PassiveInv c₀.tcp.snd.iss c) hstep
    (fun _ => h₀.passiveInv) hok hst

/-- In every run that keeps to `AcceptOk`, a listener that is past SYN_RECEIVED accepted, after it
last left LISTEN, an acknowledgment of `iss` or `iss + 1` in the window; every other segment finds
and leaves it in LISTEN or SYN_RECEIVED. -/
theorem accepted_ack_of_not_handshaking {c₀ : Conn τ} {es : List Event} (h₀ : OpenedPassive c₀)
    (hok : Machine.Along step AcceptOk c₀ es) :
    (¬ Handshaking (runConn c₀ es).tcp.state →
        ∃ pre env seg post, es = pre ++ .received env seg :: post ∧
          AcceptedAck c₀.tcp.snd.iss (runConn c₀ pre) seg ∧
          ¬ OutOfWindow (runConn c₀ pre).tcp seg.toSegment ∧
          ∀ p, p <+: post → (runConn c₀ (pre ++ .received env seg :: p)).tcp.state ≠ .listen) ∧
      ∀ pre env seg post, es = pre ++ .received env seg :: post →
        Handshaking (runConn c₀ pre).tcp.state → ¬ AcksSyn c₀.tcp.snd.iss seg →
          Handshaking (runConn c₀ (pre ++ [.received env seg])).tcp.state := by
  constructor
  · intro hout
    have hstart : Handshaking c₀.tcp.state := Or.inl h₀.listen.1
    rcases Machine.exists_last_leave step (I := fun c => Handshaking c.tcp.state) hstart hout with
      ⟨pre, e, post, rfl, hpre, hpost⟩
    rw [Machine.along_append] at hok
    rcases hok with ⟨hokpre, hoke, _⟩
    -- the last step out of the handshake is the one that accepts the acknowledgment
    rcases passiveInv_step hpre (passiveInv_run h₀ hokpre hpre) hoke with
      ⟨hin, _⟩ | ⟨_, env, seg, rfl, hacc⟩
    · have hleft := hpost [] List.nil_prefix
      simp only [Machine.run_append, Machine.run_cons, Machine.run_nil] at hleft
      exact absurd hin hleft
    · refine ⟨pre, env, seg, post, rfl, hacc, ?_, ?_⟩
      · intro hwindow
        have hwnd := wnd_reachable ⟨c₀, pre, h₀.opened, rfl⟩
        have hwraps := (seqAccepted_of_outOfWindow hwnd hwindow).1 hacc.accepted
        simp only [AcceptOk, hacc.state] at hoke
        exact hoke.1 hwraps
      · intro p hp hlisten
        exact hpost p hp (Or.inl hlisten)
  · rintro pre env seg post rfl hpre hno
    rw [Machine.along_append] at hok
    rcases hok with ⟨hokpre, hoke, _⟩
    have hrun : runConn c₀ (pre ++ [.received env seg]) =
        step (runConn c₀ pre) (.received env seg) := by
      simp
    rw [hrun]
    rcases passiveInv_step hpre (passiveInv_run h₀ hokpre hpre) hoke with
      ⟨hin, _⟩ | ⟨_, env', seg', heq, hacc⟩
    · exact hin
    · cases heq
      exact absurd hacc.acks hno

/-- The peer's SYN and its next segment, which acknowledges `ack`. -/
def sampleAccepting (ack : UInt32) : List Event :=
  [.received (.working 101) (peerSegment 700 0 segFlagSyn []),
    .received (.working 102) (peerSegment 701 ack segFlagAck [])]

theorem accepted_ack_of_not_handshaking_sample :
    ∃ pre env seg post, sampleAccepting 101 = pre ++ .received env seg :: post ∧
      AcceptedAck 100 (runConn (sampleConn 100 none) pre) seg ∧
      ¬ OutOfWindow (runConn (sampleConn 100 none) pre).tcp seg.toSegment ∧
      ∀ p, p <+: post →
        (runConn (sampleConn 100 none) (pre ++ .received env seg :: p)).tcp.state ≠ .listen := by
  have hok : Machine.Along step AcceptOk (sampleConn 100 none) (sampleAccepting 101) := by
    refine ⟨fun _ _ => by decide, ⟨by decide, by decide, fun _ _ h => ?_⟩, trivial⟩
    exact absurd h (by decide)
  have hout : ¬ Handshaking (runConn (sampleConn 100 none) (sampleAccepting 101)).tcp.state := by
    rintro (h | h) <;> exact absurd h (by decide)
  exact (accepted_ack_of_not_handshaking (openedPassive_sampleConn 100) hok).1 hout

/-- A segment that acknowledges nothing but `iss` is enough to get to ESTABLISHED. -/
theorem established_by_iss :
    ∃ c₀ : Conn Deadline, ∃ es : List Event, OpenedPassive c₀ ∧
      (runConn c₀ es).tcp.state = .established ∧
      ∀ env seg, Event.received env seg ∈ es →
        ¬ (segCtrlA seg.toSegment = true ∧ seg.ack = c₀.tcp.snd.iss + 1) := by
  refine ⟨sampleConn 100 none, sampleAccepting 100, openedPassive_sampleConn 100, by decide, ?_⟩
  intro env seg hmem
  rcases List.mem_cons.1 hmem with h | h
  · cases h
    decide
  · cases List.mem_singleton.1 h
    decide

end Tcp
end DtsNet
