import DtsNet.Dhcp.Lease

/-!
# Timers — whether the client ever waits without a timer

T1 is armed after every call of the loop but in two cases: SELECTING has no timeout, so an expired
T1 is only stopped there, and at the end of a lease both timers are stopped.
-/

namespace DtsNet
namespace Dhcp

open Dblk Ip Machine
open Ether (Mac)
open Tcp (TimerLib LawfulTimerLib)

section Timers

variable {τ : Type} [TimerLib τ]

/-- Neither an expired T1 in SELECTING without a message, nor T1 and T2 expired in REBINDING. -/
structure TimersOk (env : Env) (c : Client τ) : Prop where
  selecting : c.only.state = .selecting → TimerLib.expired c.only.t1 env.now = true →
    receivedMessage env ≠ none
  rebinding : c.only.state = .rebinding → TimerLib.expired c.only.t1 env.now = true →
    TimerLib.expired c.only.t2 env.now = false

def Run.TimersOk (r : Run τ) : Event → Prop
  | .loop env => Dhcp.TimersOk (env.at r.now) r.client
  | _ => True

/-- No lease has been obtained in this state. -/
def WithoutLease (state : ClientState) : Prop :=
  state = .init ∨ state = .selecting ∨ state = .requesting

variable [LawfulTimerLib τ]

/-- At least one of the timers is armed. -/
def HasTimer (c : Client τ) : Prop :=
  LawfulTimerLib.armed c.only.t1 ∨ LawfulTimerLib.armed c.only.t2

/-- The client was set up, and T2 is armed only for a lease. -/
structure Started (only : DhcpT τ) : Prop where
  setup : only.udpSetup = true
  started : only.state ≠ .initReboot ∧ only.state ≠ .rebooting
  t2 : WithoutLease only.state → ¬ LawfulTimerLib.armed only.t2

/-- What is kept along a run: besides, T1 is armed. -/
structure TimersInv (only : DhcpT τ) : Prop extends Started only where
  t1 : LawfulTimerLib.armed only.t1

theorem not_expired_of_not_armed {tmr : τ} (now : ℕ) (h : ¬ LawfulTimerLib.armed tmr) :
    TimerLib.expired tmr now = false := by
  cases hexpired : TimerLib.expired tmr now with
  | false =>
      rfl
  | true =>
      exact absurd (LawfulTimerLib.armed_of_expired tmr now hexpired) h

theorem not_expired_stop (tmr : τ) (now : ℕ) :
    TimerLib.expired (TimerLib.stop tmr) now = false :=
  not_expired_of_not_armed now (LawfulTimerLib.not_armed_stop tmr)

/-! ## The timers of the loop -/

omit [LawfulTimerLib τ] in
theorem not_withoutLease_bound : ¬ WithoutLease .bound := by
  simp [WithoutLease]

omit [LawfulTimerLib τ] in
theorem not_withoutLease_renewing : ¬ WithoutLease .renewing := by
  simp [WithoutLease]

omit [LawfulTimerLib τ] in
theorem not_withoutLease_rebinding : ¬ WithoutLease .rebinding := by
  simp [WithoutLease]

/-- Every timeout but two arms T1. -/
theorem timersInv_timeout {env : Env} {c : Client τ} (h : Started c.only)
    (hselecting : c.only.state ≠ .selecting)
    (hrebinding : c.only.state = .rebinding → TimerLib.expired c.only.t2 env.now = false) :
    TimersInv (dhcpClientTimeout env c).only := by
  have hstart := @LawfulTimerLib.armed_start τ _ _
  rw [timeout_only h.setup]
  cases hstate : c.only.state with
  | initReboot =>
      exact absurd hstate h.started.1
  | rebooting =>
      exact absurd hstate h.started.2
  | selecting =>
      exact absurd hstate hselecting
  | init =>
      -- without a lease T2 is not touched
      have ht2 := h.t2 (Or.inl hstate)
      exact ⟨⟨h.setup, h.started, fun _ => ht2⟩, hstart _ _ _⟩
  | requesting =>
      have ht2 := h.t2 (Or.inr (Or.inr hstate))
      exact ⟨⟨h.setup, h.started, fun _ => ht2⟩, hstart _ _ _⟩
  | bound =>
      exact ⟨⟨h.setup, ⟨by simp, by simp⟩, not_withoutLease_renewing.elim⟩, hstart _ _ _⟩
  | renewing =>
      simp only [retransmitted, hstate]
      split
      · exact ⟨⟨h.setup, ⟨by simp, by simp⟩, not_withoutLease_renewing.elim⟩, hstart _ _ _⟩
      · exact ⟨⟨h.setup, ⟨by simp, by simp⟩, not_withoutLease_rebinding.elim⟩, hstart _ _ _⟩
  | rebinding =>
      simp only [retransmitted, hstate, hrebinding hstate, if_true]
      exact ⟨⟨h.setup, ⟨by simp, by simp⟩, not_withoutLease_rebinding.elim⟩, hstart _ _ _⟩

theorem timersInv_loopT1 {env : Env} {c : Client τ} (h : TimersInv c.only)
    (hselecting : c.only.state = .selecting → TimerLib.expired c.only.t1 env.now = false)
    (hrebinding : c.only.state = .rebinding → TimerLib.expired c.only.t1 env.now = true →
      TimerLib.expired c.only.t2 env.now = false) : TimersInv (loopT1 env c).only := by
  by_cases hexpired : TimerLib.expired c.only.t1 env.now = true
  · rw [loopT1_of_expired hexpired]
    have hstarted : Started c.stopT1.only := ⟨h.setup, h.started, h.t2⟩
    refine timersInv_timeout hstarted ?_ fun hstate => hrebinding hstate hexpired
    intro hstate
    rw [hselecting hstate] at hexpired
    cases hexpired
  · rw [loopT1_of_not_expired (by simpa using hexpired)]
    exact h

/-- T2 is stopped when its timeout is handled, which therefore arms T1. -/
theorem timersInv_loopT2 {env : Env} {c : Client τ} (h : TimersInv c.only) :
    TimersInv (loopT2 env c).only := by
  by_cases hexpired : TimerLib.expired c.only.t2 env.now = true
  · rw [loopT2_of_expired hexpired]
    have hstarted : Started c.stopT2.only :=
      ⟨h.setup, h.started, fun _ => LawfulTimerLib.not_armed_stop _⟩
    refine timersInv_timeout hstarted ?_ fun _ => not_expired_stop _ _
    -- in SELECTING T2 cannot have expired
    intro hstate
    have hunarmed := h.t2 (Or.inr (Or.inl hstate))
    rw [not_expired_of_not_armed env.now hunarmed] at hexpired
    cases hexpired
  · rw [loopT2_of_not_expired (by simpa using hexpired)]
    exact h

/-! ## The message of the loop -/

/-- Every message in SELECTING arms T1. -/
theorem timersInv_receivedWhenSelecting {env : Env} {msg : DhcpMessage} {c : Client τ}
    (h : Started c.only) (hstate : c.only.state = .selecting) :
    TimersInv (receivedWhenSelecting env msg c).only := by
  have hstart := @LawfulTimerLib.armed_start τ _ _
  have ht2 := h.t2 (Or.inr (Or.inl hstate))
  by_cases hoffer : IsOffer msg
  · rw [receivedWhenSelecting_of_offer hoffer]
    simp only [sendRequest_only]
    exact ⟨⟨h.setup, ⟨nofun, nofun⟩, fun _ => ht2⟩, hstart _ _ _⟩
  · rw [receivedWhenSelecting_of_not_offer hoffer]
    exact ⟨⟨h.setup, h.started, h.t2⟩, hstart _ _ _⟩

theorem timersInv_receivedWhenRequesting {env : Env} {msg : DhcpMessage} {c : Client τ}
    (h : TimersInv c.only) : TimersInv (receivedWhenRequesting env msg c).only := by
  have hstart := @LawfulTimerLib.armed_start τ _ _
  by_cases hack : IsAck msg
  · cases hlease : dhcpOptionIpLeaseTime msg with
    | none =>
        -- the lease and both timers are untouched
        rw [receivedWhenRequesting_of_ack hack hlease]
        exact ⟨⟨h.setup, ⟨nofun, nofun⟩, not_withoutLease_bound.elim⟩, h.t1⟩
    | some lease =>
        rw [receivedWhenRequesting_of_lease hack hlease]
        exact ⟨⟨h.setup, ⟨nofun, nofun⟩, not_withoutLease_bound.elim⟩, hstart _ _ _⟩
  · rw [receivedWhenRequesting_of_not_ack hack]
    exact ⟨⟨h.setup, h.started, h.t2⟩, hstart _ _ _⟩

theorem timersInv_loopReceive {env : Env} {c : Client τ} (h : TimersInv c.only) :
    TimersInv (loopReceive env c).only := by
  rw [loopReceive_eq h.setup]
  cases receivedMessage env with
  | none =>
      cases receivedEventProcess (τ := τ) c.only.state <;> exact h
  | some msg =>
      cases hstate : c.only.state with
      | selecting =>
          exact timersInv_receivedWhenSelecting h.toStarted hstate
      | requesting =>
          exact timersInv_receivedWhenRequesting h
      | renewing =>
          exact timersInv_receivedWhenRequesting h
      | rebinding =>
          exact timersInv_receivedWhenRequesting h
      | _ =>
          exact h

/-! ## One call of the loop -/

/-- In SELECTING an expired T1 is stopped, and nothing else happens before the message. -/
theorem dhcpLoop_selecting {env : Env} {c : Client τ} (h : Started c.only)
    (hstate : c.only.state = .selecting)
    (hexpired : TimerLib.expired c.only.t1 env.now = true) :
    dhcpLoop env c = loopReceive env c.stopT1 := by
  have hunarmed := h.t2 (Or.inr (Or.inl hstate))
  have ht1 : loopT1 env c = c.stopT1 := by
    rw [loopT1_of_expired hexpired]
    simp [dhcpClientTimeout, Client.stopT1, hstate]
  have ht2 : loopT2 env c.stopT1 = c.stopT1 :=
    loopT2_of_not_expired (not_expired_of_not_armed env.now hunarmed)
  rw [dhcpLoop, ht1, ht2]

/-- At the end of the lease both timers are stopped. -/
theorem dhcpLoop_rebinding {env : Env} {c : Client τ} (h : Started c.only)
    (hstate : c.only.state = .rebinding)
    (ht1 : TimerLib.expired c.only.t1 env.now = true)
    (ht2 : TimerLib.expired c.only.t2 env.now = true) : ¬ HasTimer (dhcpLoop env c) := by
  have honly : (loopT1 env c).only =
      { c.only with
        t1 := TimerLib.stop (TimerLib.stop c.only.t1)
        t2 := TimerLib.stop c.only.t2
        state := .init } := by
    have hsetup : c.stopT1.only.udpSetup = true := h.setup
    rw [loopT1_of_expired ht1, timeout_only hsetup]
    simp only [Client.stopT1, hstate, ht2, Bool.true_eq_false, if_false]
  -- T2 was stopped in the same call, and nothing is received in INIT
  have hloopT2 : loopT2 env (loopT1 env c) = loopT1 env c := by
    refine loopT2_of_not_expired ?_
    rw [honly]
    exact not_expired_stop _ _
  have hreceive : loopReceive env (loopT1 env c) = loopT1 env c := by
    refine loopReceive_of_none ((udpSetup_loopT1 env c).trans h.setup) (Or.inl ?_)
    rw [honly]
    rfl
  rw [dhcpLoop, hloopT2, hreceive, HasTimer, honly]
  rintro (harmed | harmed)
  · exact LawfulTimerLib.not_armed_stop _ harmed
  · exact LawfulTimerLib.not_armed_stop _ harmed

theorem timersInv_dhcpLoop {env : Env} {c : Client τ} (h : TimersInv c.only)
    (hok : TimersOk env c) : TimersInv (dhcpLoop env c).only := by
  by_cases hselecting : c.only.state = .selecting ∧ TimerLib.expired c.only.t1 env.now = true
  · rcases hselecting with ⟨hstate, hexpired⟩
    rw [dhcpLoop_selecting h.toStarted hstate hexpired]
    have hsetup : c.stopT1.only.udpSetup = true := h.setup
    have hstarted : Started c.stopT1.only := ⟨h.setup, h.started, h.t2⟩
    -- the message is what arms T1 again
    rcases Option.ne_none_iff_exists'.1 (hok.selecting hstate hexpired) with ⟨msg, hmsg⟩
    have hstate' : c.stopT1.only.state = .selecting := hstate
    rw [loopReceive_eq hsetup, hmsg, hstate']
    exact timersInv_receivedWhenSelecting hstarted hstate
  · have hrunning : c.only.state = .selecting → TimerLib.expired c.only.t1 env.now = false := by
      intro hstate
      simpa [hstate] using hselecting
    exact timersInv_loopReceive
      (timersInv_loopT2 (timersInv_loopT1 h hrunning hok.rebinding))

/-- A call of the loop leaves an armed timer exactly if it meets neither of the two cases. -/
theorem hasTimer_dhcpLoop_iff {env : Env} {c : Client τ} (h : TimersInv c.only) :
    HasTimer (dhcpLoop env c) ↔ TimersOk env c := by
  constructor
  · intro htimer
    constructor
    · intro hstate hexpired hnone
      have hsetup : c.stopT1.only.udpSetup = true := h.setup
      rw [dhcpLoop_selecting h.toStarted hstate hexpired,
        loopReceive_of_none hsetup (Or.inr hnone)] at htimer
      rcases htimer with harmed | harmed
      · exact LawfulTimerLib.not_armed_stop _ harmed
      · exact h.t2 (Or.inr (Or.inl hstate)) harmed
    · intro hstate ht1
      by_contra ht2
      exact dhcpLoop_rebinding h.toStarted hstate ht1 (by simpa using ht2) htimer
  · intro hok
    exact Or.inl (timersInv_dhcpLoop h hok).t1

/-! ## Runs -/

theorem timersInv_start {env : Env} {c : Client τ} (h : Started c.only)
    (hinit : c.only.state = .init) : TimersInv (dhcpClientStart env c).only := by
  have ht2 := h.t2 (Or.inl hinit)
  rw [dhcpClientStart, if_pos h.setup, hinit]
  simp only [sendDiscover_only]
  exact ⟨⟨h.setup, ⟨nofun, nofun⟩, fun _ => ht2⟩, LawfulTimerLib.armed_start _ _ _⟩

theorem timersInv_step {r : Run τ} {e : Event} (h : TimersInv r.client.only)
    (hok : r.TimersOk e) : TimersInv (r.step e).client.only := by
  cases e with
  | start env =>
      by_cases hinit : r.client.only.state = .init
      · exact timersInv_start h.toStarted hinit
      · have hsame : dhcpClientStart (env.at r.now) r.client = r.client := by
          unfold dhcpClientStart
          rw [if_pos h.setup]
          cases hstate : r.client.only.state with
          | init =>
              exact absurd hstate hinit
          | _ =>
              rfl
        rw [Run.step, hsame]
        exact h
  | loop env =>
      exact timersInv_dhcpLoop h hok
  | advance seconds =>
      exact h

/-- The client after `dhcp_client_setup` and `dhcp_client_start`. -/
def Run.started (setup start : Env) (eth : Mac) (c : Client τ) : Run τ :=
  (Run.setup setup eth c).step (.start start)

theorem timersInv_started (hinit : ¬ LawfulTimerLib.armed (TimerLib.init : τ))
    (setup start : Env) (eth : Mac) (c : Client τ) :
    TimersInv (Run.started setup start eth c).client.only :=
  timersInv_start ⟨rfl, ⟨nofun, nofun⟩, fun _ => hinit⟩ rfl

/-- Where a timer that was only initialised is not armed: from the start on, every call of the loop
leaves an armed timer exactly in the runs in which no call finds T1 expired in SELECTING without a
message that can be unpacked, and none finds T1 and T2 expired in REBINDING. -/
theorem hasTimer_run_iff (hinit : ¬ LawfulTimerLib.armed (TimerLib.init : τ))
    (setup start : Env) (eth : Mac) (c : Client τ) (es : List Event) :
    (∀ pre env, pre ++ [.loop env] <+: es →
      HasTimer (run Run.step (Run.started setup start eth c) (pre ++ [.loop env])).client) ↔
      Along Run.step Run.TimersOk (Run.started setup start eth c) es := by
  have hkeep : ∀ (r : Run τ) (e : Event), TimersInv r.client.only → True → r.TimersOk e →
      TimersInv (r.step e).client.only := fun _ _ h _ hok => timersInv_step h hok
  have hiff : ∀ (r : Run τ) (e : Event), TimersInv r.client.only → True →
      ((∀ env, e = .loop env → HasTimer (r.step e).client) ↔ r.TimersOk e) := by
    intro r e h _
    cases e with
    | loop env =>
        rw [Run.TimersOk, ← hasTimer_dhcpLoop_iff h]
        simp [Run.step]
    | start env =>
        exact ⟨fun _ => trivial, fun _ _ h => by cases h⟩
    | advance seconds =>
        exact ⟨fun _ => trivial, fun _ _ h => by cases h⟩
  have htrue : Along Run.step (fun (_ : Run τ) (_ : Event) => True)
      (Run.started setup start eth c) es := along_of_forall Run.step fun _ _ => trivial
  rw [← along_iff_of_invariant Run.step hiff hkeep (timersInv_started hinit setup start eth c)
    htrue, along_iff_prefixes]
  constructor
  · rintro h pre e hpre env rfl
    have htimer := h pre env hpre
    rwa [run_append] at htimer
  · intro h pre env hpre
    rw [run_append]
    exact h pre _ hpre env rfl

end Timers

/-! ## Runs with and without a timer -/

theorem timersOk_iff {τ : Type} [TimerLib τ] {env : Env} {c : Client τ} :
    TimersOk env c ↔
      (c.only.state = .selecting → TimerLib.expired c.only.t1 env.now = true →
        receivedMessage env ≠ none) ∧
      (c.only.state = .rebinding → TimerLib.expired c.only.t1 env.now = true →
        TimerLib.expired c.only.t2 env.now = false) :=
  ⟨fun h => ⟨h.selecting, h.rebinding⟩, fun h => ⟨h.1, h.2⟩⟩

instance {τ : Type} [TimerLib τ] (r : Run τ) (e : Event) : Decidable (r.TimersOk e) :=
  match e with
  | .start _ => isTrue trivial
  | .loop _ => decidable_of_iff' _ timersOk_iff
  | .advance _ => isTrue trivial

instance (c : Client Tcp.Deadline) : Decidable (HasTimer c) :=
  inferInstanceAs (Decidable (c.only.t1.due.isSome = true ∨ c.only.t2.due.isSome = true))

def sampleStarted : Run Tcp.Deadline :=
  Run.started (sampleEnv []) (sampleEnv []) ⟨2, 0, 0, 0, 0, 1⟩ sampleClient

/-- Three seconds after a DISCOVER that is not answered there is no timer, and none when a lease
of fifteen seconds has ended. -/
theorem no_timer_sample :
    ¬ (∀ pre env, pre ++ [.loop env] <+: [.advance 3, .loop (sampleEnv [])] →
      HasTimer (run Run.step sampleStarted (pre ++ [.loop env])).client) ∧
      ¬ HasTimer (run Run.step sampleStarted (sampleLease 15 14)).client := by
  refine ⟨?_, by decide +kernel⟩
  intro h
  have htimer := h [.advance 3] (sampleEnv []) (List.prefix_refl _)
  revert htimer
  decide +kernel

/-- A second before that there is one. -/
theorem hasTimer_run_sample :
    HasTimer (run Run.step sampleStarted (sampleLease 15 13)).client := by
  have hrun : ∀ pre env, pre ++ [.loop env] <+: sampleLease 15 13 →
      HasTimer (run Run.step sampleStarted (pre ++ [.loop env])).client :=
    (hasTimer_run_iff (by simp [LawfulTimerLib.armed, TimerLib.init]) (sampleEnv []) (sampleEnv [])
      ⟨2, 0, 0, 0, 0, 1⟩ sampleClient (sampleLease 15 13)).2 (by decide +kernel)
  have hlast : sampleLease 15 13 =
      (sampleLease 15 12 ++ [.advance 1]) ++ [.loop (sampleEnv [])] := by
    simp [sampleLease, List.replicate]
  have hprefix : (sampleLease 15 12 ++ [.advance 1]) ++ [.loop (sampleEnv [])] <+:
      sampleLease 15 13 := by
    rw [hlast]
  have hend := hrun _ _ hprefix
  rw [hlast]
  exact hend

end Dhcp
end DtsNet
