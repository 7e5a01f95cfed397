import DtsNet.Dhcp.Run

/-!
# Lease — whether a lease is used past its end

T2 runs for seven eighths of a lease, and then for the last eighth.  Its expiry moves the client on
only where `dhcp_client_timeout` is called for T1: `dhcp_loop` stops a timer before it calls the
timeout routine, which for T2 then finds a timer that has not expired.
-/

namespace DtsNet
namespace Dhcp

open Dblk Ip Machine
open Ether (Mac)
open Tcp (TimerLib TimedTimerLib)

section Lease

variable {τ : Type} [TimerLib τ]

/-- The last lease that was accepted, and when. -/
def lastLease (log : List Action) : Option (ℕ × UInt32) :=
  (leases log).getLast?

/-- The client when `dhcp_loop` has handled its timers and receives. -/
def afterTimers (env : Env) (c : Client τ) : Client τ :=
  loopT2 env (loopT1 env c)

/-- In this state an ACK is accepted. -/
def AcceptsAck (state : ClientState) : Prop :=
  state = .requesting ∨ state = .renewing ∨ state = .rebinding

/-- The clock moves by single seconds, and `dhcp_loop` is called in each of them. -/
def Run.EverySecond (r : Run τ) : Event → Prop
  | .advance seconds => seconds = 1 ∧ r.looped = true
  | _ => True

/-- T2 is seen to expire by the timeout routine that is called for T1, in a state which then is
left; and the accepted ACKs carry a lease time, which is not zero.  One without a lease time leaves
the timers as they are, which does no harm before the first lease and in RENEWING. -/
structure LeaseStepOk (env : Env) (c : Client τ) : Prop where
  timers : dhcpClientCompleted c = true → TimerLib.expired c.only.t2 env.now = true →
    TimerLib.expired c.only.t1 env.now = true ∧
      (c.only.state = .rebinding ∨ c.only.state = .renewing ∧ 8 ≤ c.only.lease.toNat)
  acks : ∀ msg, receivedMessage env = some msg → IsAck msg →
    AcceptsAck (afterTimers env c).only.state →
      dhcpOptionIpLeaseTime msg ≠ some 0 ∧
      (dhcpOptionIpLeaseTime msg = none →
        leases c.log = [] ∨ (afterTimers env c).only.state = .renewing)

def Run.LeaseStepOk (r : Run τ) : Event → Prop
  | .loop env => Dhcp.LeaseStepOk (env.at r.now) r.client
  | _ => True

/-! ## Timers and states -/

/-- The timer expires at that time. -/
def DueAt (tmr : τ) (due : ℕ) : Prop :=
  ∀ now, TimerLib.expired tmr now = decide (due ≤ now)

theorem dueAt_start [TimedTimerLib τ] (tmr : τ) (now seconds : ℕ) :
    DueAt (TimerLib.start tmr now seconds) (now + seconds) :=
  TimedTimerLib.expired_start tmr now seconds

omit [TimerLib τ] in
theorem completed_iff {c : Client τ} :
    dhcpClientCompleted c = true ↔
      c.only.state = .bound ∨ c.only.state = .renewing ∨ c.only.state = .rebinding := by
  simp [dhcpClientCompleted, or_assoc]

/-- A timeout does not complete the exchange. -/
theorem completed_of_timeout {env : Env} {c : Client τ} (hsetup : c.only.udpSetup = true)
    (h : dhcpClientCompleted (dhcpClientTimeout env c) = true) :
    dhcpClientCompleted c = true := by
  rw [completed_iff, timeout_only hsetup] at h
  rw [completed_iff]
  cases hstate : c.only.state with
  | bound =>
      exact Or.inl rfl
  | renewing =>
      exact Or.inr (Or.inl rfl)
  | rebinding =>
      exact Or.inr (Or.inr rfl)
  | _ =>
      simp [hstate, retransmitted] at h

theorem completed_of_loopT1 {env : Env} {c : Client τ} (hsetup : c.only.udpSetup = true)
    (h : dhcpClientCompleted (loopT1 env c) = true) : dhcpClientCompleted c = true := by
  unfold loopT1 at h
  split at h
  · exact completed_of_timeout (c := c.stopT1) hsetup h
  · exact h

theorem completed_of_loopT2 {env : Env} {c : Client τ} (hsetup : c.only.udpSetup = true)
    (h : dhcpClientCompleted (loopT2 env c) = true) : dhcpClientCompleted c = true := by
  unfold loopT2 at h
  split at h
  · exact completed_of_timeout (c := c.stopT2) hsetup h
  · exact h

theorem completed_of_afterTimers {env : Env} {c : Client τ} (hsetup : c.only.udpSetup = true)
    (h : dhcpClientCompleted (afterTimers env c) = true) : dhcpClientCompleted c = true := by
  have hsetup' : (loopT1 env c).only.udpSetup = true := by simpa using hsetup
  exact completed_of_loopT1 hsetup (completed_of_loopT2 hsetup' h)

/-! ## The lease -/

/-- T2 runs towards the end of the lease that was accepted at `t`, for the first time while the
client is not rebinding. -/
structure Leased (c : Client τ) (t : ℕ) (lease : UInt32) (due : ℕ) : Prop where
  lease_eq : c.only.lease = lease
  dueAt : DueAt c.only.t2 due
  due_le : due ≤ t + lease.toNat
  first : c.only.state ≠ .rebinding → due = t + 7 * lease.toNat / 8

/-- T2 is not overdue, unless the lease is so short that it is due at once. -/
def NotOverdue (c : Client τ) (now t : ℕ) (lease : UInt32) (due : ℕ) : Prop :=
  now ≤ due ∨ c.only.state ≠ .rebinding ∧ lease.toNat < 8 ∧ now ≤ t + lease.toNat

omit [TimerLib τ] in
theorem NotOverdue.mono {c : Client τ} {now now' t : ℕ} {lease : UInt32} {due : ℕ}
    (h : NotOverdue c now' t lease due) (hle : now ≤ now') : NotOverdue c now t lease due := by
  rcases h with h | ⟨hstate, hshort, hend⟩
  · exact Or.inl (Nat.le_trans hle h)
  · exact Or.inr ⟨hstate, hshort, Nat.le_trans hle hend⟩

/-- What is kept along a run: the lease has not ended, and not in the next second either once
`dhcp_loop` was called in this one. -/
structure Run.LeaseInv (r : Run τ) : Prop where
  setup : r.client.only.udpSetup = true
  leased : dhcpClientCompleted r.client = true → ∀ t lease,
    lastLease r.client.log = some (t, lease) → ∃ due, Leased r.client t lease due ∧
      NotOverdue r.client r.now t lease due ∧
      (r.looped = true → NotOverdue r.client (r.now + 1) t lease due)

/-- While T2 runs, a timeout changes neither the lease nor T2, and REBINDING is not left. -/
theorem timeout_running {env : Env} {c : Client τ} (hsetup : c.only.udpSetup = true)
    (hcompleted : dhcpClientCompleted c = true)
    (hrunning : TimerLib.expired c.only.t2 env.now = false) :
    (dhcpClientTimeout env c).only.lease = c.only.lease ∧
      (dhcpClientTimeout env c).only.t2 = c.only.t2 ∧
      (c.only.state = .rebinding → (dhcpClientTimeout env c).only.state = .rebinding) := by
  have honly := @timeout_only τ _ env c hsetup
  rcases completed_iff.1 hcompleted with hstate | hstate | hstate
  · simp only [hstate] at honly
    rw [honly, hstate]
    exact ⟨rfl, rfl, by simp⟩
  · simp only [hstate, hrunning, retransmitted, if_true] at honly
    rw [honly, hstate]
    exact ⟨rfl, rfl, by simp⟩
  · simp only [hstate, hrunning, retransmitted, if_true] at honly
    rw [honly]
    exact ⟨rfl, rfl, fun _ => rfl⟩

theorem leased_loopT1 {env : Env} {c : Client τ} {t : ℕ} {lease : UInt32} {due : ℕ}
    (hsetup : c.only.udpSetup = true) (hcompleted : dhcpClientCompleted c = true)
    (h : Leased c t lease due) (hlt : env.now < due) : Leased (loopT1 env c) t lease due := by
  have hrunning : TimerLib.expired c.only.t2 env.now = false := by
    rw [h.dueAt]
    simpa using hlt
  unfold loopT1
  split
  · rcases timeout_running (c := c.stopT1) hsetup hcompleted
      hrunning with ⟨hlease, ht2, hstate⟩
    constructor
    · exact hlease.trans h.lease_eq
    · rw [ht2]
      exact h.dueAt
    · exact h.due_le
    · intro hne
      exact h.first fun hrebinding => hne (hstate hrebinding)
  · exact h

/-- If T2 expires together with T1 in RENEWING, the last eighth of the lease begins. -/
theorem leased_rebinding [TimedTimerLib τ] {env : Env} {c : Client τ} {t : ℕ} {lease : UInt32}
    {due : ℕ} (hsetup : c.only.udpSetup = true) (h : Leased c t lease due)
    (hstate : c.only.state = .renewing)
    (ht1 : TimerLib.expired c.only.t1 env.now = true) (hdue : env.now = due) :
    Leased (loopT1 env c) t lease (env.now + lease.toNat / 8) := by
  have hexpired : TimerLib.expired c.only.t2 env.now = true := by
    rw [h.dueAt]
    simp [hdue]
  have honly : (loopT1 env c).only =
      { c.only with
        t1 := TimerLib.start (TimerLib.stop c.only.t1) env.now 1
        t2 := TimerLib.start c.only.t2 env.now (c.only.lease.toNat / 8)
        state := .rebinding } := by
    rw [loopT1_of_expired ht1, timeout_only (c := c.stopT1) hsetup]
    simp only [Client.stopT1, hstate, hexpired, Bool.true_eq_false, if_false]
  have hfirst := h.first (by rw [hstate]; decide)
  constructor
  · rw [honly]
    exact h.lease_eq
  · rw [honly, ← h.lease_eq]
    exact dueAt_start _ _ _
  · -- seven eighths and one eighth, both rounded down
    omega
  · intro hne
    rw [honly] at hne
    exact absurd rfl hne

/-- Handling the timers leaves a lease that has not ended, or the initial state. -/
theorem leased_afterTimers [TimedTimerLib τ] {env : Env} {c : Client τ} {t : ℕ} {lease : UInt32}
    {due : ℕ} (hsetup : c.only.udpSetup = true) (h : Leased c t lease due)
    (hnow : NotOverdue c env.now t lease due) (hok : LeaseStepOk env c)
    (hcompleted : dhcpClientCompleted (afterTimers env c) = true) :
    ∃ due, Leased (afterTimers env c) t lease due ∧ env.now < due := by
  have hbefore : dhcpClientCompleted c = true := completed_of_afterTimers hsetup hcompleted
  by_cases hexpired : TimerLib.expired c.only.t2 env.now = true
  · have hdue : due ≤ env.now := by simpa [h.dueAt env.now] using hexpired
    rcases hok.timers hbefore hexpired with ⟨ht1, hstate | ⟨hstate, hlease⟩⟩
    · -- the lease ends
      exfalso
      have hinit : (loopT1 env c).only.state = .init := by
        rw [loopT1_of_expired ht1, timeout_only (c := c.stopT1) hsetup]
        simp only [Client.stopT1, hstate, hexpired, Bool.true_eq_false, if_false]
      have hsetup' : (loopT1 env c).only.udpSetup = true := by simpa using hsetup
      have hdone := completed_of_loopT2 hsetup' hcompleted
      rw [completed_iff, hinit] at hdone
      simp at hdone
    -- the client goes on to REBINDING, with an eighth of the lease to come
    · rw [h.lease_eq] at hlease
      have heq : env.now = due := by
        rcases hnow with hle | ⟨-, hshort, -⟩
        · exact Nat.le_antisymm hle hdue
        · omega
      have hleased := leased_rebinding hsetup h hstate ht1 heq
      have hlt : env.now < env.now + lease.toNat / 8 := by omega
      have hrunning : TimerLib.expired (loopT1 env c).only.t2 env.now = false := by
        rw [hleased.dueAt]
        simpa using hlt
      rw [afterTimers, loopT2_of_not_expired hrunning]
      exact ⟨_, hleased, hlt⟩
  · have hlt : env.now < due := by simpa [h.dueAt env.now] using hexpired
    have hleased := leased_loopT1 hsetup hbefore h hlt
    have hrunning : TimerLib.expired (loopT1 env c).only.t2 env.now = false := by
      rw [hleased.dueAt]
      simpa using hlt
    rw [afterTimers, loopT2_of_not_expired hrunning]
    exact ⟨due, hleased, hlt⟩

/-! ## One call of the loop -/

@[simp] theorem leases_afterTimers (env : Env) (c : Client τ) :
    leases (afterTimers env c).log = leases c.log := by
  simp [afterTimers]

@[simp] theorem udpSetup_afterTimers (env : Env) (c : Client τ) :
    (afterTimers env c).only.udpSetup = c.only.udpSetup := by
  simp [afterTimers]

/-- T2 and the lease are what they were. -/
theorem Leased.of_only {c d : Client τ} {t : ℕ} {lease : UInt32} {due : ℕ}
    (h : Leased c t lease due) (hlease : d.only.lease = c.only.lease)
    (ht2 : d.only.t2 = c.only.t2)
    (hstate : d.only.state ≠ .rebinding → c.only.state ≠ .rebinding) : Leased d t lease due where
  lease_eq := hlease.trans h.lease_eq
  dueAt := by
    rw [ht2]
    exact h.dueAt
  due_le := h.due_le
  first hne := h.first (hstate hne)

/-- What a lease time that was just accepted starts. -/
theorem leased_accepted [TimedTimerLib τ] {env : Env} {msg : DhcpMessage} {c : Client τ}
    {lease : UInt32} (h : IsAck msg) (hlease : dhcpOptionIpLeaseTime msg = some lease) :
    Leased (receivedWhenRequesting env msg c) env.now lease (env.now + 7 * lease.toNat / 8) := by
  rw [receivedWhenRequesting_of_lease h hlease]
  constructor
  · rfl
  · exact dueAt_start _ _ _
  · have hle : 7 * lease.toNat / 8 ≤ lease.toNat := by omega
    exact Nat.add_le_add_left hle _
  · intro _
    rfl

theorem notOverdue_accepted {env : Env} {msg : DhcpMessage} {c : Client τ} {lease : UInt32}
    (h : IsAck msg) (hlease : dhcpOptionIpLeaseTime msg = some lease) (hpos : lease ≠ 0) :
    NotOverdue (receivedWhenRequesting env msg c) (env.now + 1) env.now lease
      (env.now + 7 * lease.toNat / 8) := by
  have hne : lease.toNat ≠ 0 := fun h0 => hpos (UInt32.toNat_inj.1 h0)
  have hstate : (receivedWhenRequesting env msg c).only.state = .bound := by
    rw [receivedWhenRequesting_of_lease h hlease]
  -- seven eighths of a short lease may be over at once, or in the same second as the lease
  by_cases hshort : lease.toNat < 8
  · refine Or.inr ⟨?_, hshort, by omega⟩
    rw [hstate]
    decide
  · exact Or.inl (by omega)

/-- The handler of a state in which an ACK is accepted. -/
theorem loopReceive_acceptsAck {env : Env} {c : Client τ} {msg : DhcpMessage}
    (hsetup : c.only.udpSetup = true) (hstate : AcceptsAck c.only.state)
    (hmsg : receivedMessage env = some msg) :
    loopReceive env c = receivedWhenRequesting env msg c := by
  rw [loopReceive_eq hsetup, hmsg]
  rcases hstate with h | h | h <;> rw [h] <;> rfl

/-- Elsewhere nothing that is received completes the exchange or is recorded as a lease. -/
theorem loopReceive_not_acceptsAck {env : Env} {c : Client τ} (hsetup : c.only.udpSetup = true)
    (hstate : ¬ AcceptsAck c.only.state) :
    loopReceive env c = c ∨ dhcpClientCompleted (loopReceive env c) = false := by
  rw [loopReceive_eq hsetup]
  cases hs : c.only.state with
  | selecting =>
      cases receivedMessage env with
      | none =>
          exact Or.inl rfl
      | some msg =>
          refine Or.inr ?_
          change dhcpClientCompleted (receivedWhenSelecting env msg c) = false
          by_cases hoffer : IsOffer msg
          · rw [receivedWhenSelecting_of_offer hoffer]
            rfl
          · rw [receivedWhenSelecting_of_not_offer hoffer]
            simp [dhcpClientCompleted, rejected, hs]
  | requesting =>
      exact absurd (Or.inl hs) hstate
  | renewing =>
      exact absurd (Or.inr (Or.inl hs)) hstate
  | rebinding =>
      exact absurd (Or.inr (Or.inr hs)) hstate
  | _ =>
      exact Or.inl rfl

/-- The leases that the client uses and that have not ended. -/
def LeasedBefore (now : ℕ) (c : Client τ) : Prop :=
  dhcpClientCompleted c = true → ∀ t lease, lastLease c.log = some (t, lease) →
    ∃ due, Leased c t lease due ∧ now < due

/-- The same, with a second of the lease to come. -/
def LeasedAfter (now : ℕ) (c : Client τ) : Prop :=
  dhcpClientCompleted c = true → ∀ t lease, lastLease c.log = some (t, lease) →
    ∃ due, Leased c t lease due ∧ NotOverdue c (now + 1) t lease due

theorem LeasedBefore.after {now : ℕ} {c : Client τ} (h : LeasedBefore now c) :
    LeasedAfter now c := by
  intro hcompleted t lease hlast
  rcases h hcompleted t lease hlast with ⟨due, hleased, hlt⟩
  exact ⟨due, hleased, Or.inl hlt⟩

/-- An accepted ACK either starts a lease, or leaves the one that is there as it is. -/
theorem leasedAfter_ack [TimedTimerLib τ] {env : Env} {c : Client τ} {msg : DhcpMessage}
    (h : LeasedBefore env.now c) (hack : IsAck msg) (hzero : dhcpOptionIpLeaseTime msg ≠ some 0)
    (hnone : dhcpOptionIpLeaseTime msg = none → leases c.log = [] ∨ c.only.state = .renewing) :
    LeasedAfter env.now (receivedWhenRequesting env msg c) := by
  intro _ t lease hlast
  cases hlease : dhcpOptionIpLeaseTime msg with
  | none =>
      rw [receivedWhenRequesting_of_ack hack hlease] at hlast ⊢
      have hnew : leases [Action.acked env.now none] = [] := rfl
      rw [lastLease, leases_append, hnew, List.append_nil] at hlast
      rcases hnone hlease with hempty | hrenewing
      -- before the first lease there is nothing to show, and in RENEWING T2 runs on
      · rw [hempty] at hlast
        cases hlast
      · have hdone : dhcpClientCompleted c = true := completed_iff.2 (Or.inr (Or.inl hrenewing))
        rcases h hdone t lease hlast with ⟨due, hleased, hlt⟩
        refine ⟨due, hleased.of_only rfl rfl ?_, Or.inl hlt⟩
        intro _
        rw [hrenewing]
        decide
  | some accepted =>
      have hpos : accepted ≠ 0 := by
        rintro rfl
        exact hzero hlease
      have hlog : lastLease (receivedWhenRequesting env msg c).log = some (env.now, accepted) := by
        rw [receivedWhenRequesting_of_lease hack hlease]
        simp [lastLease, leases]
      obtain ⟨rfl, rfl⟩ : env.now = t ∧ accepted = lease := by
        simpa using hlog.symm.trans hlast
      exact ⟨_, leased_accepted hack hlease, notOverdue_accepted hack hlease hpos⟩

theorem leasedAfter_loopReceive [TimedTimerLib τ] {env : Env} {c : Client τ}
    (hsetup : c.only.udpSetup = true) (h : LeasedBefore env.now c)
    (hacks : ∀ msg, receivedMessage env = some msg → IsAck msg → AcceptsAck c.only.state →
      dhcpOptionIpLeaseTime msg ≠ some 0 ∧
      (dhcpOptionIpLeaseTime msg = none → leases c.log = [] ∨ c.only.state = .renewing)) :
    LeasedAfter env.now (loopReceive env c) := by
  by_cases haccepts : AcceptsAck c.only.state
  · cases hmsg : receivedMessage env with
    | none =>
        rw [loopReceive_of_none hsetup (Or.inr hmsg)]
        exact h.after
    | some msg =>
        rw [loopReceive_acceptsAck hsetup haccepts hmsg]
        by_cases hack : IsAck msg
        · rcases hacks msg hmsg hack haccepts with ⟨hzero, hnone⟩
          exact leasedAfter_ack h hack hzero hnone
        · -- a rejected message touches neither the lease nor T2
          rw [receivedWhenRequesting_of_not_ack hack]
          intro hcompleted t lease hlast
          rcases h hcompleted t lease hlast with ⟨due, hleased, hlt⟩
          exact ⟨due, hleased.of_only rfl rfl id, Or.inl hlt⟩
  · rcases @loopReceive_not_acceptsAck τ _ env c hsetup haccepts with heq | hfalse
    · rw [heq]
      exact h.after
    · intro hcompleted
      rw [hfalse] at hcompleted
      cases hcompleted

/-- After a call of the loop, a lease that the client uses has not ended, and does not end within
the next second. -/
theorem leasedAfter_dhcpLoop [TimedTimerLib τ] {env : Env} {c : Client τ}
    (hsetup : c.only.udpSetup = true)
    (h : dhcpClientCompleted c = true → ∀ t lease, lastLease c.log = some (t, lease) →
      ∃ due, Leased c t lease due ∧ NotOverdue c env.now t lease due)
    (hok : LeaseStepOk env c) : LeasedAfter env.now (dhcpLoop env c) := by
  have hsetup' : (afterTimers env c).only.udpSetup = true := by simpa using hsetup
  have htimers : LeasedBefore env.now (afterTimers env c) := by
    intro hcompleted t lease hlast
    rw [lastLease, leases_afterTimers] at hlast
    rcases h (completed_of_afterTimers hsetup hcompleted) t lease hlast with ⟨due, hleased, hnow⟩
    exact leased_afterTimers hsetup hleased hnow hok hcompleted
  have hafter : LeasedAfter env.now (loopReceive env (afterTimers env c)) := by
    refine leasedAfter_loopReceive hsetup' htimers ?_
    rw [leases_afterTimers]
    exact hok.acks
  exact hafter

/-! ## Runs -/

theorem leaseInv_setup (env : Env) (eth : Mac) (c : Client τ) :
    (Run.setup env eth c).LeaseInv where
  setup := rfl
  leased hcompleted := by cases hcompleted

/-- Nothing but `dhcp_client_start` happens to a client that is not started. -/
theorem start_completed {env : Env} {c : Client τ}
    (h : dhcpClientCompleted (dhcpClientStart env c) = true) : dhcpClientStart env c = c := by
  unfold dhcpClientStart at h ⊢
  split
  · rename_i hsetup
    rw [if_pos hsetup] at h
    cases hstate : c.only.state with
    | init =>
        simp [hstate, dhcpClientCompleted] at h
    | _ =>
        rfl
  · rfl

theorem leaseInv_step [TimedTimerLib τ] {r : Run τ} {e : Event} (h : r.LeaseInv)
    (hpunctual : r.EverySecond e) (hok : r.LeaseStepOk e) : (r.step e).LeaseInv := by
  cases e with
  | start env =>
      constructor
      · exact udpSetup_start.trans h.setup
      · intro hcompleted
        have heq : dhcpClientStart (env.at r.now) r.client = r.client := start_completed hcompleted
        have hstep : r.step (.start env) = r := by rw [Run.step, heq]
        rw [hstep] at hcompleted ⊢
        exact h.leased hcompleted
  | loop env =>
      have hbefore : dhcpClientCompleted r.client = true → ∀ t lease,
          lastLease r.client.log = some (t, lease) →
            ∃ due, Leased r.client t lease due ∧ NotOverdue r.client r.now t lease due := by
        intro hcompleted t lease hlast
        rcases h.leased hcompleted t lease hlast with ⟨due, hleased, hnow, -⟩
        exact ⟨due, hleased, hnow⟩
      constructor
      · exact (udpSetup_dhcpLoop _ _).trans h.setup
      · intro hcompleted t lease hlast
        have hafter : LeasedAfter r.now (dhcpLoop (env.at r.now) r.client) :=
          leasedAfter_dhcpLoop h.setup hbefore hok
        rcases hafter hcompleted t lease hlast with ⟨due, hleased, hnext⟩
        exact ⟨due, hleased, hnext.mono (Nat.le_succ r.now), fun _ => hnext⟩
  | advance seconds =>
      rcases hpunctual with ⟨rfl, hlooped⟩
      constructor
      · exact h.setup
      · intro hcompleted t lease hlast
        rcases h.leased hcompleted t lease hlast with ⟨due, hleased, -, hnext⟩
        exact ⟨due, hleased, hnext hlooped, nofun⟩

/-- Where `dhcp_loop` is called in every second, a lease is not used past its end in a run in which
T2 always expires together with T1 in RENEWING or REBINDING, with a lease of at least eight
seconds in RENEWING, and every ACK that could prolong a lease carries a lease time above zero. -/
theorem lease_not_used_past_end [TimedTimerLib τ] (env : Env) (eth : Mac) (c : Client τ)
    {es : List Event} (hpunctual : Along Run.step Run.EverySecond (Run.setup env eth c) es)
    (hok : Along Run.step Run.LeaseStepOk (Run.setup env eth c) es) :
    ∀ pre, pre <+: es → ∀ t lease,
      lastLease (run Run.step (Run.setup env eth c) pre).client.log = some (t, lease) →
        t + lease.toNat < (run Run.step (Run.setup env eth c) pre).now →
          dhcpClientCompleted (run Run.step (Run.setup env eth c) pre).client = false := by
  rintro pre ⟨post, rfl⟩ t lease hlast hlate
  have hpre := ((along_append _ _ _ _ _).1 (hpunctual.and _ hok)).1
  have hkeep : ∀ (r : Run τ) (e : Event), r.LeaseInv → r.EverySecond e ∧ r.LeaseStepOk e →
      (r.step e).LeaseInv := fun _ _ h hstep => leaseInv_step h hstep.1 hstep.2
  have hinv := run_invariant Run.step hkeep (leaseInv_setup env eth c) hpre
  by_contra hcompleted
  rcases hinv.leased (by simpa using hcompleted) t lease hlast with ⟨due, hleased, hnow, -⟩
  -- T2 is due before the end of the lease, and is not overdue
  have hle := hleased.due_le
  rcases hnow with hdue | ⟨-, -, hend⟩
  · omega
  · omega

/-! ## Checking a run -/

instance (state : ClientState) : Decidable (AcceptsAck state) :=
  inferInstanceAs (Decidable (_ ∨ _ ∨ _))

instance (r : Run τ) (e : Event) : Decidable (r.EverySecond e) :=
  match e with
  | .start _ => isTrue trivial
  | .loop _ => isTrue trivial
  | .advance _ => inferInstanceAs (Decidable (_ ∧ _))

theorem leaseStepOk_iff {env : Env} {c : Client τ} :
    LeaseStepOk env c ↔
      (dhcpClientCompleted c = true → TimerLib.expired c.only.t2 env.now = true →
        TimerLib.expired c.only.t1 env.now = true ∧
          (c.only.state = .rebinding ∨ c.only.state = .renewing ∧ 8 ≤ c.only.lease.toNat)) ∧
      ∀ msg ∈ receivedMessage env, IsAck msg → AcceptsAck (afterTimers env c).only.state →
        dhcpOptionIpLeaseTime msg ≠ some 0 ∧
        (dhcpOptionIpLeaseTime msg = none →
          leases c.log = [] ∨ (afterTimers env c).only.state = .renewing) :=
  ⟨fun h => ⟨h.timers, h.acks⟩, fun h => ⟨h.1, h.2⟩⟩

instance (env : Env) (c : Client τ) : Decidable (LeaseStepOk env c) :=
  decidable_of_iff' _ leaseStepOk_iff

instance (r : Run τ) (e : Event) : Decidable (r.LeaseStepOk e) :=
  match e with
  | .start _ => isTrue trivial
  | .loop env => inferInstanceAs (Decidable (Dhcp.LeaseStepOk (env.at r.now) r.client))
  | .advance _ => isTrue trivial

end Lease

/-! ## A lease that is used past its end, and one that is not -/

/-- A client before its setup. -/
def sampleClient : Client Tcp.Deadline :=
  { only :=
      { state := .initReboot
        udpSetup := false
        msg := dhcpMessageInit
        ethaddr := ⟨2, 0, 0, 0, 0, 1⟩
        t1 := ⟨none⟩
        t2 := ⟨none⟩
        startTime := 0
        lease := 0 }
    log := [] }

/-- Everything works, and these bytes are received. -/
def sampleEnv (rawData : List Byte) : Env :=
  { host := .littleEndian
    now := 0
    rand := fun _ => 7
    malloc := fun _ => true
    sendto := fun _ => 244
    recvfrom := some (rawData, rawData.length) }

/-- A reply of the server, with its identifier and a lease time. -/
def sampleReply (type : UInt8) (lease : UInt8) : List Byte :=
  [bootReply, 1, 6, 0, 0, 0, 0, 7] ++ List.replicate 228 0 ++ dhcpOptMagic ++
    [dhcpOptDhcpMsgTypeTag, 1, type] ++ [dhcpOptServerIdentifierTag, 4, 10, 0, 0, 1] ++
    [dhcpOptIpLeaseTimeTag, 4, 0, 0, 0, lease] ++ [dhcpOptEnd]

/-- A client that obtains a lease at once, and then is called for some seconds. -/
def sampleLease (lease : UInt8) (seconds : ℕ) : List Event :=
  [.start (sampleEnv []), .loop (sampleEnv (sampleReply dhcpMsgTypeOffer lease)),
    .loop (sampleEnv (sampleReply dhcpMsgTypeAck lease))] ++
    (List.replicate seconds [.advance 1, .loop (sampleEnv [])]).flatten

def sampleSetup : Run Tcp.Deadline :=
  Run.setup (sampleEnv []) ⟨2, 0, 0, 0, 0, 1⟩ sampleClient

/-- Nine seconds after a lease of eight seconds, the exchange still counts as completed. -/
theorem lease_used_past_end_sample :
    Along Run.step Run.EverySecond sampleSetup (sampleLease 8 9) ∧
      lastLease (run Run.step sampleSetup (sampleLease 8 9)).client.log = some (0, 8) ∧
      (run Run.step sampleSetup (sampleLease 8 9)).now = 9 ∧
      dhcpClientCompleted (run Run.step sampleSetup (sampleLease 8 9)).client = true := by
  decide +kernel

/-- A lease of fifteen seconds is given up in time. -/
theorem lease_not_used_past_end_sample :
    dhcpClientCompleted (run Run.step sampleSetup (sampleLease 15 16)).client = false :=
  lease_not_used_past_end (sampleEnv []) ⟨2, 0, 0, 0, 0, 1⟩ sampleClient
    (by decide +kernel) (by decide +kernel) (sampleLease 15 16) (List.prefix_refl _) 0 15
    (by decide +kernel) (by decide +kernel)

end Dhcp
end DtsNet
