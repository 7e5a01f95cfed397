import DtsNet.Dhcp.Lease

/-!
# Foreign — messages for other clients

Nothing that is received is compared with the transaction number or the hardware address of the
client, and every message is unpacked into `only.msg` before it is looked at, from where the next
REQUEST is made.  Two runs that differ in such messages stay together as long as these come where
they are not read, or are no OFFERs in SELECTING.
-/

namespace DtsNet
namespace Dhcp

open Dblk Ip Machine
open Ether (Mac)
open Tcp (TimerLib TimedTimerLib)

section Foreign

variable {τ : Type} [TimerLib τ]

/-! ## Influence -/

def lastDiscover (log : List Action) : Option UInt32 :=
  (discovers log).getLast?

/-- The transaction number is not the one of the last DISCOVER, or the hardware address is not the
one of the client. -/
def Foreign (c : Client τ) (msg : DhcpMessage) : Prop :=
  lastDiscover c.log ≠ some msg.xid ∨ Mac.ofMem msg.chaddr ≠ c.only.ethaddr

/-- The message that the client sends next, if it receives nothing; a DISCOVER gets a new
transaction number. -/
def nextMessage (env : Env) (xid : UInt32) (c : Client τ) : Option DhcpMessage :=
  match c.only.state with
  | .init => some (discoverMessage c.only.ethaddr xid (secs env c))
  | .requesting => requestMessage c.only.ethaddr (secs env c) c.only.msg
  | .bound => requestMessage c.only.ethaddr (secs env c) c.only.msg
  | .renewing => requestMessage c.only.ethaddr (secs env c) c.only.msg
  | .rebinding => requestMessage c.only.ethaddr (secs env c) c.only.msg
  | _ => none

/-- From the first client to the second, `set_ip` was not called, and the state, the lease and the
next message are the same. -/
structure NoInfluence (c d : Client τ) : Prop where
  setIps : setIps d.log = setIps c.log
  state : d.only.state = c.only.state
  lease : d.only.lease = c.only.lease
  next : ∀ env xid, nextMessage env xid d = nextMessage env xid c

/-- The message is not read, or it is not the OFFER that the client waits for. -/
def Ignored (state : ClientState) (msg : DhcpMessage) : Prop :=
  ¬ AcceptsAck state ∧ (state = .selecting → ¬ IsOffer msg)

/-- The message that is received, if there is one, is foreign. -/
def ReceivesForeign (env : Env) (c : Client τ) : Prop :=
  ∀ msg, receivedMessage env = some msg → Foreign (afterTimers env c) msg

/-- Every foreign message is ignored. -/
def Run.ForeignIgnored (r : Run τ) : Event → Prop
  | .loop env => ∀ msg, receivedMessage env = some msg →
      Foreign (afterTimers (env.at r.now) r.client) msg →
        Ignored (afterTimers (env.at r.now) r.client).only.state msg
  | _ => True

/-- The same event, or two calls of the loop that differ only in what they receive, which is
foreign in either run. -/
def OnlyForeign (r q : Run τ) (e f : Event) : Prop :=
  e = f ∨ ∃ env env' : Env, e = .loop env ∧ f = .loop env' ∧
    { env with recvfrom := none } = { env' with recvfrom := none } ∧
    ReceivesForeign (env.at r.now) r.client ∧ ReceivesForeign (env'.at q.now) q.client

/-- The state and the addresses that `set_ip` was called with. -/
def Run.observed (r : Run τ) : ClientState × List V4 :=
  (r.client.only.state, setIps r.client.log)

/-! ## One message -/

theorem loopReceive_ignored {env : Env} {c : Client τ} {msg : DhcpMessage}
    (hsetup : c.only.udpSetup = true) (hmsg : receivedMessage env = some msg)
    (h : Ignored c.only.state msg) :
    loopReceive env c = c ∨
      c.only.state = .selecting ∧ loopReceive env c = rejected env msg c := by
  rw [loopReceive_eq hsetup, hmsg]
  cases hstate : c.only.state with
  | selecting =>
      exact Or.inr ⟨rfl, receivedWhenSelecting_of_not_offer (h.2 hstate)⟩
  | requesting =>
      exact absurd (Or.inl hstate) h.1
  | renewing =>
      exact absurd (Or.inr (Or.inl hstate)) h.1
  | rebinding =>
      exact absurd (Or.inr (Or.inr hstate)) h.1
  | _ =>
      exact Or.inl rfl

theorem noInfluence_ignored {env : Env} {c : Client τ} {msg : DhcpMessage}
    (hsetup : c.only.udpSetup = true) (hmsg : receivedMessage env = some msg)
    (h : Ignored c.only.state msg) : NoInfluence c (loopReceive env c) := by
  rcases loopReceive_ignored hsetup hmsg h with heq | ⟨hstate, heq⟩
  · rw [heq]
    exact ⟨rfl, rfl, rfl, fun _ _ => rfl⟩
  · rw [heq]
    refine ⟨rfl, rfl, rfl, fun env' xid => ?_⟩
    -- in SELECTING nothing is sent unless something else is received
    simp [nextMessage, rejected, hstate]

/-- A message that is not ignored changes the state, or it is rejected where it stays in `only.msg`
and T1 is started again. -/
theorem influence_of_not_ignored {env : Env} {c : Client τ} {msg : DhcpMessage}
    (hsetup : c.only.udpSetup = true) (hmsg : receivedMessage env = some msg)
    (h : ¬ Ignored c.only.state msg) :
    (loopReceive env c).only.state ≠ c.only.state ∨
      AcceptsAck c.only.state ∧ loopReceive env c = rejected env msg c := by
  by_cases haccepts : AcceptsAck c.only.state
  · rw [loopReceive_acceptsAck hsetup haccepts hmsg]
    by_cases hack : IsAck msg
    · refine Or.inl ?_
      have hbound : (receivedWhenRequesting env msg c).only.state = .bound := by
        cases hlease : dhcpOptionIpLeaseTime msg with
        | none =>
            rw [receivedWhenRequesting_of_ack hack hlease]
        | some lease =>
            rw [receivedWhenRequesting_of_lease hack hlease]
      -- an ACK leads to BOUND from each of the three states
      rw [hbound]
      rcases haccepts with hs | hs | hs <;> rw [hs] <;> decide
    · exact Or.inr ⟨haccepts, receivedWhenRequesting_of_not_ack hack⟩
  · have hoffer : c.only.state = .selecting ∧ IsOffer msg := by
      simpa [Ignored, haccepts] using h
    refine Or.inl ?_
    rw [loopReceive_eq hsetup, hmsg, hoffer.1]
    change (receivedWhenSelecting env msg c).only.state ≠ _
    rw [receivedWhenSelecting_of_offer hoffer.2]
    exact nofun

/-! ## Clients that differ in T1 -/

/-- The same client with another T1. -/
def Client.setT1 (c : Client τ) (t1 : τ) : Client τ :=
  { c with only.t1 := t1 }

/-- The timers expire at the same times. -/
def SameTimer (a b : τ) : Prop :=
  ∀ now, TimerLib.expired a now = TimerLib.expired b now

theorem sameTimer_start [TimedTimerLib τ] (a b : τ) (now seconds : ℕ) :
    SameTimer (TimerLib.start a now seconds) (TimerLib.start b now seconds) := by
  intro t
  rw [TimedTimerLib.expired_start, TimedTimerLib.expired_start]

theorem sameTimer_stop [TimedTimerLib τ] (a b : τ) :
    SameTimer (TimerLib.stop a) (TimerLib.stop b) := by
  intro t
  rw [TimedTimerLib.expired_stop, TimedTimerLib.expired_stop]

/-- The clients differ in T1 only, which expires at the same times. -/
def Agree (c d : Client τ) : Prop :=
  ∃ t1, c = d.setT1 t1 ∧ SameTimer t1 d.only.t1

omit [TimerLib τ] in
theorem sendMessage_setT1 (env : Env) (size : ℕ) (c : Client τ) (t1 : τ) :
    (sendMessage env size (c.setT1 t1)).1 = (sendMessage env size c).1.setT1 t1 := by
  have hlog : (c.setT1 t1).log = c.log := rfl
  unfold sendMessage
  rw [hlog]
  split <;> rfl

omit [TimerLib τ] in
theorem sendDiscover_setT1 (env : Env) (c : Client τ) (t1 : τ) :
    (dhcpClientSendDiscover env (c.setT1 t1)).1 = (dhcpClientSendDiscover env c).1.setT1 t1 :=
  sendMessage_setT1 env 576
    { c with
      only.msg := discoverMessage c.only.ethaddr (env.rand c.log) (secs env c)
      log := c.log ++ [.discover (env.rand c.log)] } t1

omit [TimerLib τ] in
theorem sendRequest_setT1 (env : Env) (c : Client τ) (t1 : τ) :
    (dhcpClientSendRequest env (c.setT1 t1)).1 = (dhcpClientSendRequest env c).1.setT1 t1 := by
  have hrequest : requestMessage (c.setT1 t1).only.ethaddr (secs env (c.setT1 t1))
      (c.setT1 t1).only.msg = requestMessage c.only.ethaddr (secs env c) c.only.msg := rfl
  unfold dhcpClientSendRequest
  rw [hrequest]
  cases requestMessage c.only.ethaddr (secs env c) c.only.msg with
  | none =>
      rfl
  | some msg =>
      exact sendMessage_setT1 env 1024 { c with only.msg := msg } t1

theorem agree_timeout [TimedTimerLib τ] {c d : Client τ} (env : Env) (h : Agree c d) :
    Agree (dhcpClientTimeout env c) (dhcpClientTimeout env d) := by
  rcases h with ⟨t1, rfl, hsame⟩
  have hsetup : (d.setT1 t1).only.udpSetup = d.only.udpSetup := rfl
  have hstate : (d.setT1 t1).only.state = d.only.state := rfl
  have ht2 : (d.setT1 t1).only.t2 = d.only.t2 := rfl
  unfold dhcpClientTimeout
  rw [hsetup, hstate]
  split
  · cases d.only.state with
    | init =>
        simp only [sendDiscover_setT1]
        exact ⟨_, rfl, sameTimer_start _ _ _ _⟩
    | requesting =>
        simp only [sendRequest_setT1]
        exact ⟨_, rfl, sameTimer_start _ _ _ _⟩
    | bound =>
        exact ⟨_, rfl, sameTimer_start _ _ _ _⟩
    | renewing =>
        simp only [sendRequest_setT1, ht2]
        split
        · exact ⟨_, rfl, sameTimer_start _ _ _ _⟩
        · exact ⟨_, rfl, sameTimer_start _ _ _ _⟩
    | rebinding =>
        simp only [sendRequest_setT1, ht2]
        split
        · exact ⟨_, rfl, sameTimer_start _ _ _ _⟩
        · exact ⟨_, rfl, sameTimer_stop _ _⟩
    | _ =>
        exact ⟨t1, rfl, hsame⟩
  · exact ⟨t1, rfl, hsame⟩

theorem agree_loopT1 [TimedTimerLib τ] {c d : Client τ} (env : Env) (h : Agree c d) :
    Agree (loopT1 env c) (loopT1 env d) := by
  rcases h with ⟨t1, rfl, hsame⟩
  have hexpired : TimerLib.expired (d.setT1 t1).only.t1 env.now =
      TimerLib.expired d.only.t1 env.now := hsame env.now
  unfold loopT1
  rw [hexpired]
  split
  · exact agree_timeout env ⟨TimerLib.stop t1, rfl, sameTimer_stop _ _⟩
  · exact ⟨t1, rfl, hsame⟩

theorem agree_loopT2 [TimedTimerLib τ] {c d : Client τ} (env : Env) (h : Agree c d) :
    Agree (loopT2 env c) (loopT2 env d) := by
  rcases h with ⟨t1, rfl, hsame⟩
  have hexpired : TimerLib.expired (d.setT1 t1).only.t2 env.now =
      TimerLib.expired d.only.t2 env.now := rfl
  unfold loopT2
  rw [hexpired]
  split
  · exact agree_timeout env ⟨t1, rfl, hsame⟩
  · exact ⟨t1, rfl, hsame⟩

/-- What T1 was does not matter to a message in SELECTING. -/
theorem agree_receivedWhenSelecting [TimedTimerLib τ] (env : Env) (msg : DhcpMessage)
    (d : Client τ) (t1 : τ) :
    Agree (receivedWhenSelecting env msg (d.setT1 t1)) (receivedWhenSelecting env msg d) := by
  by_cases hoffer : IsOffer msg
  · rw [receivedWhenSelecting_of_offer hoffer, receivedWhenSelecting_of_offer hoffer]
    have hsent := sendRequest_setT1 env
      { d with
        only.msg := msg
        log := d.log ++ [.setIp (V4.ofMem (bw32 msg.yiaddr))] } t1
    -- the REQUEST does not read T1, which is started afterwards
    refine ⟨_, ?_, sameTimer_start t1 _ env.now 5⟩
    exact congrArg (fun sent : Client τ =>
      { sent with
        only.t1 := TimerLib.start sent.only.t1 env.now 5
        only.state := .requesting }) hsent
  · rw [receivedWhenSelecting_of_not_offer hoffer, receivedWhenSelecting_of_not_offer hoffer]
    exact ⟨_, rfl, sameTimer_start _ _ _ _⟩

theorem agree_receivedWhenRequesting [TimedTimerLib τ] {c d : Client τ} (env : Env)
    (msg : DhcpMessage) (h : Agree c d) :
    Agree (receivedWhenRequesting env msg c) (receivedWhenRequesting env msg d) := by
  rcases h with ⟨t1, rfl, hsame⟩
  by_cases hack : IsAck msg
  · cases hlease : dhcpOptionIpLeaseTime msg with
    | none =>
        rw [receivedWhenRequesting_of_ack hack hlease, receivedWhenRequesting_of_ack hack hlease]
        exact ⟨t1, rfl, hsame⟩
    | some lease =>
        rw [receivedWhenRequesting_of_lease hack hlease,
          receivedWhenRequesting_of_lease hack hlease]
        exact ⟨_, rfl, sameTimer_start _ _ _ _⟩
  · rw [receivedWhenRequesting_of_not_ack hack, receivedWhenRequesting_of_not_ack hack]
    exact ⟨_, rfl, sameTimer_start _ _ _ _⟩

/-! ## Clients that nobody can tell apart -/

/-- The same client with another message and another T1. -/
def Client.setScratch (c : Client τ) (msg : DhcpMessage) (t1 : τ) : Client τ :=
  { c with
    only.msg := msg
    only.t1 := t1 }

/-- The clients agree, or both are in SELECTING, where neither T1 nor the message that is there
matters. -/
def Alike (c d : Client τ) : Prop :=
  Agree c d ∨ d.only.state = .selecting ∧ ∃ msg t1, c = d.setScratch msg t1

theorem alike_refl (c : Client τ) : Alike c c :=
  Or.inl ⟨c.only.t1, rfl, fun _ => rfl⟩

theorem Alike.state {c d : Client τ} (h : Alike c d) : c.only.state = d.only.state := by
  rcases h with ⟨t1, rfl, -⟩ | ⟨-, msg, t1, rfl⟩ <;> rfl

theorem Alike.log {c d : Client τ} (h : Alike c d) : c.log = d.log := by
  rcases h with ⟨t1, rfl, -⟩ | ⟨-, msg, t1, rfl⟩ <;> rfl

/-- There is no timeout in SELECTING. -/
theorem timeout_selecting {env : Env} {c : Client τ} (h : c.only.state = .selecting) :
    dhcpClientTimeout env c = c := by
  unfold dhcpClientTimeout
  rw [h]
  exact ite_self c

theorem afterTimers_selecting (env : Env) {c : Client τ} (h : c.only.state = .selecting) :
    ∃ t1, afterTimers env c =
      (if TimerLib.expired c.only.t2 env.now then c.stopT2 else c).setT1 t1 := by
  have hloop : ∃ t1, loopT1 env c = c.setT1 t1 := by
    unfold loopT1
    split
    · exact ⟨_, timeout_selecting (c := c.stopT1) h⟩
    · exact ⟨c.only.t1, rfl⟩
  rcases hloop with ⟨t1, ht1⟩
  have hstate : (c.setT1 t1).stopT2.only.state = .selecting := h
  have ht2 : (c.setT1 t1).only.t2 = c.only.t2 := rfl
  refine ⟨t1, ?_⟩
  rw [afterTimers, ht1, loopT2, timeout_selecting hstate, ht2]
  split <;> rfl

theorem alike_afterTimers [TimedTimerLib τ] {c d : Client τ} (env : Env) (h : Alike c d) :
    Alike (afterTimers env c) (afterTimers env d) := by
  rcases h with h | ⟨hstate, msg, t1, rfl⟩
  · exact Or.inl (agree_loopT2 env (agree_loopT1 env h))
  · have hstate' : (d.setScratch msg t1).only.state = .selecting := hstate
    have ht2 : (d.setScratch msg t1).only.t2 = d.only.t2 := rfl
    rcases afterTimers_selecting env hstate with ⟨td, hd⟩
    rcases afterTimers_selecting env hstate' with ⟨tc, hc⟩
    rw [hc, hd, ht2]
    split
    · exact Or.inr ⟨hstate, msg, tc, rfl⟩
    · exact Or.inr ⟨hstate, msg, tc, rfl⟩

/-- The same message makes no difference between the clients. -/
theorem alike_loopReceive [TimedTimerLib τ] {c d : Client τ} {env : Env}
    (hc : c.only.udpSetup = true) (hd : d.only.udpSetup = true) (h : Alike c d) :
    Alike (loopReceive env c) (loopReceive env d) := by
  rw [loopReceive_eq hc, loopReceive_eq hd, h.state]
  cases receivedMessage env with
  | none =>
      cases receivedEventProcess (τ := τ) d.only.state <;> exact h
  | some msg =>
      cases hstate : d.only.state with
      | selecting =>
          rcases h with ⟨t1, rfl, -⟩ | ⟨-, old, t1, rfl⟩
          · exact Or.inl (agree_receivedWhenSelecting env msg d t1)
          · -- the message that was there is overwritten
            exact Or.inl (agree_receivedWhenSelecting env msg d t1)
      | requesting =>
          rcases h with hagree | ⟨hselecting, -⟩
          · exact Or.inl (agree_receivedWhenRequesting env msg hagree)
          · rw [hstate] at hselecting
            cases hselecting
      | renewing =>
          rcases h with hagree | ⟨hselecting, -⟩
          · exact Or.inl (agree_receivedWhenRequesting env msg hagree)
          · rw [hstate] at hselecting
            cases hselecting
      | rebinding =>
          rcases h with hagree | ⟨hselecting, -⟩
          · exact Or.inl (agree_receivedWhenRequesting env msg hagree)
          · rw [hstate] at hselecting
            cases hselecting
      | _ =>
          exact h

/-- A call of the loop whose message, if there is one, is ignored. -/
theorem loopReceive_quiet {env : Env} {c : Client τ} (hsetup : c.only.udpSetup = true)
    (h : ∀ msg, receivedMessage env = some msg → Ignored c.only.state msg) :
    loopReceive env c = c ∨
      c.only.state = .selecting ∧ ∃ msg t1, loopReceive env c = c.setScratch msg t1 := by
  cases hmsg : receivedMessage env with
  | none =>
      exact Or.inl (loopReceive_of_none hsetup (Or.inr hmsg))
  | some msg =>
      rcases loopReceive_ignored hsetup hmsg (h msg hmsg) with heq | ⟨hstate, heq⟩
      · exact Or.inl heq
      · exact Or.inr ⟨hstate, msg, _, heq⟩

/-- Neither do two messages that are ignored. -/
theorem alike_quiet {c c' d d' : Client τ} (h : Alike c d)
    (hc : c' = c ∨ c.only.state = .selecting ∧ ∃ msg t1, c' = c.setScratch msg t1)
    (hd : d' = d ∨ d.only.state = .selecting ∧ ∃ msg t1, d' = d.setScratch msg t1) :
    Alike c' d' := by
  rcases hd with rfl | ⟨hstate, m, t, rfl⟩
  · rcases hc with rfl | ⟨hstate, msg, t1, rfl⟩
    · exact h
    · have hselecting : d'.only.state = .selecting := h.state.symm.trans hstate
      rcases h with ⟨t, rfl, -⟩ | ⟨-, m, t, rfl⟩ <;>
        exact Or.inr ⟨hselecting, msg, t1, rfl⟩
  · rcases hc with rfl | ⟨-, msg, t1, rfl⟩
    · rcases h with ⟨t', rfl, -⟩ | ⟨-, m', t', rfl⟩
      · exact Or.inr ⟨hstate, d.only.msg, t', rfl⟩
      · exact Or.inr ⟨hstate, m', t', rfl⟩
    · rcases h with ⟨t', rfl, -⟩ | ⟨-, m', t', rfl⟩ <;>
        exact Or.inr ⟨hstate, msg, t1, rfl⟩

/-! ## Runs -/

/-- What is kept between the two runs. -/
structure Run.Alike (r q : Run τ) : Prop where
  client : Dhcp.Alike r.client q.client
  now : r.now = q.now
  setup : r.client.only.udpSetup = true ∧ q.client.only.udpSetup = true

theorem alike_start [TimedTimerLib τ] {c d : Client τ} (env : Env) (h : Alike c d) :
    Alike (dhcpClientStart env c) (dhcpClientStart env d) := by
  rcases h with ⟨t1, rfl, hsame⟩ | ⟨hstate, msg, t1, rfl⟩
  · have hsetup : (d.setT1 t1).only.udpSetup = d.only.udpSetup := rfl
    have hstate : (d.setT1 t1).only.state = d.only.state := rfl
    refine Or.inl ?_
    unfold dhcpClientStart
    rw [hsetup, hstate]
    split
    · cases d.only.state with
      | init =>
          simp only [sendDiscover_setT1]
          exact ⟨_, rfl, sameTimer_start _ _ _ _⟩
      | _ =>
          exact ⟨t1, rfl, hsame⟩
    · exact ⟨t1, rfl, hsame⟩
  · -- a client that is started is not started again
    have hsame : ∀ c : Client τ, c.only.state = .selecting → dhcpClientStart env c = c := by
      intro c hc
      unfold dhcpClientStart
      rw [hc]
      exact ite_self c
    rw [hsame d hstate, hsame (d.setScratch msg t1) hstate]
    exact Or.inr ⟨hstate, msg, t1, rfl⟩

/-- What is received does not matter to the timers. -/
theorem afterTimers_congr {env env' : Env} (now : ℕ)
    (h : { env with recvfrom := none } = { env' with recvfrom := none }) (c : Client τ) :
    afterTimers (env.at now) c = afterTimers (env'.at now) c := by
  have hquiet : ∀ env : Env, afterTimers (env.at now) c =
      afterTimers (Env.at { env with recvfrom := none } now) c := fun _ => rfl
  rw [hquiet env, hquiet env', h]

theorem alike_foreign [TimedTimerLib τ] {r q : Run τ} {env env' : Env} (h : r.Alike q)
    (hquiet : { env with recvfrom := none } = { env' with recvfrom := none })
    (hforeign : ReceivesForeign (env.at r.now) r.client)
    (hforeign' : ReceivesForeign (env'.at q.now) q.client)
    (he : r.ForeignIgnored (.loop env)) (hf : q.ForeignIgnored (.loop env')) :
    Dhcp.Alike (r.step (.loop env)).client (q.step (.loop env')).client := by
  have htimers : Dhcp.Alike (afterTimers (env.at r.now) r.client)
      (afterTimers (env'.at q.now) q.client) := by
    rw [← afterTimers_congr q.now hquiet, ← h.now]
    exact alike_afterTimers (env.at r.now) h.client
  have hc := (udpSetup_afterTimers (env.at r.now) r.client).trans h.setup.1
  have hd := (udpSetup_afterTimers (env'.at q.now) q.client).trans h.setup.2
  have hc' := @loopReceive_quiet τ _ (env.at r.now) _ hc
    fun msg hmsg => he msg hmsg (hforeign msg hmsg)
  have hd' := @loopReceive_quiet τ _ (env'.at q.now) _ hd
    fun msg hmsg => hf msg hmsg (hforeign' msg hmsg)
  exact alike_quiet htimers hc' hd'

theorem alike_step [TimedTimerLib τ] {r q : Run τ} {e f : Event} (h : r.Alike q)
    (hsame : OnlyForeign r q e f) (he : r.ForeignIgnored e) (hf : q.ForeignIgnored f) :
    (r.step e).Alike (q.step f) := by
  rcases hsame with rfl | ⟨env, env', rfl, rfl, hquiet, hforeign, hforeign'⟩
  -- the same event on both sides, or two calls that each receive something foreign
  · cases e with
    | start env =>
        refine ⟨?_, h.now, ?_⟩
        · have hstart := alike_start (env.at r.now) h.client
          rw [Run.step, Run.step, ← h.now]
          exact hstart
        · exact ⟨udpSetup_start.trans h.setup.1, udpSetup_start.trans h.setup.2⟩
    | loop env =>
        refine ⟨?_, h.now, ?_⟩
        · have htimers := alike_afterTimers (env.at r.now) h.client
          have hc := (udpSetup_afterTimers (env.at r.now) r.client).trans h.setup.1
          have hd := (udpSetup_afterTimers (env.at r.now) q.client).trans h.setup.2
          have hloop := @alike_loopReceive τ _ _ _ _ (env.at r.now) hc hd htimers
          rw [Run.step, Run.step, ← h.now]
          exact hloop
        · exact ⟨(udpSetup_dhcpLoop _ _).trans h.setup.1, (udpSetup_dhcpLoop _ _).trans h.setup.2⟩
    | advance seconds =>
        exact ⟨h.client, congrArg (· + seconds) h.now, h.setup⟩
  · refine ⟨alike_foreign h hquiet hforeign hforeign' he hf, h.now, ?_⟩
    exact ⟨(udpSetup_dhcpLoop _ _).trans h.setup.1, (udpSetup_dhcpLoop _ _).trans h.setup.2⟩

theorem setup_step {r : Run τ} (e : Event) (h : r.client.only.udpSetup = true) :
    (r.step e).client.only.udpSetup = true := by
  cases e with
  | start env =>
      exact udpSetup_start.trans h
  | loop env =>
      exact (udpSetup_dhcpLoop _ _).trans h
  | advance seconds =>
      exact h

/-- In a run in which every foreign message is ignored none of them has an influence, and two such
runs that differ only in foreign messages show the same states and the same calls of `set_ip`. -/
theorem foreign_no_influence [TimedTimerLib τ] (env : Env) (eth : Mac) (c : Client τ)
    {es fs : List Event} (hes : Along Run.step Run.ForeignIgnored (Run.setup env eth c) es)
    (hfs : Along Run.step Run.ForeignIgnored (Run.setup env eth c) fs)
    (hdiff : Lockstep Run.step OnlyForeign (Run.setup env eth c) (Run.setup env eth c) es fs) :
    (∀ pre env', pre ++ [.loop env'] <+: es →
      let r := run Run.step (Run.setup env eth c) pre
      ∀ msg, receivedMessage env' = some msg →
        Foreign (afterTimers (env'.at r.now) r.client) msg →
          NoInfluence (afterTimers (env'.at r.now) r.client)
            (loopReceive (env'.at r.now) (afterTimers (env'.at r.now) r.client))) ∧
      trace Run.step Run.observed (Run.setup env eth c) es =
        trace Run.step Run.observed (Run.setup env eth c) fs := by
  constructor
  · intro pre env' hpre r msg hmsg hforeign
    -- every message is read at a client that is set up
    have hsetup : r.client.only.udpSetup = true :=
      run_preserves Run.step (I := fun r => r.client.only.udpSetup = true)
        (fun _ e h => setup_step e h) rfl pre
    have hignored := (along_iff_prefixes Run.step).1 hes pre _ hpre msg hmsg hforeign
    exact noInfluence_ignored ((udpSetup_afterTimers _ _).trans hsetup) hmsg hignored
  · have hstart : (Run.setup env eth c).Alike (Run.setup env eth c) :=
      ⟨alike_refl _, rfl, rfl, rfl⟩
    have hkeep : ∀ (r q : Run τ) (e f : Event), r.Alike q → OnlyForeign r q e f →
        r.ForeignIgnored e → q.ForeignIgnored f → (r.step e).Alike (q.step f) :=
      fun _ _ _ _ h hsame he hf => alike_step h hsame he hf
    have hobserved : ∀ r q : Run τ, r.Alike q → r.observed = q.observed := by
      intro r q h
      rw [Run.observed, Run.observed, h.client.state, h.client.log]
    exact trace_eq_of_lockstep Run.step hkeep hobserved hstart hdiff hes hfs

instance (c : Client τ) (msg : DhcpMessage) : Decidable (Foreign c msg) :=
  inferInstanceAs (Decidable (_ ∨ _))

instance (env : Env) (c : Client τ) : Decidable (ReceivesForeign env c) :=
  inferInstanceAs (Decidable (∀ msg ∈ receivedMessage env, Foreign (afterTimers env c) msg))

instance (state : ClientState) (msg : DhcpMessage) : Decidable (Ignored state msg) :=
  inferInstanceAs (Decidable (_ ∧ _))

instance (r : Run τ) (e : Event) : Decidable (r.ForeignIgnored e) :=
  match e with
  | .start _ => isTrue trivial
  | .loop env => inferInstanceAs (Decidable (∀ msg ∈ receivedMessage env,
      Foreign (afterTimers (env.at r.now) r.client) msg →
        Ignored (afterTimers (env.at r.now) r.client).only.state msg))
  | .advance _ => isTrue trivial

end Foreign

/-! ## Messages for another client -/

/-- A message with this type, transaction number and offered address, to the sample client. -/
def sampleMessage (type xid yip : UInt8) : Env :=
  sampleEnv ([bootReply, 1, 6, 0, 0, 0, 0, xid] ++ List.replicate 8 0 ++ [10, 0, 0, yip] ++
    List.replicate 8 0 ++ [2, 0, 0, 0, 0, 1] ++ List.replicate 202 0 ++ dhcpOptMagic ++
    [dhcpOptDhcpMsgTypeTag, 1, type] ++ [dhcpOptServerIdentifierTag, 4, 10, 0, 0, 1] ++
    [dhcpOptEnd])

/-- The client after its DISCOVER, which has the transaction number 7. -/
def sampleSelecting : Client Tcp.Deadline :=
  (run Run.step sampleSetup [.start (sampleEnv [])]).client

/-- The same after its own OFFER. -/
def sampleRequesting : Client Tcp.Deadline :=
  (run Run.step sampleSetup
    [.start (sampleEnv []), .loop (sampleMessage dhcpMsgTypeOffer 7 5)]).client

/-- The OFFER to another client makes this one take the offered address, and in REQUESTING it
changes the next REQUEST. -/
theorem foreign_influence_sample :
    (ReceivesForeign (sampleMessage dhcpMsgTypeOffer 9 6) sampleSelecting ∧
      ¬ NoInfluence sampleSelecting
        (loopReceive (sampleMessage dhcpMsgTypeOffer 9 6) sampleSelecting)) ∧
    (ReceivesForeign (sampleMessage dhcpMsgTypeOffer 9 6) sampleRequesting ∧
      ¬ NoInfluence sampleRequesting
        (loopReceive (sampleMessage dhcpMsgTypeOffer 9 6) sampleRequesting)) := by
  refine ⟨⟨by decide +kernel, ?_⟩, ⟨by decide +kernel, ?_⟩⟩
  · intro h
    have hips := h.setIps
    revert hips
    decide +kernel
  · intro h
    have hxid := congrArg (Option.map DhcpMessage.xid) (h.next (sampleEnv []) 0)
    revert hxid
    decide +kernel

/-- An ACK to another client, while this one waits for its OFFER, goes unnoticed. -/
theorem foreign_no_influence_sample :
    trace Run.step Run.observed sampleSetup
        [.start (sampleEnv []), .loop (sampleMessage dhcpMsgTypeAck 9 6),
          .loop (sampleMessage dhcpMsgTypeOffer 7 5)] =
      trace Run.step Run.observed sampleSetup
        [.start (sampleEnv []), .loop (sampleEnv []),
          .loop (sampleMessage dhcpMsgTypeOffer 7 5)] := by
  have hdiff : Lockstep Run.step OnlyForeign sampleSetup sampleSetup
      [.start (sampleEnv []), .loop (sampleMessage dhcpMsgTypeAck 9 6),
        .loop (sampleMessage dhcpMsgTypeOffer 7 5)]
      [.start (sampleEnv []), .loop (sampleEnv []),
        .loop (sampleMessage dhcpMsgTypeOffer 7 5)] := by
    refine ⟨Or.inl rfl, Or.inr ⟨_, _, rfl, rfl, rfl, ?_, ?_⟩, Or.inl rfl, trivial⟩
    · decide +kernel
    · decide +kernel
  exact (foreign_no_influence (sampleEnv []) ⟨2, 0, 0, 0, 0, 1⟩ sampleClient
    (by decide +kernel) (by decide +kernel) hdiff).2

end Dhcp
end DtsNet
