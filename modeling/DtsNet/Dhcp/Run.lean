import DtsNet.Dhcp.Client
import DtsNet.Library.Machine

/-!
# Run — runs of the DHCP client

The machine whose events are the calls of the DHCP module and the steps of the clock, and what each
of the functions does to the timers, the state and the record.
-/

namespace DtsNet
namespace Dhcp

open Dblk Ip Machine
open Ether (Mac)
open Tcp (TimerLib LawfulTimerLib TimedTimerLib)

/-! ## Reading the record -/

/-- The accepted lease times, with the time at which they were accepted. -/
def leases (log : List Action) : List (ℕ × UInt32) :=
  log.filterMap fun
    | .acked now (some lease) => some (now, lease)
    | _ => none

/-- The addresses that `set_ip` was called with. -/
def setIps (log : List Action) : List V4 :=
  log.filterMap fun
    | .setIp ip => some ip
    | _ => none

/-- The transaction numbers of the DISCOVERs. -/
def discovers (log : List Action) : List UInt32 :=
  log.filterMap fun
    | .discover xid => some xid
    | _ => none

section Append

variable (l m : List Action)

@[simp] theorem leases_append : leases (l ++ m) = leases l ++ leases m := by
  simp [leases]

end Append

/-! ## The machine -/

inductive Event
  | start (env : Env)
  | loop (env : Env)
  | advance (seconds : ℕ)

/-- The client and the clock; `looped` says whether `dhcp_loop` was called since the clock last
moved. -/
structure Run (τ : Type) where
  client : Client τ
  now : ℕ
  looped : Bool

section Runs

variable {τ : Type} [TimerLib τ]

/-- The clock of an event is the clock of the run. -/
def Env.at (env : Env) (now : ℕ) : Env :=
  { env with now := now }

def Run.step (r : Run τ) : Event → Run τ
  | .start env => { r with client := dhcpClientStart (env.at r.now) r.client }
  | .loop env => { r with client := dhcpLoop (env.at r.now) r.client, looped := true }
  | .advance seconds => { r with now := r.now + seconds, looped := false }

/-- After `dhcp_client_setup`. -/
def Run.setup (env : Env) (eth : Mac) (c : Client τ) : Run τ :=
  { client := (dhcpClientSetup true env eth c).1, now := env.now, looped := false }

/-! ## What sending changes -/

omit [TimerLib τ] in
theorem sendMessage_only (env : Env) (size : ℕ) (c : Client τ) :
    (sendMessage env size c).1.only = c.only := by
  unfold sendMessage
  split <;> rfl

omit [TimerLib τ] in
theorem sendMessage_log (env : Env) (size : ℕ) (c : Client τ) :
    (sendMessage env size c).1.log = c.log ∨
      ∃ data, (sendMessage env size c).1.log = c.log ++ [.sendto data] := by
  unfold sendMessage
  split
  · exact Or.inr ⟨_, rfl⟩
  · exact Or.inl rfl

omit [TimerLib τ] in
theorem sendDiscover_only (env : Env) (c : Client τ) :
    (dhcpClientSendDiscover env c).1.only =
      { c.only with msg := discoverMessage c.only.ethaddr (env.rand c.log) (secs env c) } :=
  sendMessage_only _ _ _

/-- The message that is sent next becomes the message that is there. -/
def requested (env : Env) (c : Client τ) : DhcpMessage :=
  (requestMessage c.only.ethaddr (secs env c) c.only.msg).getD c.only.msg

omit [TimerLib τ] in
theorem sendRequest_only (env : Env) (c : Client τ) :
    (dhcpClientSendRequest env c).1.only = { c.only with msg := requested env c } := by
  unfold dhcpClientSendRequest requested
  cases requestMessage c.only.ethaddr (secs env c) c.only.msg with
  | none =>
      rfl
  | some msg =>
      exact sendMessage_only _ _ _

omit [TimerLib τ] in
/-- A REQUEST leaves nothing in the record but the bytes that were sent. -/
theorem sendRequest_log (env : Env) (c : Client τ) :
    (dhcpClientSendRequest env c).1.log = c.log ∨
      ∃ data, (dhcpClientSendRequest env c).1.log = c.log ++ [.sendto data] := by
  unfold dhcpClientSendRequest
  cases requestMessage c.only.ethaddr (secs env c) c.only.msg with
  | none =>
      exact Or.inl rfl
  | some msg =>
      exact sendMessage_log env 1024 _

omit [TimerLib τ] in
theorem sendDiscover_log (env : Env) (c : Client τ) :
    ∃ l, (dhcpClientSendDiscover env c).1.log = c.log ++ [.discover (env.rand c.log)] ++ l ∧
      ∀ a ∈ l, ∃ data, a = .sendto data := by
  rcases sendMessage_log env 576 { c with
      only.msg := discoverMessage c.only.ethaddr (env.rand c.log) (secs env c)
      log := c.log ++ [.discover (env.rand c.log)] } with h | ⟨data, h⟩
  · exact ⟨[], h.trans (List.append_nil _).symm, by simp⟩
  · exact ⟨[.sendto data], h, by simp⟩

omit [TimerLib τ] in
@[simp] theorem leases_sendRequest (env : Env) (c : Client τ) :
    leases (dhcpClientSendRequest env c).1.log = leases c.log := by
  rcases sendRequest_log env c with h | ⟨data, h⟩
  · rw [h]
  · simp [h, leases]

omit [TimerLib τ] in
@[simp] theorem leases_sendDiscover (env : Env) (c : Client τ) :
    leases (dhcpClientSendDiscover env c).1.log = leases c.log := by
  rcases sendDiscover_log env c with ⟨l, h, hl⟩
  have hnone : leases l = [] := by
    refine List.filterMap_eq_nil_iff.2 ?_
    intro a ha
    rcases hl a ha with ⟨data, rfl⟩
    rfl
  rw [h, leases_append, leases_append, hnone]
  simp [leases]

/-! ## The received message -/

/-- The message that `dhcp_loop` finds in the buffer. -/
def receivedMessage (env : Env) : Option DhcpMessage :=
  env.recvfrom.bind fun raw => dhcpMessageUnpack env.host raw.1 raw.2

/-- What is received matters only in a state with a handler. -/
theorem loopReceive_eq {env : Env} {c : Client τ} (hsetup : c.only.udpSetup = true) :
    loopReceive env c =
      match receivedEventProcess c.only.state, receivedMessage env with
      | some process, some msg => process env msg c
      | _, _ => c := by
  unfold loopReceive receivedMessage
  rw [if_pos hsetup]
  cases env.recvfrom with
  | none =>
      cases receivedEventProcess (τ := τ) c.only.state <;> rfl
  | some raw =>
      by_cases hsize : 0 < raw.2
      · simp only [if_pos hsize, dhcpClientReceived, Option.bind_some]
        cases receivedEventProcess (τ := τ) c.only.state with
        | none =>
            rfl
        | some process =>
            cases dhcpMessageUnpack env.host raw.1 raw.2 <;> rfl
      · have hshort : raw.2 < 241 := by omega
        simp only [if_neg hsize, dhcpMessageUnpack, if_pos hshort, Option.bind_some]
        cases receivedEventProcess (τ := τ) c.only.state <;> rfl

theorem loopReceive_of_none {env : Env} {c : Client τ} (hsetup : c.only.udpSetup = true)
    (hnone : receivedEventProcess (τ := τ) c.only.state = none ∨ receivedMessage env = none) :
    loopReceive env c = c := by
  rw [loopReceive_eq hsetup]
  rcases hnone with h | h
  · rw [h]
  · rw [h]
    cases receivedEventProcess (τ := τ) c.only.state <;> rfl

/-! ## What a timeout changes -/

/-- A retransmission. -/
def retransmitted (env : Env) (c : Client τ) : DhcpT τ :=
  { c.only with
    msg := requested env c
    t1 := TimerLib.start c.only.t1 env.now 5 }

theorem timeout_only {env : Env} {c : Client τ} (hsetup : c.only.udpSetup = true) :
    (dhcpClientTimeout env c).only =
      match c.only.state with
      | .init =>
          { c.only with
            msg := discoverMessage c.only.ethaddr (env.rand c.log) (secs env c)
            t1 := TimerLib.start c.only.t1 env.now 5 }
      | .requesting => retransmitted env c
      | .bound =>
          { c.only with
            t1 := TimerLib.start c.only.t1 env.now 1
            state := .renewing }
      | .renewing =>
          if TimerLib.expired c.only.t2 env.now = false then
            retransmitted env c
          else
            { c.only with
              t1 := TimerLib.start c.only.t1 env.now 1
              t2 := TimerLib.start c.only.t2 env.now (c.only.lease.toNat / 8)
              state := .rebinding }
      | .rebinding =>
          if TimerLib.expired c.only.t2 env.now = false then
            retransmitted env c
          else
            { c.only with
              t1 := TimerLib.stop c.only.t1
              t2 := TimerLib.stop c.only.t2
              state := .init }
      | _ => c.only := by
  unfold dhcpClientTimeout
  rw [if_pos hsetup]
  cases hstate : c.only.state with
  | init =>
      simp only [sendDiscover_only]
  | requesting =>
      simp only [sendRequest_only, retransmitted]
  | renewing =>
      simp only [sendRequest_only, retransmitted]
      split <;> rfl
  | rebinding =>
      simp only [sendRequest_only, retransmitted]
      split <;> rfl
  | _ =>
      rfl

@[simp] theorem leases_timeout (env : Env) (c : Client τ) :
    leases (dhcpClientTimeout env c).log = leases c.log := by
  unfold dhcpClientTimeout
  split
  · cases c.only.state with
    | init =>
        exact leases_sendDiscover env c
    | requesting =>
        exact leases_sendRequest env c
    | renewing =>
        simp only
        split
        · exact leases_sendRequest env c
        · rfl
    | rebinding =>
        simp only
        split
        · exact leases_sendRequest env c
        · rfl
    | _ =>
        rfl
  · rfl

@[simp] theorem udpSetup_timeout (env : Env) (c : Client τ) :
    (dhcpClientTimeout env c).only.udpSetup = c.only.udpSetup := by
  cases hsetup : c.only.udpSetup with
  | true =>
      rw [timeout_only hsetup]
      cases c.only.state with
      | renewing =>
          simp only
          split <;> exact hsetup
      | rebinding =>
          simp only
          split <;> exact hsetup
      | _ =>
          exact hsetup
  | false =>
      simp [dhcpClientTimeout, hsetup]

/-! ## The two timers of the loop -/

theorem loopT1_of_expired {env : Env} {c : Client τ}
    (h : TimerLib.expired c.only.t1 env.now = true) :
    loopT1 env c = dhcpClientTimeout env c.stopT1 :=
  if_pos h

theorem loopT2_of_expired {env : Env} {c : Client τ}
    (h : TimerLib.expired c.only.t2 env.now = true) :
    loopT2 env c = dhcpClientTimeout env c.stopT2 :=
  if_pos h

theorem loopT1_of_not_expired {env : Env} {c : Client τ}
    (h : TimerLib.expired c.only.t1 env.now = false) : loopT1 env c = c := by
  simp [loopT1, h]

theorem loopT2_of_not_expired {env : Env} {c : Client τ}
    (h : TimerLib.expired c.only.t2 env.now = false) : loopT2 env c = c := by
  simp [loopT2, h]

@[simp] theorem leases_loopT1 (env : Env) (c : Client τ) :
    leases (loopT1 env c).log = leases c.log := by
  unfold loopT1
  split
  · exact leases_timeout _ _
  · rfl

@[simp] theorem leases_loopT2 (env : Env) (c : Client τ) :
    leases (loopT2 env c).log = leases c.log := by
  unfold loopT2
  split
  · exact leases_timeout _ _
  · rfl

@[simp] theorem udpSetup_loopT1 (env : Env) (c : Client τ) :
    (loopT1 env c).only.udpSetup = c.only.udpSetup := by
  unfold loopT1
  split
  · exact udpSetup_timeout _ _
  · rfl

@[simp] theorem udpSetup_loopT2 (env : Env) (c : Client τ) :
    (loopT2 env c).only.udpSetup = c.only.udpSetup := by
  unfold loopT2
  split
  · exact udpSetup_timeout _ _
  · rfl

/-! ## What a message changes -/

/-- A message that the client was waiting for in SELECTING. -/
def IsOffer (msg : DhcpMessage) : Prop :=
  msg.op = bootReply ∧ dhcpOptionMessageType msg = some dhcpMsgTypeOffer

/-- A message that the client was waiting for in the other states. -/
def IsAck (msg : DhcpMessage) : Prop :=
  msg.op = bootReply ∧ dhcpOptionMessageType msg = some dhcpMsgTypeAck

instance (msg : DhcpMessage) : Decidable (IsOffer msg) :=
  inferInstanceAs (Decidable (_ ∧ _))

instance (msg : DhcpMessage) : Decidable (IsAck msg) :=
  inferInstanceAs (Decidable (_ ∧ _))

/-- A message that was not waited for. -/
def rejected (env : Env) (msg : DhcpMessage) (c : Client τ) : Client τ :=
  { c with
    only.msg := msg
    only.t1 := TimerLib.start c.only.t1 env.now 5 }

theorem receivedWhenSelecting_of_not_offer {env : Env} {msg : DhcpMessage} {c : Client τ}
    (h : ¬ IsOffer msg) : receivedWhenSelecting env msg c = rejected env msg c := by
  unfold receivedWhenSelecting
  rw [if_pos (not_and_or.1 h)]
  rfl

theorem receivedWhenSelecting_of_offer {env : Env} {msg : DhcpMessage} {c : Client τ}
    (h : IsOffer msg) :
    receivedWhenSelecting env msg c =
      let sent := (dhcpClientSendRequest env
        { c with
          only.msg := msg
          log := c.log ++ [.setIp (V4.ofMem (bw32 msg.yiaddr))] }).1
      { sent with
        only.t1 := TimerLib.start sent.only.t1 env.now 5
        only.state := .requesting } := by
  unfold receivedWhenSelecting
  rw [if_neg (by simp [h.1, h.2])]

theorem receivedWhenRequesting_of_not_ack {env : Env} {msg : DhcpMessage} {c : Client τ}
    (h : ¬ IsAck msg) : receivedWhenRequesting env msg c = rejected env msg c := by
  unfold receivedWhenRequesting
  rw [if_pos (not_and_or.1 h)]
  rfl

theorem receivedWhenRequesting_of_ack {env : Env} {msg : DhcpMessage} {c : Client τ}
    (h : IsAck msg) (hlease : dhcpOptionIpLeaseTime msg = none) :
    receivedWhenRequesting env msg c =
      { c with
        only.msg := msg
        only.state := .bound
        log := c.log ++ [.acked env.now none] } := by
  unfold receivedWhenRequesting
  rw [if_neg (by simp [h.1, h.2]), hlease]

theorem receivedWhenRequesting_of_lease {env : Env} {msg : DhcpMessage} {c : Client τ}
    {lease : UInt32} (h : IsAck msg) (hlease : dhcpOptionIpLeaseTime msg = some lease) :
    receivedWhenRequesting env msg c =
      { c with
        only.msg := msg
        only.lease := lease
        only.t1 := TimerLib.start c.only.t1 env.now (lease.toNat / 2)
        only.t2 := TimerLib.start c.only.t2 env.now (7 * lease.toNat / 8)
        only.state := .bound
        log := c.log ++ [.acked env.now (some lease)] } := by
  unfold receivedWhenRequesting
  rw [if_neg (by simp [h.1, h.2]), hlease]

/-! ## The setup stays -/

theorem udpSetup_start {env : Env} {c : Client τ} :
    (dhcpClientStart env c).only.udpSetup = c.only.udpSetup := by
  unfold dhcpClientStart
  split
  · cases c.only.state with
    | init =>
        simp only [sendDiscover_only]
    | _ =>
        rfl
  · rfl

theorem udpSetup_receivedWhenSelecting (env : Env) (msg : DhcpMessage) (c : Client τ) :
    (receivedWhenSelecting env msg c).only.udpSetup = c.only.udpSetup := by
  by_cases h : IsOffer msg
  · rw [receivedWhenSelecting_of_offer h]
    simp only [sendRequest_only]
  · rw [receivedWhenSelecting_of_not_offer h]
    rfl

theorem udpSetup_receivedWhenRequesting (env : Env) (msg : DhcpMessage) (c : Client τ) :
    (receivedWhenRequesting env msg c).only.udpSetup = c.only.udpSetup := by
  by_cases h : IsAck msg
  · cases hlease : dhcpOptionIpLeaseTime msg with
    | none =>
        rw [receivedWhenRequesting_of_ack h hlease]
    | some lease =>
        rw [receivedWhenRequesting_of_lease h hlease]
  · rw [receivedWhenRequesting_of_not_ack h]
    rfl

@[simp] theorem udpSetup_loopReceive (env : Env) (c : Client τ) :
    (loopReceive env c).only.udpSetup = c.only.udpSetup := by
  cases hsetup : c.only.udpSetup with
  | true =>
      rw [loopReceive_eq hsetup]
      cases receivedMessage env with
      | none =>
          cases receivedEventProcess (τ := τ) c.only.state <;> exact hsetup
      | some msg =>
          cases c.only.state with
          | selecting =>
              exact (udpSetup_receivedWhenSelecting env msg c).trans hsetup
          | requesting =>
              exact (udpSetup_receivedWhenRequesting env msg c).trans hsetup
          | renewing =>
              exact (udpSetup_receivedWhenRequesting env msg c).trans hsetup
          | rebinding =>
              exact (udpSetup_receivedWhenRequesting env msg c).trans hsetup
          | _ =>
              exact hsetup
  | false =>
      simp [loopReceive, hsetup]

@[simp] theorem udpSetup_dhcpLoop (env : Env) (c : Client τ) :
    (dhcpLoop env c).only.udpSetup = c.only.udpSetup := by
  simp [dhcpLoop]

end Runs

end Dhcp
end DtsNet
