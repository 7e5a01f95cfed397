import DtsNet.Library.Channel

/-!
# StopAndWait — at most one message in flight

A sender keeps the messages it was given in a queue, has at most one of them in flight, and sends
the next one when that one is acknowledged.  What has been received is then what has been
acknowledged, or this and the message in flight; the messages arrive in order, each once, so that a
run is a run of a channel of whole messages, and from every state all of them can be delivered.
-/

open Slices

structure StopAndWait (α : Type*) where
  acked : List α
  inFlight : Option α
  waiting : List α
  rcvd : List α

namespace StopAndWait

variable {α : Type*}

def idle : StopAndWait α :=
  ⟨[], none, [], []⟩

/-- All messages that were accepted for sending. -/
def sent (w : StopAndWait α) : List α :=
  w.acked ++ w.inFlight.toList ++ w.waiting

inductive Step : StopAndWait α → StopAndWait α → Prop where
  /-- A message is accepted for sending. -/
  | accept (w : StopAndWait α) (a : α) : Step w { w with waiting := w.waiting ++ [a] }
  /-- The first waiting message is sent. -/
  | transmit (w : StopAndWait α) (a : α) (rest : List α) : w.inFlight = none →
      w.waiting = a :: rest → Step w { w with inFlight := some a, waiting := rest }
  /-- The message in flight is received for the first time. -/
  | deliver (w : StopAndWait α) (a : α) : w.inFlight = some a → w.rcvd = w.acked →
      Step w { w with rcvd := w.acked ++ [a] }
  /-- The sender learns that the message in flight was received. -/
  | acknowledge (w : StopAndWait α) (a : α) : w.inFlight = some a → w.rcvd = w.acked ++ [a] →
      Step w { w with acked := w.acked ++ [a], inFlight := none }

abbrev Steps : StopAndWait α → StopAndWait α → Prop :=
  Relation.ReflTransGen Step

/-! ## The invariant -/

/-- The receiver is at most the message in flight ahead of the acknowledgments. -/
def Inv (w : StopAndWait α) : Prop :=
  w.rcvd = w.acked ∨ ∃ a, w.inFlight = some a ∧ w.rcvd = w.acked ++ [a]

theorem inv_idle : (idle : StopAndWait α).Inv :=
  Or.inl rfl

theorem Step.inv {v w : StopAndWait α} (h : Step v w) (hv : v.Inv) : w.Inv := by
  cases h with
  | accept a =>
      exact hv
  | transmit a rest hnone hwaiting =>
      rcases hv with hv | ⟨b, hb, _⟩
      · exact Or.inl hv
      · rw [hnone] at hb
        cases hb
  | deliver a hflight hrcvd =>
      exact Or.inr ⟨a, hflight, rfl⟩
  | acknowledge a hflight hrcvd =>
      exact Or.inl hrcvd

theorem Steps.inv {v w : StopAndWait α} (h : Steps v w) (hv : v.Inv) : w.Inv := by
  induction h with
  | refl =>
      exact hv
  | tail _ hstep ih =>
      exact hstep.inv ih

section Inv

variable {w : StopAndWait α} (h : w.Inv)

include h

theorem Inv.acked_prefix : w.acked <+: w.rcvd := by
  rcases h with h | ⟨a, _, h⟩
  · rw [h]
  · rw [h]
    exact List.prefix_append _ _

theorem Inv.rcvd_prefix : w.rcvd <+: w.acked ++ w.inFlight.toList := by
  rcases h with h | ⟨a, ha, h⟩
  · rw [h]
    exact List.prefix_append _ _
  · rw [h, ha, Option.toList_some]

theorem Inv.rcvd_prefix_sent : w.rcvd <+: w.sent :=
  h.rcvd_prefix.trans (List.prefix_append _ _)

theorem Inv.length_rcvd_le : w.rcvd.length ≤ w.acked.length + 1 := by
  rcases h with h | ⟨a, _, h⟩
  · rw [h]
    exact Nat.le_succ _
  · rw [h, List.length_append]
    exact Nat.le_refl _

/-- The one message that may come next is the one in flight, and only if it has not been received. -/
theorem Inv.eq_of_next {a : α} (ha : w.rcvd ++ [a] <+: w.acked ++ w.inFlight.toList) :
    w.inFlight = some a ∧ w.rcvd = w.acked := by
  have hlen := ha.length_le
  rcases h with h | ⟨b, hb, h⟩
  · refine ⟨?_, h⟩
    rw [h, List.prefix_append_right_inj] at ha
    cases hf : w.inFlight with
    | none =>
        simp [hf] at ha
    | some b =>
        rw [hf, Option.toList_some] at ha
        have heq := ha.eq_of_length rfl
        rw [List.singleton_inj.1 heq]
  · -- a message behind the one in flight was never sent
    exfalso
    rw [h, hb] at hlen
    simp at hlen

end Inv

/-! ## Runs -/

/-- The channel of whole messages that a state stands for. -/
def channel (w : StopAndWait α) : Channel α :=
  { sent := w.sent, rcvd := w.rcvd }

theorem Step.channel {v w : StopAndWait α} (h : Step v w) : Channel.Steps v.channel w.channel := by
  cases h with
  | accept a =>
      have hstep := Channel.Step.accept v.channel [a]
      refine .single ?_
      simpa [StopAndWait.channel, StopAndWait.sent] using hstep
  | transmit a rest hnone hwaiting =>
      -- the message only moves on
      have hsame : ({ v with inFlight := some a, waiting := rest } : StopAndWait α).channel =
          v.channel := by
        simp [StopAndWait.channel, StopAndWait.sent, hnone, hwaiting]
      rw [hsame]
  | deliver a hflight hrcvd =>
      have hslice : SliceAt v.sent v.rcvd.length [a] := by
        rw [hrcvd, StopAndWait.sent, hflight, Option.toList_some]
        exact sliceAt_mid v.acked [a] v.waiting
      have hstep := Channel.Step.deliver v.channel [a] hslice
      refine .single ?_
      simpa [StopAndWait.channel, StopAndWait.sent, hrcvd] using hstep
  | acknowledge a hflight hrcvd =>
      have hsame : ({ v with acked := v.acked ++ [a], inFlight := none } : StopAndWait α).channel =
          v.channel := by
        simp [StopAndWait.channel, StopAndWait.sent, hflight]
      rw [hsame]

/-- Every run is a run of a channel of whole messages. -/
theorem Steps.channel {v w : StopAndWait α} (h : Steps v w) :
    Channel.Steps v.channel w.channel := by
  induction h with
  | refl =>
      exact .refl
  | tail _ hstep ih =>
      exact ih.trans hstep.channel

/-! ## What is left to do -/

/-- The number of messages that are not acknowledged. -/
def backlog (w : StopAndWait α) : ℕ :=
  w.inFlight.toList.length + w.waiting.length

theorem length_sent (w : StopAndWait α) : w.sent.length = w.acked.length + w.backlog := by
  simp [sent, backlog]

/-- Without a backlog everything that was sent has arrived. -/
theorem Inv.rcvd_eq_sent {w : StopAndWait α} (h : w.Inv) (hbacklog : w.backlog = 0) :
    w.rcvd = w.sent := by
  have hflight : w.inFlight = none := by
    cases hf : w.inFlight with
    | none =>
        rfl
    | some a =>
        simp [backlog, hf] at hbacklog
  have hwaiting : w.waiting = [] := by
    simpa [backlog, hflight] using hbacklog
  rcases h with h | ⟨a, ha, _⟩
  · simp [sent, hflight, hwaiting, h]
  · rw [hflight] at ha
    cases ha

end StopAndWait
