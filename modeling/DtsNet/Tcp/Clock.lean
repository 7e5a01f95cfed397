import DtsNet.Tcp.Pair
import DtsNet.Tcp.Wire

/-!
# Clock — runs of the pair in which time goes on

Where a run is to lead somewhere, it must be one that can happen: each host reads a clock that never
goes back, and a segment that arrives is one that `tcp_unpack` accepts.  The second is no matter of
course, since the checksum of a payload of odd size takes in the byte that happens to lie behind it,
on either side, and a segment that is sent again is not packed again.
-/

namespace DtsNet
namespace Tcp

open Ip Dblk

variable {τ : Type}

/-! ## Segments that are accepted -/

/-- The bytes are whole words. -/
def WholeWords (bs : List Byte) : Prop :=
  bs.length % 2 = 0

instance (bs : List Byte) : Decidable (WholeWords bs) :=
  inferInstanceAs (Decidable (_ = _))

/-- `tcp_unpack` accepts the segment as it was packed and reads it back, whatever lay behind its
payload then, and whatever lies behind it in the receive buffer. -/
def Datagram.Verifies (dg : Datagram) : Prop :=
  ∀ behind beyond : List Byte, DecodesTo dg.src.addr dg.dest.addr ipProtocolTcp dg.seg
    (tcpPackHeader dg.src.addr dg.dest.addr ipProtocolTcp dg.seg behind ++ dg.seg.payload) beyond

theorem verifies_of_wholeWords {dg : Datagram} (hoffset : dg.seg.dataOffset = 5)
    (hflags : dg.seg.flags < 0x1000) (hsize : dg.seg.payload.length ≤ 65515)
    (hwhole : WholeWords dg.seg.payload) : dg.Verifies := by
  intro behind beyond
  refine decodesTo_tcpPackHeader _ _ _ _ hoffset hflags hsize fun hodd => ?_
  rw [WholeWords] at hwhole
  omega

/-- A segment without text has nothing but its header, of ten words. -/
theorem verifies_newSegment (t : Tcb τ) (seq ack : UInt32) {flags : UInt16} (hflags : flags < 0x1000) :
    (connDatagram t (newSegment t seq ack flags [])).Verifies :=
  verifies_of_wholeWords rfl hflags (Nat.zero_le _) rfl

/-! ## Time -/

/-- What the clock shows after the event, if it showed `now` before; `tcp_recv` does not read it. -/
def Event.clock (now : ℕ) : Event → ℕ
  | .received env _ => env.now
  | .send env _ => env.now
  | .recv _ _ => now
  | .close env => env.now
  | .loop env => env.now

/-- The pair, and what the clocks of the two hosts showed last. -/
structure TimedPair (τ : Type) where
  pair : Pair τ
  nowA : ℕ
  nowB : ℕ

section Machine

variable [TimerLib τ]

def timedStep (t : TimedPair τ) : PairEvent → TimedPair τ
  | .atA e => { t with pair := pairStep t.pair (.atA e), nowA := e.clock t.nowA }
  | .atB e => { t with pair := pairStep t.pair (.atB e), nowB := e.clock t.nowB }

abbrev runTimed (t : TimedPair τ) (es : List PairEvent) : TimedPair τ :=
  Machine.run timedStep t es

@[simp] theorem pair_timedStep (t : TimedPair τ) (e : PairEvent) :
    (timedStep t e).pair = pairStep t.pair e := by
  cases e <;> rfl

/-- A timed run is a run of the pair. -/
theorem pair_runTimed (t : TimedPair τ) (es : List PairEvent) :
    (runTimed t es).pair = runPair t.pair es :=
  Machine.run_project pair_timedStep t es

theorem along_pair {C : Pair τ → PairEvent → Prop} {t : TimedPair τ} {es : List PairEvent}
    (h : Machine.Along timedStep (fun t e => C t.pair e) t es) :
    Machine.Along pairStep C t.pair es :=
  Machine.along_project pair_timedStep h

/-! ## Timers that run -/

/-- An armed timer will expire, however late one looks. -/
def TimersRun (τ : Type) [TimerLib τ] [LawfulTimerLib τ] : Prop :=
  ∀ t : τ, LawfulTimerLib.armed t → ∀ now, ∃ later, now ≤ later ∧ TimerLib.expired t later = true

/-- An armed timer is one that expires. -/
@[reducible] def TimedTimerLib.lawful (τ : Type) [TimerLib τ] [TimedTimerLib τ] :
    LawfulTimerLib τ where
  armed t := ∃ now, TimerLib.expired t now = true
  armed_start t now seconds := ⟨now + seconds, by simp [TimedTimerLib.expired_start]⟩
  not_armed_stop t := by
    rintro ⟨now, h⟩
    rw [TimedTimerLib.expired_stop] at h
    cases h
  armed_of_expired t now h := ⟨now, h⟩

theorem LastingTimerLib.timersRun (τ : Type) [TimerLib τ] [LastingTimerLib τ] :
    @TimersRun τ _ (TimedTimerLib.lawful τ) := by
  rintro t ⟨due, hdue⟩ now
  exact ⟨max now due, Nat.le_max_left _ _, LastingTimerLib.expired_mono t (Nat.le_max_right _ _) hdue⟩

end Machine

end Tcp
end DtsNet
