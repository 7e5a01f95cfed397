import DtsNet.Tcp.Segment

/-!
# Tcb — the transmission control block and its environment

`Tcb τ` is `tcp_t` over a timer type `τ`.  The functions of the stack act on a `Conn`, a control
block together with the record of what was done with it so far; nothing reads the record but
the environment, which may let its answers depend on it, and the properties stated about runs.
-/

namespace DtsNet
namespace Tcp

open Ip Dblk

/-! ## The timer library -/

/-- The operations of the external timer library that the stack calls; `now` is the reading of the
clock given to `timer_init`. -/
class TimerLib (τ : Type) where
  init : τ
  start : τ → (now seconds : ℕ) → τ
  stop : τ → τ
  expired : τ → (now : ℕ) → Bool

/-- What the stack relies on: `timer_start` arms, `timer_stop` disarms, and only an armed timer
expires. -/
class LawfulTimerLib (τ : Type) [TimerLib τ] where
  armed : τ → Prop
  armed_start : ∀ (t : τ) (now seconds : ℕ), armed (TimerLib.start t now seconds)
  not_armed_stop : ∀ t : τ, ¬ armed (TimerLib.stop t)
  armed_of_expired : ∀ (t : τ) (now : ℕ), TimerLib.expired t now = true → armed t

/-- When timers expire: a started one as soon as its seconds have passed, a stopped one never. -/
class TimedTimerLib (τ : Type) [TimerLib τ] : Prop where
  expired_start : ∀ (t : τ) (start seconds now : ℕ),
    TimerLib.expired (TimerLib.start t start seconds) now = decide (start + seconds ≤ now)
  expired_stop : ∀ (t : τ) (now : ℕ), TimerLib.expired (TimerLib.stop t) now = false

/-- Besides, a timer that has expired stays so as the clock goes on. -/
class LastingTimerLib (τ : Type) [TimerLib τ] : Prop extends TimedTimerLib τ where
  expired_mono : ∀ (t : τ) {now later : ℕ}, now ≤ later → TimerLib.expired t now = true →
    TimerLib.expired t later = true

/-- A timer that remembers when it is due. -/
structure Deadline where
  due : Option ℕ
  deriving DecidableEq, Repr

instance : TimerLib Deadline where
  init := ⟨none⟩
  start _ now seconds := ⟨some (now + seconds)⟩
  stop _ := ⟨none⟩
  expired t now := t.due.any fun due => decide (due ≤ now)

instance : LawfulTimerLib Deadline where
  armed t := t.due.isSome = true
  armed_start _ _ _ := rfl
  not_armed_stop _ := by simp [TimerLib.stop]
  armed_of_expired t now h := by
    cases hd : t.due with
    | none =>
        simp [TimerLib.expired, hd] at h
    | some due =>
        rfl

instance : TimedTimerLib Deadline where
  expired_start _ _ _ _ := rfl
  expired_stop _ _ := rfl

instance : LastingTimerLib Deadline where
  expired_mono t now later hle h := by
    rcases (Option.any_eq_true _ _).1 h with ⟨due, hdue, hnow⟩
    exact (Option.any_eq_true _ _).2 ⟨due, hdue, decide_eq_true ((of_decide_eq_true hnow).trans hle)⟩

/-! ## The control block -/

inductive State
  | listen
  | synSent
  | synReceived
  | established
  | finWait1
  | finWait2
  | timeWait
  | closeWait
  | lastAck
  | closing
  | closed
  deriving DecidableEq, Repr

/-- The segment in `tx_seg`: its fields, and in `rawData` what `tcp_pack` wrote into its buffer
(`none` where the buffer could not be allocated). -/
structure TxSegment extends Segment where
  rawData : Option Segment
  deriving DecidableEq, Repr

structure Snd where
  una : UInt32
  nxt : UInt32
  iss : UInt32
  deriving DecidableEq, Repr

structure Rcv where
  nxt : UInt32
  irs : UInt32
  wnd : UInt16
  deriving DecidableEq, Repr

/-- `rx_segs` is left out: `tcp_ip_recv` puts one segment there and every handler takes it out
at once, so the handlers below are given the segment. -/
structure Tcb (τ : Type) where
  passive : Bool
  dest : IpAddr
  destPort : UInt16
  localhost : Netif
  port : UInt32
  state : State
  txData : List Block
  rxData : List Block
  txSeg : Option TxSegment
  snd : Snd
  rcv : Rcv
  tmr : τ
  timeWaitSeconds : ℕ
  deriving DecidableEq, Repr

/-! ## What is recorded about a connection -/

inductive Action
  /-- `tcp_ip_send` handed a datagram to the IP layer; `sent` says whether it went out.  `none` is
  a datagram without a segment, sent for a `tx_seg` that has no header buffer. -/
  | output (dg : Option Datagram) (sent : Bool)
  /-- A new segment was put into `tx_seg`. -/
  | built (seg : Segment)
  /-- `tx_seg` was released on the arrival of `ack`, when `snd.nxt` was `nxt`. -/
  | completed (seg : Segment) (ack nxt : UInt32)
  /-- A block with these bytes was queued to `rx_data`. -/
  | queued (data : List Byte)
  /-- `tcp_send` accepted these bytes. -/
  | accepted (data : List Byte)
  /-- `tcp_recv` returned these bytes. -/
  | returned (data : List Byte)
  deriving DecidableEq, Repr

structure Conn (τ : Type) where
  tcp : Tcb τ
  log : List Action
  deriving DecidableEq, Repr

/-! ## The environment of one event -/

/-- The call sites of the allocator. -/
inductive Alloc
  | tcb
  | synSegment
  | synHeader
  | dataSegment
  | dataHeader
  | finSegment
  | finHeader
  | rxBlock
  | txBlock
  | copy
  deriving DecidableEq, Repr

/-- Everything the outcome of an event depends on besides the control block: the clock, whether
`ip_hl_send` and `malloc` succeed after what has happened so far, and what a read of
`tx_seg->flags` through a null `tx_seg` yields. -/
structure Env where
  now : ℕ
  ipHlSend : List Action → Bool
  malloc : Alloc → List Action → Bool
  nullFlags : UInt16

def Env.AllocOk (env : Env) : Prop :=
  ∀ a log, env.malloc a log = true

def Env.SendOk (env : Env) : Prop :=
  ∀ log, env.ipHlSend log = true

/-- Everything works at this time. -/
def Env.working (now : ℕ) : Env :=
  { now := now, ipHlSend := fun _ => true, malloc := fun _ _ => true, nullFlags := 0 }

theorem Env.allocOk_working (now : ℕ) : (Env.working now).AllocOk :=
  fun _ _ => rfl

/-! ## Reading the record -/

def outputs (log : List Action) : List Datagram :=
  log.filterMap fun
    | .output (some dg) true => some dg
    | _ => none

def queuedBytes (log : List Action) : List Byte :=
  log.flatMap fun
    | .queued bs => bs
    | _ => []

def acceptedBytes (log : List Action) : List Byte :=
  log.flatMap fun
    | .accepted bs => bs
    | _ => []

def returnedBytes (log : List Action) : List Byte :=
  log.flatMap fun
    | .returned bs => bs
    | _ => []

section Append

variable (l m : List Action)

@[simp] theorem queuedBytes_append : queuedBytes (l ++ m) = queuedBytes l ++ queuedBytes m := by
  simp [queuedBytes]

@[simp] theorem acceptedBytes_append :
    acceptedBytes (l ++ m) = acceptedBytes l ++ acceptedBytes m := by
  simp [acceptedBytes]

@[simp] theorem returnedBytes_append :
    returnedBytes (l ++ m) = returnedBytes l ++ returnedBytes m := by
  simp [returnedBytes]

end Append

end Tcp
end DtsNet
