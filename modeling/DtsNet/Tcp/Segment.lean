import DtsNet.Dblk
import DtsNet.Ip
import DtsNet.Library.Circular

/-!
# Segment — TCP segments and the comparison of sequence numbers

A `Segment` holds the fields of `tcp_segment_t` that travel: what `tcp_pack` writes into the
header and `tcp_unpack` reads back, and the payload bytes.  The stack sends no options.
-/

namespace DtsNet
namespace Tcp

open Ip

/-! ## Flags -/

def segFlagUrg : UInt16 := (1 : UInt16) <<< 5
def segFlagAck : UInt16 := (1 : UInt16) <<< 4
def segFlagPsh : UInt16 := (1 : UInt16) <<< 3
def segFlagRst : UInt16 := (1 : UInt16) <<< 2
def segFlagSyn : UInt16 := (1 : UInt16) <<< 1
def segFlagFin : UInt16 := (1 : UInt16) <<< 0

structure Segment where
  srcPort : UInt16
  destPort : UInt16
  seq : UInt32
  ack : UInt32
  dataOffset : UInt16
  flags : UInt16
  win : UInt16
  urgentPtr : UInt16
  payload : List Byte
  deriving DecidableEq, Repr

def segCtrlA (seg : Segment) : Bool := seg.flags &&& segFlagAck != 0
def segCtrlS (seg : Segment) : Bool := seg.flags &&& segFlagSyn != 0
def segCtrlR (seg : Segment) : Bool := seg.flags &&& segFlagRst != 0
def segCtrlF (seg : Segment) : Bool := seg.flags &&& segFlagFin != 0

def segCtrlAF (seg : Segment) : Bool := segCtrlF seg && segCtrlA seg

/-- The sequence numbers a segment occupies: SYN, payload, FIN. -/
def tcpSegmentLength (seg : Segment) : ℕ :=
  (if segCtrlS seg then 1 else 0) + seg.payload.length + (if segCtrlF seg then 1 else 0)

/-- `tcp_pack` into a header buffer of `rawSize` bytes, without options: it writes nothing unless
the buffer has more than 20.  What it writes is recorded as the field values at that moment. -/
def tcpPack (rawSize : ℕ) (seg : Segment) : Option Segment :=
  if 20 < rawSize then some seg else none

/-- A segment inside the IP datagram that carries it. -/
structure Datagram where
  src : IpAddr
  dest : IpAddr
  seg : Segment
  deriving DecidableEq, Repr

/-- A segment handed up by `tcp_ip_recv`: `src` is the source address of its datagram, `beyond`
what lies behind the payload in the receive buffer. -/
structure Received extends Segment where
  src : IpAddr
  beyond : List Byte
  deriving DecidableEq, Repr

/-- The segment of a datagram, with what lies behind it in the receive buffer. -/
def Datagram.received (dg : Datagram) (beyond : List Byte) : Received :=
  { dg.seg with src := dg.src, beyond := beyond }

/-! ## Sequence number comparison -/

/-- `SN_LS` is `<`, `SN_LE` is `<=`. -/
inductive SnOp
  | ls
  | le
  deriving DecidableEq, Repr

def sncmp (min : UInt32) (op1 : SnOp) (x : UInt32) (op2 : SnOp) (max : UInt32) : Bool :=
  if min = max then
    x == max && op1 == op2 && op1 == .le
  else if min < max then
    match op1, op2 with
    | .ls, .ls => decide (min < x) && decide (x < max)
    | .le, .ls => decide (min ≤ x) && decide (x < max)
    | .ls, .le => decide (min < x) && decide (x ≤ max)
    | .le, .le => decide (min ≤ x) && decide (x ≤ max)
  else
    match op1, op2 with
    | .ls, .ls => !(decide (max ≤ x) && decide (x ≤ min))
    | .le, .ls => decide (max ≤ x) && decide (x < min)
    | .ls, .le => decide (max < x) && decide (x ≤ min)
    | .le, .le => decide (max < x) && decide (x < min)

/-! ## Facts about segments without control flags -/

theorem tcpSegmentLength_of_plain {seg : Segment} (hS : segCtrlS seg = false)
    (hF : segCtrlF seg = false) : tcpSegmentLength seg = seg.payload.length := by
  simp [tcpSegmentLength, hS, hF]

@[simp] theorem tcpPack_header (seg : Segment) : tcpPack 32 seg = some seg := rfl

@[simp] theorem sncmp_self_ls (a x : UInt32) (op : SnOp) : sncmp a .ls x op a = false := by
  cases op <;> simp [sncmp]

theorem sncmp_le_le_iff {a b : UInt32} (h : a ≤ b) (x : UInt32) :
    sncmp a .le x .le b = true ↔ a ≤ x ∧ x ≤ b := by
  by_cases heq : a = b
  · subst heq
    have hx : x = a ↔ a ≤ x ∧ x ≤ a := by
      constructor
      · rintro rfl
        exact ⟨UInt32.le_refl _, UInt32.le_refl _⟩
      · exact fun hx => UInt32.le_antisymm hx.2 hx.1
    simpa [sncmp] using hx
  · simp [sncmp, heq, UInt32.lt_of_le_of_ne h heq]

theorem sncmp_ls_le_iff {a b : UInt32} (h : a ≤ b) (x : UInt32) :
    sncmp a .ls x .le b = true ↔ a < x ∧ x ≤ b := by
  by_cases heq : a = b
  · subst heq
    simp [sncmp]
  · simp [sncmp, heq, UInt32.lt_of_le_of_ne h heq]

/-- A window that stays below `2^32` is compared as it should be. -/
theorem sncmp_window_of_lt {lo : UInt32} {n : ℕ} (hn : 0 < n) (h : lo.toNat + n < 2 ^ 32)
    (x : UInt32) :
    sncmp lo .le x .ls (lo + UInt32.ofNat n) = true ↔ Circular.InRun lo n x := by
  have hlt : lo < lo + UInt32.ofNat n := by
    rw [UInt32.lt_iff_toNat_lt, Circular.toNat_add_ofNat, Nat.mod_eq_of_lt h]
    omega
  have hne : lo ≠ lo + UInt32.ofNat n := fun heq => by
    rw [← heq] at hlt
    exact absurd hlt (by simp)
  rw [Circular.inRun_iff_of_lt h]
  simp [sncmp, hne, hlt]

/-- A window that reaches `2^32` is taken for its complement. -/
theorem sncmp_window_of_le {lo : UInt32} {n : ℕ} (hn : 0 < n) (hn' : n < 2 ^ 32)
    (h : 2 ^ 32 ≤ lo.toNat + n) (x : UInt32) :
    sncmp lo .le x .ls (lo + UInt32.ofNat n) = true ↔ ¬ Circular.InRun lo n x := by
  have hlo := lo.toNat_lt
  have hmod : (lo.toNat + n) % 2 ^ 32 = lo.toNat + n - 2 ^ 32 := by omega
  have hlt : ¬ lo < lo + UInt32.ofNat n := by
    rw [UInt32.lt_iff_toNat_lt, Circular.toNat_add_ofNat, hmod]
    omega
  have hne : lo ≠ lo + UInt32.ofNat n := fun heq => by
    have := congrArg UInt32.toNat heq
    rw [Circular.toNat_add_ofNat, hmod] at this
    omega
  rw [Circular.not_inRun_iff_of_le h hn']
  simp [sncmp, hne, hlt]

/-- Above `lo` and not above `lo + 1` there is only `lo + 1`, if it is above `lo` at all. -/
theorem eq_of_sncmp_succ {lo x : UInt32} (hlo : lo < x) (h : sncmp lo .ls x .le (lo + 1) = true) :
    x = lo + 1 := by
  have hx := x.toNat_lt
  have hlo' := UInt32.lt_iff_toNat_lt.1 hlo
  have hsucc : (lo + 1).toNat = lo.toNat + 1 := by
    rw [UInt32.toNat_add]
    simp
    omega
  have hlt : lo < lo + 1 := by
    rw [UInt32.lt_iff_toNat_lt, hsucc]
    omega
  have hne : lo ≠ lo + 1 := by
    intro h
    have := congrArg UInt32.toNat h
    omega
  have hle : lo < x ∧ x ≤ lo + 1 := by
    simpa [sncmp, hne, hlt] using h
  have hle' := UInt32.le_iff_toNat_le.1 hle.2
  apply UInt32.toNat_inj.1
  omega

end Tcp
end DtsNet
