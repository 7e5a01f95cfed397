import Mathlib.Data.Nat.ModEq
import DtsNet.Tcp.Events

/-!
# Sys — the clock

`dts_net_sys_heartbeat` counts its calls and divides the count by the frequency they come with.
Both counters are a `size_t`, here of `w` bits.  When the count of the calls wraps, so does the
count of the seconds, however far it is from its own end.
-/

namespace DtsNet
namespace Sys

open Tcp (Env tcpGenerateIsn)

/-! ## The code -/

/-- The static variables. -/
structure Clock where
  tick : ℕ
  second : ℕ
  deriving DecidableEq, Repr

/-- `freq` is `DTS_NET_SYS_HEARTBEAT_FREQ`. -/
def dtsNetSysHeartbeat (w freq : ℕ) (c : Clock) : Clock :=
  let tick := (c.tick + 1) % 2 ^ w
  let s := tick / freq
  if s ≠ c.second then
    { tick := tick, second := s }
  else
    { c with tick := tick }

def sysTickS (c : Clock) : ℕ :=
  c.second

/-- The clock after `n` calls of `dts_net_sys_heartbeat`. -/
def heartbeats (w freq : ℕ) : ℕ → Clock
  | 0 => { tick := 0, second := 0 }
  | n + 1 => dtsNetSysHeartbeat w freq (heartbeats w freq n)

/-! ## What the clock reads -/

variable {w freq : ℕ}

theorem heartbeat_eq (c : Clock) :
    dtsNetSysHeartbeat w freq c =
      { tick := (c.tick + 1) % 2 ^ w, second := (c.tick + 1) % 2 ^ w / freq } := by
  unfold dtsNetSysHeartbeat
  by_cases hs : (c.tick + 1) % 2 ^ w / freq = c.second
  · simp [hs]
  · simp [hs]

theorem heartbeats_eq (w freq n : ℕ) :
    heartbeats w freq n = { tick := n % 2 ^ w, second := n % 2 ^ w / freq } := by
  induction n with
  | zero =>
      simp [heartbeats]
  | succ n ih =>
      rw [heartbeats, ih, heartbeat_eq]
      dsimp only
      rw [Nat.mod_add_mod]

theorem sysTickS_heartbeats (w freq n : ℕ) :
    sysTickS (heartbeats w freq n) = n % 2 ^ w / freq := by
  rw [heartbeats_eq, sysTickS]

/-! ## Wrapping before the division and behind it -/

section Wrap

variable {m F M : ℕ}

/-- Up to `F * M`, a remainder has the same quotient as long as it is the number itself, or both
quotients are zero. -/
theorem mod_div_eq_div_iff (hF : 1 ≤ F) (hM : 0 < M) : m % M / F = m / F ↔ m < max F M := by
  have hmod : m % M < M := Nat.mod_lt m hM
  constructor
  · intro heq
    by_contra hle
    rw [not_lt, max_le_iff] at hle
    have hsub : m % M + M ≤ m := by
      have hdiv : 1 ≤ m / M := (Nat.one_le_div_iff hM).2 hle.2
      have hsplit : M * (m / M) + m % M = m := Nat.div_add_mod m M
      have hmul : M * 1 ≤ M * (m / M) := Nat.mul_le_mul_left M hdiv
      omega
    rcases Nat.le_total F M with hFM | hMF
    · -- one round of the counter is a second at least
      have hstep : m % M / F + 1 ≤ m / F := by
        rw [← Nat.add_div_right _ hF]
        exact Nat.div_le_div_right (Nat.le_trans (Nat.add_le_add_left hFM _) hsub)
      omega
    · -- the counter never gets to the first second
      have hzero : m % M / F = 0 := Nat.div_eq_of_lt (Nat.lt_of_lt_of_le hmod hMF)
      have hone : 1 ≤ m / F := (Nat.one_le_div_iff hF).2 hle.1
      omega
  · intro hlt
    rcases lt_max_iff.1 hlt with hF | hM
    · rw [Nat.div_eq_of_lt hF, Nat.div_eq_of_lt (Nat.lt_of_le_of_lt (Nat.mod_le m M) hF)]
    · rw [Nat.mod_eq_of_lt hM]

theorem mod_div_eq_div_mod_iff (hF : 1 ≤ F) (hM : 0 < M) (n : ℕ) :
    n % M / F = n / F % M ↔ n % (F * M) < max F M := by
  have hquot : n / F % M = n % (F * M) / F := (Nat.mod_mul_right_div_self n F M).symm
  have hrem : n % M = n % (F * M) % M := (Nat.mod_mul_left_mod n F M).symm
  rw [hquot, hrem]
  exact mod_div_eq_div_iff hF hM

end Wrap

/-! ## Whether the clock keeps counting -/

/-- The seconds are those that have passed, as far as `w` bits hold them. -/
def Reads (w freq n : ℕ) : Prop :=
  sysTickS (heartbeats w freq n) = n / freq % 2 ^ w

instance (w freq n : ℕ) : Decidable (Reads w freq n) :=
  inferInstanceAs (Decidable (_ = _))

/-- Between two moments, the reading moves on by as many whole seconds as there are. -/
def Advances (w freq n n' : ℕ) : Prop :=
  sysTickS (heartbeats w freq n') ≡
    sysTickS (heartbeats w freq n) + (n' / freq - n / freq) [MOD 2 ^ w]

theorem reads_iff (hfreq : 1 ≤ freq) (n : ℕ) :
    Reads w freq n ↔ n % (freq * 2 ^ w) < max freq (2 ^ w) := by
  rw [Reads, sysTickS_heartbeats]
  exact mod_div_eq_div_mod_iff hfreq (Nat.two_pow_pos w) n

theorem Reads.advances {n n' : ℕ} (hn : Reads w freq n) (hn' : Reads w freq n') (hle : n ≤ n') :
    Advances w freq n n' := by
  have hdiv : n / freq ≤ n' / freq := Nat.div_le_div_right hle
  have hsum : n / freq + (n' / freq - n / freq) = n' / freq := Nat.add_sub_of_le hdiv
  calc
    sysTickS (heartbeats w freq n') ≡ n' / freq [MOD 2 ^ w] := by
      rw [hn']
      exact Nat.mod_modEq _ _
    _ = n / freq + (n' / freq - n / freq) := hsum.symm
    _ ≡ sysTickS (heartbeats w freq n) + (n' / freq - n / freq) [MOD 2 ^ w] := by
      rw [hn]
      exact (Nat.mod_modEq _ _).symm.add_right _

/-- The start of the clock is a moment as well. -/
theorem reads_of_advances {n : ℕ} (h : Advances w freq 0 n) : Reads w freq n := by
  have hlt : sysTickS (heartbeats w freq n) < 2 ^ w := by
    rw [sysTickS_heartbeats]
    exact Nat.lt_of_le_of_lt (Nat.div_le_self _ _) (Nat.mod_lt n (Nat.two_pow_pos w))
  have hstart : sysTickS (heartbeats w freq 0) = 0 := rfl
  rw [Advances, hstart, Nat.zero_div, Nat.zero_add, Nat.sub_zero, Nat.ModEq,
    Nat.mod_eq_of_lt hlt] at h
  exact h

/-- The clock is right after `n` calls just when `n`, within the last period of `freq * 2 ^ w`
calls, has not come to a full round of the counter yet, or to the first second.  With both of two
moments right so is the time between them, and all times up to a moment are right just when all
moments up to it are. -/
theorem sysTickS_iff (hfreq : 1 ≤ freq) :
    (∀ n, Reads w freq n ↔ n % (freq * 2 ^ w) < max freq (2 ^ w)) ∧
      (∀ n n', n ≤ n' → n % (freq * 2 ^ w) < max freq (2 ^ w) →
        n' % (freq * 2 ^ w) < max freq (2 ^ w) → Advances w freq n n') ∧
      ∀ last, (∀ n n', n ≤ n' → n' ≤ last → Advances w freq n n') ↔
        ∀ n, n ≤ last → n % (freq * 2 ^ w) < max freq (2 ^ w) := by
  refine ⟨reads_iff hfreq, fun n n' hle hn hn' => ?_, fun last => ⟨fun h n hn => ?_, ?_⟩⟩
  · exact ((reads_iff hfreq n).2 hn).advances ((reads_iff hfreq n').2 hn') hle
  -- the times are measured from the start as well
  · exact (reads_iff hfreq n).1 (reads_of_advances (h 0 n (Nat.zero_le n) hn))
  · intro h n n' hle hlast
    have hn : Reads w freq n := (reads_iff hfreq n).2 (h n (Nat.le_trans hle hlast))
    exact hn.advances ((reads_iff hfreq n').2 (h n' hlast)) hle

theorem sysTickS_sample : Reads 16 1000 65535 ∧ Advances 16 1000 2500 65535 :=
  ⟨((sysTickS_iff (by decide)).1 65535).2 (by decide),
    (sysTickS_iff (by decide)).2.1 2500 65535 (by decide) (by decide) (by decide)⟩

/-- With two heartbeats a second, the clock starts again at zero when the counter wraps. -/
theorem sysTickS_starts_again : ¬ Reads 32 2 (2 ^ 32) ∧ ¬ Advances 32 2 (2 ^ 32 - 2) (2 ^ 32) := by
  constructor
  · rw [Reads, sysTickS_heartbeats]
    decide
  · rw [Advances, sysTickS_heartbeats, sysTickS_heartbeats]
    decide

/-- One heartbeat a second, as configured, is the frequency that nothing is lost at. -/
theorem reads_of_one (n : ℕ) : Reads w 1 n := by
  rw [reads_iff (Nat.le_refl 1), Nat.one_mul]
  exact Nat.lt_of_lt_of_le (Nat.mod_lt n (Nat.two_pow_pos w)) (Nat.le_max_right 1 (2 ^ w))

/-! ## Initial sequence numbers -/

/-- The environment gives the reading of the clock as the time. -/
def Keeps (w freq n : ℕ) (env : Env) : Prop :=
  env.now = sysTickS (heartbeats w freq n)

/-- As long as the clock is right, `tcp_generate_isn` gives the seconds, in 32 bits. -/
theorem tcpGenerateIsn_of_reads {env : Env} {n : ℕ} (hw : 32 ≤ w) (hkeeps : Keeps w freq n env)
    (hreads : Reads w freq n) : tcpGenerateIsn env = UInt32.ofNat (n / freq) := by
  have hdvd : 2 ^ 32 ∣ 2 ^ w := Nat.pow_dvd_pow 2 hw
  have hmod : n / freq % 2 ^ w % 2 ^ 32 = n / freq % 2 ^ 32 := Nat.mod_mod_of_dvd _ hdvd
  rw [tcpGenerateIsn, hkeeps, hreads]
  exact UInt32.toNat.inj (by simpa using hmod)

/-- One round of the counter of the calls later, the same numbers are given again. -/
theorem tcpGenerateIsn_again {env env' : Env} {n : ℕ} (hkeeps : Keeps w freq n env)
    (hkeeps' : Keeps w freq (n + 2 ^ w) env') : tcpGenerateIsn env' = tcpGenerateIsn env := by
  rw [tcpGenerateIsn, tcpGenerateIsn, hkeeps, hkeeps', sysTickS_heartbeats, sysTickS_heartbeats,
    Nat.add_mod_right]

end Sys
end DtsNet
