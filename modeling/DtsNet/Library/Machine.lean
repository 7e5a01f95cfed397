import Mathlib.Data.List.Basic
import Mathlib.Data.List.Induction

/-!
# Machine — deterministic machines driven by lists of events

A machine is a step function `σ → ε → σ`; everything that is not determined by the state
(inputs, outcomes of the environment) is part of the event.  This module defines

* `run`   : the state after a list of events,
* `Along` : a condition on (state before, event) that every step of a run meets,
* `tryRun`: the state after a list of events of a machine whose steps can fail,
* `TryAlong` : `Along` for such a machine,
* `trace`, `Lockstep` : what is seen of a run, and two runs side by side,

and the induction rules that turn a fact about one step into a fact about runs.
-/

namespace Machine

variable {σ ε : Type*} (step : σ → ε → σ)

/-! ## Runs -/

def run (s : σ) (es : List ε) : σ :=
  es.foldl step s

@[simp] theorem run_nil (s : σ) : run step s [] = s := rfl

@[simp] theorem run_cons (s : σ) (e : ε) (es : List ε) :
    run step s (e :: es) = run step (step s e) es := rfl

@[simp] theorem run_append (s : σ) (es fs : List ε) :
    run step s (es ++ fs) = run step (run step s es) fs := by
  simp [run, List.foldl_append]

/-! ## Conditions met along a run -/

/-- Every event of the run is taken in a state with which it satisfies `C`. -/
def Along (C : σ → ε → Prop) : σ → List ε → Prop
  | _, [] => True
  | s, e :: es => C s e ∧ Along C (step s e) es

@[simp] theorem along_nil (C : σ → ε → Prop) (s : σ) : Along step C s [] := trivial

@[simp] theorem along_cons (C : σ → ε → Prop) (s : σ) (e : ε) (es : List ε) :
    Along step C s (e :: es) ↔ C s e ∧ Along step C (step s e) es := Iff.rfl

theorem along_append (C : σ → ε → Prop) (s : σ) (es fs : List ε) :
    Along step C s (es ++ fs) ↔ Along step C s es ∧ Along step C (run step s es) fs := by
  induction es generalizing s with
  | nil =>
      simp
  | cons e es ih =>
      simp [ih, and_assoc]

instance Along.decidable {C : σ → ε → Prop} [∀ s e, Decidable (C s e)] :
    ∀ (s : σ) (es : List ε), Decidable (Along step C s es)
  | _, [] => isTrue trivial
  | s, e :: es =>
      haveI : Decidable (Along step C (step s e) es) := Along.decidable (step s e) es
      inferInstanceAs (Decidable (C s e ∧ Along step C (step s e) es))

theorem Along.mono {C D : σ → ε → Prop} (hCD : ∀ s e, C s e → D s e) {s : σ} {es : List ε}
    (h : Along step C s es) : Along step D s es := by
  induction es generalizing s with
  | nil =>
      trivial
  | cons e es ih =>
      exact ⟨hCD _ _ h.1, ih h.2⟩

theorem Along.and {C D : σ → ε → Prop} {s : σ} {es : List ε}
    (hC : Along step C s es) (hD : Along step D s es) :
    Along step (fun s e => C s e ∧ D s e) s es := by
  induction es generalizing s with
  | nil =>
      trivial
  | cons e es ih =>
      exact ⟨⟨hC.1, hD.1⟩, ih hC.2 hD.2⟩

theorem along_of_forall {P : ε → Prop} {s : σ} {es : List ε} (h : ∀ e ∈ es, P e) :
    Along step (fun _ e => P e) s es := by
  induction es generalizing s with
  | nil =>
      trivial
  | cons e es ih =>
      exact ⟨h e (by simp), ih fun e' he' => h e' (by simp [he'])⟩

/-- What holds along a run, seen from its prefixes. -/
theorem along_iff_prefixes {C : σ → ε → Prop} {s : σ} {es : List ε} :
    Along step C s es ↔ ∀ pre e, pre ++ [e] <+: es → C (run step s pre) e := by
  constructor
  · rintro h pre e ⟨post, rfl⟩
    rw [along_append, along_append] at h
    exact h.1.2.1
  · intro h
    induction es generalizing s with
    | nil =>
        trivial
    | cons e es ih =>
        refine ⟨h [] e ⟨es, rfl⟩, ih ?_⟩
        intro pre e' hpre
        exact h (e :: pre) e' (List.cons_prefix_cons.2 ⟨rfl, hpre⟩)

/-- Two conditions that agree within an invariant, which the second of them keeps. -/
theorem along_iff_of_invariant {C D P : σ → ε → Prop} {I : σ → Prop}
    (hiff : ∀ s e, I s → P s e → (C s e ↔ D s e))
    (hstep : ∀ s e, I s → P s e → D s e → I (step s e)) {s : σ} {es : List ε}
    (hs : I s) (hP : Along step P s es) : Along step C s es ↔ Along step D s es := by
  induction es generalizing s with
  | nil =>
      exact Iff.rfl
  | cons e es ih =>
      rw [along_cons, along_cons, hiff s e hs hP.1]
      exact and_congr_right fun hD => ih (hstep s e hs hP.1 hD) hP.2

/-! ## Invariants -/

/-- What every allowed step preserves holds at the end of every allowed run. -/
theorem run_invariant {C : σ → ε → Prop} {I : σ → Prop}
    (hstep : ∀ s e, I s → C s e → I (step s e)) {s : σ} {es : List ε}
    (hs : I s) (h : Along step C s es) : I (run step s es) := by
  induction es generalizing s with
  | nil =>
      exact hs
  | cons e es ih =>
      exact ih (hstep s e hs h.1) h.2

/-- What every step preserves holds at the end of every run. -/
theorem run_preserves {I : σ → Prop} (hstep : ∀ s e, I s → I (step s e)) {s : σ} (hs : I s)
    (es : List ε) : I (run step s es) := by
  induction es generalizing s with
  | nil =>
      exact hs
  | cons e es ih =>
      exact ih (hstep s e hs)

/-- As `run_invariant`, for a measure of the final state that only grows along the run: a bound
on its final value is available at every step. -/
theorem run_invariant_of_le {C : σ → ε → Prop} {I : σ → Prop} {m : σ → ℕ} {N : ℕ}
    (hm : ∀ s e, C s e → m s ≤ m (step s e))
    (hstep : ∀ s e, I s → C s e → m (step s e) ≤ N → I (step s e)) {s : σ} {es : List ε}
    (hs : I s) (h : Along step C s es) (hN : m (run step s es) ≤ N) : I (run step s es) := by
  have hle : ∀ (es : List ε) (s : σ), Along step C s es → m s ≤ m (run step s es) := by
    intro es
    induction es with
    | nil =>
        intro s _
        exact Nat.le_refl _
    | cons e es ih =>
        intro s h
        exact Nat.le_trans (hm s e h.1) (ih _ h.2)
  induction es generalizing s with
  | nil =>
      exact hs
  | cons e es ih =>
      exact ih (hstep s e hs h.1 (Nat.le_trans (hle es _ h.2) hN)) h.2 hN

/-- What is kept by going one step back holds along every run at whose end it holds. -/
theorem of_run_back {B : σ → Prop} (hback : ∀ s e, B (step s e) → B s) {s : σ} {es : List ε}
    (h : B (run step s es)) : B s := by
  induction es generalizing s with
  | nil =>
      exact h
  | cons e es ih =>
      exact hback s e (ih h)

/-- As `run_invariant`, for an invariant that is kept on the way to certain states only. -/
theorem run_invariant_of_back {C : σ → ε → Prop} {I B : σ → Prop}
    (hback : ∀ s e, B (step s e) → B s) (hstep : ∀ s e, I s → C s e → B (step s e) → I (step s e))
    {s : σ} {es : List ε} (hs : I s) (h : Along step C s es) (hB : B (run step s es)) :
    I (run step s es) := by
  induction es generalizing s with
  | nil =>
      exact hs
  | cons e es ih =>
      exact ih (hstep s e hs h.1 (of_run_back step hback hB)) h.2 hB

/-! ## Two runs side by side -/

/-- What is seen of the states after every event of a run. -/
def trace {α : Type*} (obs : σ → α) : σ → List ε → List α
  | _, [] => []
  | s, e :: es => obs (step s e) :: trace obs (step s e) es

/-- Two runs of the same length whose events are related, in the states they are taken in. -/
def Lockstep (M : σ → σ → ε → ε → Prop) : σ → σ → List ε → List ε → Prop
  | _, _, [], [] => True
  | s, t, e :: es, f :: fs => M s t e f ∧ Lockstep M (step s e) (step t f) es fs
  | _, _, _, _ => False

/-- A relation between the states that related events keep, and that shows nothing of the
difference, makes the two runs look alike. -/
theorem trace_eq_of_lockstep {α : Type*} {obs : σ → α} {M : σ → σ → ε → ε → Prop}
    {C : σ → ε → Prop} {R : σ → σ → Prop}
    (hstep : ∀ s t e f, R s t → M s t e f → C s e → C t f → R (step s e) (step t f))
    (hobs : ∀ s t, R s t → obs s = obs t) {s t : σ} {es fs : List ε} (hR : R s t)
    (hM : Lockstep step M s t es fs) (hs : Along step C s es) (ht : Along step C t fs) :
    trace step obs s es = trace step obs t fs := by
  induction es generalizing s t fs with
  | nil =>
      cases fs with
      | nil =>
          rfl
      | cons f fs =>
          exact hM.elim
  | cons e es ih =>
      cases fs with
      | nil =>
          exact hM.elim
      | cons f fs =>
          have hR' := hstep s t e f hR hM.1 hs.1 ht.1
          rw [trace, trace, hobs _ _ hR', ih hR' hM.2 hs.2 ht.2]

/-- A relation between the states of two machines that related events keep. -/
theorem run_related {τ δ : Type*} {step : σ → ε → σ} {step' : τ → δ → τ} {M : ε → δ → Prop}
    {C : σ → ε → Prop} {D : τ → δ → Prop} {R : σ → τ → Prop}
    (hstep : ∀ s t e f, R s t → M e f → C s e → D t f → R (step s e) (step' t f))
    {s : σ} {t : τ} {es : List ε} {fs : List δ} (hR : R s t) (hM : List.Forall₂ M es fs)
    (hC : Along step C s es) (hD : Along step' D t fs) :
    R (run step s es) (run step' t fs) := by
  induction hM generalizing s t with
  | nil =>
      exact hR
  | cons hef _ ih =>
      exact ih (hstep s t _ _ hR hef hC.1 hD.1) hC.2 hD.2

/-! ## Machines that can fail -/

/-- `none` once a step has failed. -/
def tryRun (tryStep : σ → ε → Option σ) (s : σ) (es : List ε) : Option σ :=
  es.foldlM tryStep s

@[simp] theorem tryRun_nil (tryStep : σ → ε → Option σ) (s : σ) :
    tryRun tryStep s [] = some s := rfl

@[simp] theorem tryRun_cons (tryStep : σ → ε → Option σ) (s : σ) (e : ε) (es : List ε) :
    tryRun tryStep s (e :: es) = (tryStep s e).bind fun s => tryRun tryStep s es := by
  simp [tryRun, List.foldlM_cons, bind]

theorem tryRun_append (tryStep : σ → ε → Option σ) (s : σ) (es fs : List ε) :
    tryRun tryStep s (es ++ fs) = (tryRun tryStep s es).bind fun s => tryRun tryStep s fs := by
  simp [tryRun, List.foldlM_append, bind]

/-- If, within an invariant, a step fails exactly where `C` does not hold, and is the step of the
total machine otherwise, then a run succeeds exactly if `C` holds along it. -/
theorem tryRun_eq_some_iff {tryStep : σ → ε → Option σ} {C D : σ → ε → Prop} {I : σ → Prop}
    (hstep : ∀ s e, I s → D s e → I (step s e))
    (hok : ∀ s e, I s → C s e → tryStep s e = some (step s e))
    (hfail : ∀ s e, I s → ¬ C s e → tryStep s e = none) {s : σ} {es : List ε}
    (hs : I s) (h : Along step D s es) :
    tryRun tryStep s es = some (run step s es) ↔ Along step C s es := by
  induction es generalizing s with
  | nil =>
      simp
  | cons e es ih =>
      by_cases hC : C s e
      · simpa [hok s e hs hC, hC] using ih (hstep s e hs h.1) h.2
      · simp [hfail s e hs hC, hC]

/-- Every event of the run, up to the one that fails, is taken in a state with which it satisfies
`C`. -/
def TryAlong (tryStep : σ → ε → Option σ) (C : σ → ε → Prop) : σ → List ε → Prop
  | _, [] => True
  | s, e :: es => C s e ∧ ∀ s', tryStep s e = some s' → TryAlong tryStep C s' es

instance TryAlong.decidable {tryStep : σ → ε → Option σ} {C : σ → ε → Prop}
    [∀ s e, Decidable (C s e)] : ∀ (s : σ) (es : List ε), Decidable (TryAlong tryStep C s es)
  | _, [] => isTrue trivial
  | s, e :: es =>
      match he : tryStep s e with
      | none => decidable_of_iff (C s e) (by simp [TryAlong, he])
      | some t =>
          haveI : Decidable (TryAlong tryStep C t es) := TryAlong.decidable t es
          decidable_of_iff (C s e ∧ TryAlong tryStep C t es) (by simp [TryAlong, he])

theorem TryAlong.and {tryStep : σ → ε → Option σ} {C D : σ → ε → Prop} {s : σ} {es : List ε}
    (hC : TryAlong tryStep C s es) (hD : TryAlong tryStep D s es) :
    TryAlong tryStep (fun s e => C s e ∧ D s e) s es := by
  induction es generalizing s with
  | nil =>
      trivial
  | cons e es ih =>
      exact ⟨⟨hC.1, hD.1⟩, fun t he => ih (hC.2 t he) (hD.2 t he)⟩

theorem tryAlong_of_forall {tryStep : σ → ε → Option σ} {P : ε → Prop} {s : σ} {es : List ε}
    (h : ∀ e ∈ es, P e) : TryAlong tryStep (fun _ e => P e) s es := by
  induction es generalizing s with
  | nil =>
      trivial
  | cons e es ih =>
      exact ⟨h e (by simp), fun t _ => ih fun e' he' => h e' (by simp [he'])⟩

theorem tryAlong_mono {tryStep : σ → ε → Option σ} {C D : σ → ε → Prop}
    (hCD : ∀ s e, C s e → D s e) {s : σ} {es : List ε} (h : TryAlong tryStep C s es) :
    TryAlong tryStep D s es := by
  induction es generalizing s with
  | nil =>
      trivial
  | cons e es ih =>
      exact ⟨hCD s e h.1, fun t he => ih (h.2 t he)⟩

/-- What every allowed step that returns preserves holds at the end of every allowed run. -/
theorem tryRun_invariant_of_along {tryStep : σ → ε → Option σ} {C : σ → ε → Prop} {I : σ → Prop}
    (hstep : ∀ s e s', I s → C s e → tryStep s e = some s' → I s') {s s' : σ} {es : List ε}
    (hs : I s) (hC : TryAlong tryStep C s es) (h : tryRun tryStep s es = some s') : I s' := by
  induction es generalizing s with
  | nil =>
      cases h
      exact hs
  | cons e es ih =>
      rw [tryRun_cons, Option.bind_eq_some_iff] at h
      rcases h with ⟨t, he, ht⟩
      exact ih (hstep s e t hs hC.1 he) (hC.2 t he) ht

/-- What every step that returns preserves holds at the end of every run. -/
theorem tryRun_invariant {tryStep : σ → ε → Option σ} {I : σ → Prop}
    (hstep : ∀ s e s', I s → tryStep s e = some s' → I s') {s s' : σ} {es : List ε} (hs : I s)
    (h : tryRun tryStep s es = some s') : I s' := by
  have htrue : TryAlong tryStep (fun _ _ => True) s es :=
    tryAlong_of_forall (P := fun _ => True) fun _ _ => trivial
  exact tryRun_invariant_of_along (fun s e s' hI _ => hstep s e s' hI) hs htrue h

/-- If, under the assumption `D`, a step keeps `J` where `C` holds and leaves it where `C` does not
hold, then `J` holds in every state of a run exactly if `C` holds along it. -/
theorem forall_prefix_iff_tryAlong {tryStep : σ → ε → Option σ} {C D : σ → ε → Prop}
    {I J : σ → Prop} (hinv : ∀ s e s', I s → tryStep s e = some s' → I s')
    (hkeep : ∀ s e s', I s → J s → D s e → C s e → tryStep s e = some s' → J s')
    (hleave : ∀ s e, I s → J s → D s e → ¬ C s e → ∃ s', tryStep s e = some s' ∧ ¬ J s')
    {s : σ} {es : List ε} (hs : I s) (hJ : J s) (hD : TryAlong tryStep D s es) :
    (∀ pre s', pre <+: es → tryRun tryStep s pre = some s' → J s') ↔ TryAlong tryStep C s es := by
  induction es generalizing s with
  | nil =>
      refine ⟨fun _ => trivial, fun _ pre s' hpre hrun => ?_⟩
      rw [List.prefix_nil.1 hpre] at hrun
      cases hrun
      exact hJ
  | cons e es ih =>
      constructor
      · intro h
        have hC : C s e := by
          by_contra hC
          rcases hleave s e hs hJ hD.1 hC with ⟨s', he, hs'⟩
          exact hs' (h [e] s' (by simp) (by simp [he]))
        refine ⟨hC, fun t he => ?_⟩
        refine (ih (hinv s e t hs he) (hkeep s e t hs hJ hD.1 hC he) (hD.2 t he)).1 ?_
        intro pre s' hpre hrun
        exact h (e :: pre) s' (by simpa using hpre) (by simpa [he] using hrun)
      · rintro ⟨hC, hrest⟩ pre s' hpre hrun
        cases pre with
        | nil =>
            cases hrun
            exact hJ
        | cons e' pre =>
            rcases List.cons_prefix_cons.1 hpre with ⟨rfl, htail⟩
            rw [tryRun_cons, Option.bind_eq_some_iff] at hrun
            rcases hrun with ⟨t, he, ht⟩
            exact (ih (hinv s e' t hs he) (hkeep s e' t hs hJ hD.1 hC he) (hD.2 t he)).2
              (hrest t he) pre s' htail ht

/-! ## A part of the state -/

/-- What the events of a run are for one part of the state. -/
def labels {δ : Type*} (tryStep : σ → ε → Option σ) (label : σ → ε → Option δ) :
    σ → List ε → List δ
  | _, [] => []
  | s, e :: es => (label s e).toList ++ (tryStep s e).elim [] fun s => labels tryStep label s es

theorem labels_append {δ : Type*} (tryStep : σ → ε → Option σ) (label : σ → ε → Option δ) {s t : σ}
    {es : List ε} (h : tryRun tryStep s es = some t) (fs : List ε) :
    labels tryStep label s (es ++ fs) = labels tryStep label s es ++ labels tryStep label t fs := by
  induction es generalizing s with
  | nil =>
      cases h
      rfl
  | cons e es ih =>
      rw [tryRun_cons, Option.bind_eq_some_iff] at h
      rcases h with ⟨s', he, hrest⟩
      simp [labels, he, ih hrest]

/-- A part of the state that is there at the end of a run and was not at its start was made by an event
of the run, and has since then taken part in the others as its own machine would. -/
theorem tryRun_part {α δ : Type*} {tryStep : σ → ε → Option σ} {label : σ → ε → Option δ}
    {V : σ → Option α} {act : α → δ → α} {M : σ → ε → α → Prop} {I : σ → Prop}
    (hinv : ∀ s e s', I s → tryStep s e = some s' → I s')
    (hstep : ∀ s e s' a a', I s → tryStep s e = some s' → V s = some a → V s' = some a' →
      a' = run act a (label s e).toList)
    (hmade : ∀ s e s' a, I s → tryStep s e = some s' → V s = none → V s' = some a → M s e a)
    {s s' : σ} {es : List ε} {a : α} (hs : I s) (hnone : V s = none)
    (hrun : tryRun tryStep s es = some s') (ha : V s' = some a) :
    ∃ pre e post t t' a₀, es = pre ++ e :: post ∧ tryRun tryStep s pre = some t ∧
      tryStep t e = some t' ∧ V t' = some a₀ ∧ M t e a₀ ∧ tryRun tryStep t' post = some s' ∧
      a = run act a₀ (labels tryStep label t' post) := by
  induction es using List.reverseRecOn generalizing s' a with
  | nil =>
      cases hrun
      rw [hnone] at ha
      cases ha
  | append_singleton es e ih =>
      rw [tryRun_append, Option.bind_eq_some_iff] at hrun
      rcases hrun with ⟨u, hu, hlast⟩
      have hlast : tryStep u e = some s' := by simpa using hlast
      have hI : I u := tryRun_invariant hinv hs hu
      cases hview : V u with
      | none =>
          exact ⟨es, e, [], u, s', a, rfl, hu, hlast, ha, hmade u e s' a hI hlast hview ha, rfl, rfl⟩
      | some b =>
          rcases ih hu hview with ⟨pre, e', post, t, t', a₀, rfl, ht, he, hafter, ha₀, hpost, rfl⟩
          refine ⟨pre, e', post ++ [e], t, t', a₀, by simp, ht, he, hafter, ha₀, ?_, ?_⟩
          · rw [tryRun_append, hpost]
            simpa using hlast
          · rw [hstep u e s' _ a hI hlast hview ha, labels_append tryStep label hpost, run_append]
            simp [labels, hlast]

/-! ## The last time a set of states is left -/

/-- A run that starts inside `I` and ends outside has a last step that leaves `I`. -/
theorem exists_last_leave {I : σ → Prop} {s : σ} {es : List ε} (hs : I s)
    (h : ¬ I (run step s es)) :
    ∃ pre e post, es = pre ++ e :: post ∧ I (run step s pre) ∧
      ∀ p, p <+: post → ¬ I (run step s (pre ++ e :: p)) := by
  induction es using List.reverseRecOn with
  | nil =>
      exact absurd hs h
  | append_singleton es e ih =>
      by_cases hes : I (run step s es)
      · refine ⟨es, e, [], rfl, hes, ?_⟩
        intro p hp
        rw [List.prefix_nil.1 hp]
        exact h
      · rcases ih hes with ⟨pre, e', post, rfl, hpre, hpost⟩
        refine ⟨pre, e', post ++ [e], by simp, hpre, ?_⟩
        intro p hp
        rcases List.prefix_concat_iff.1 hp with rfl | hp
        · simpa using h
        · exact hpost p hp

/-! ## Machines with more in their state -/

section Project

variable {ρ : Type*} {step} {step' : ρ → ε → ρ} {f : σ → ρ}

/-- Where `f` takes every step of the one machine to the same step of the other, it does so with
runs. -/
theorem run_project (hf : ∀ s e, f (step s e) = step' (f s) e) (s : σ) (es : List ε) :
    f (run step s es) = run step' (f s) es := by
  induction es generalizing s with
  | nil =>
      rfl
  | cons e es ih =>
      rw [run_cons, run_cons, ih, hf]

theorem along_project (hf : ∀ s e, f (step s e) = step' (f s) e) {C : ρ → ε → Prop} {s : σ}
    {es : List ε} (h : Along step (fun s e => C (f s) e) s es) : Along step' C (f s) es := by
  induction es generalizing s with
  | nil =>
      trivial
  | cons e es ih =>
      refine ⟨h.1, ?_⟩
      rw [← hf]
      exact ih h.2

end Project

/-! ## Runs that lead somewhere -/

/-- If from every state of an invariant whose measure is positive some allowed run leads to a state
of the invariant with a smaller measure, then some allowed run leads to measure zero. -/
theorem exists_run_of_measure {C : σ → ε → Prop} {I : σ → Prop} {m : σ → ℕ}
    (hround : ∀ s, I s → 0 < m s →
      ∃ es, Along step C s es ∧ I (run step s es) ∧ m (run step s es) < m s) {s : σ} (hs : I s) :
    ∃ es, Along step C s es ∧ I (run step s es) ∧ m (run step s es) = 0 := by
  induction hn : m s using Nat.strongRecOn generalizing s with
  | ind n ih =>
      subst hn
      rcases Nat.eq_zero_or_pos (m s) with h0 | hpos
      · exact ⟨[], trivial, hs, h0⟩
      · rcases hround s hs hpos with ⟨es, hes, hI, hlt⟩
        rcases ih _ hlt hI rfl with ⟨fs, hfs, hI', h0⟩
        refine ⟨es ++ fs, (along_append step C s es fs).2 ⟨hes, hfs⟩, ?_, ?_⟩
        · rw [run_append]
          exact hI'
        · rw [run_append]
          exact h0

end Machine
