import DtsNet.Library.Machine

/-!
# Answering — machines that answer

The step of such a machine gives the next state and an answer.  Two machines that take the same
events are compared by the lists of their answers.
-/

namespace Machine

variable {σ τ ε ω : Type*}

/-- The step without its answer. -/
def stateOf (step : σ → ε → σ × ω) (s : σ) (e : ε) : σ :=
  (step s e).1

/-- The answers to the events of a run. -/
def answers (step : σ → ε → σ × ω) : σ → List ε → List ω
  | _, [] => []
  | s, e :: es => (step s e).2 :: answers step (step s e).1 es

/-- Related states stay related and answer alike, as long as the events meet `C`. -/
theorem answers_eq_of_simulation {step : σ → ε → σ × ω} {step' : τ → ε → τ × ω}
    {R : σ → τ → Prop} {C : σ → ε → Prop}
    (hstep : ∀ s t e, R s t → C s e →
      R (step s e).1 (step' t e).1 ∧ (step s e).2 = (step' t e).2)
    {s : σ} {t : τ} {es : List ε} (hR : R s t) (hC : Along (stateOf step) C s es) :
    answers step s es = answers step' t es ∧
      R (run (stateOf step) s es) (run (stateOf step') t es) := by
  induction es generalizing s t with
  | nil =>
      exact ⟨rfl, hR⟩
  | cons e es ih =>
      obtain ⟨hnext, hanswer⟩ := hstep s t e hR hC.1
      obtain ⟨hanswers, hend⟩ := ih hnext hC.2
      exact ⟨congrArg₂ List.cons hanswer hanswers, hend⟩

end Machine
