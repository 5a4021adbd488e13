/-!
Values that change step by step, where a step that fails changes nothing. Whatever is known of the
outcome of one step tells the outcomes of any number of them.
-/

namespace AccountTx.Stepping

variable {ε α σ : Type}

/-- The outcome of each step; a step that fails leaves the value as it was. -/
def trace (step : α → σ → Except ε α) (a : α) : List σ → List (Except ε α)
  | [] => []
  | s :: steps =>
      let outcome := step a s
      outcome :: trace step (outcome.toOption.getD a) steps

/-- The outcomes of steps, by a relation that tells the outcome of one. A step with a result is
followed by the others from this result on, and one without by the others from the same value. -/
inductive Runs (Gives : α → σ → Except ε α → Prop) : α → List σ → List (Except ε α) → Prop where
  | done {a : α} : Runs Gives a [] []
  | step {a b : α} {s : σ} {steps : List σ} {outcomes : List (Except ε α)} :
      Gives a s (.ok b) → Runs Gives b steps outcomes →
      Runs Gives a (s :: steps) (.ok b :: outcomes)
  | fault {a : α} {s : σ} {e : ε} {steps : List σ} {outcomes : List (Except ε α)} :
      Gives a s (.error e) → Runs Gives a steps outcomes →
      Runs Gives a (s :: steps) (.error e :: outcomes)

section

variable {step : α → σ → Except ε α} {Gives : α → σ → Except ε α → Prop} {a : α} {steps : List σ}
  {outcomes : List (Except ε α)}

theorem runs_trace (hstep : ∀ a s, Gives a s (step a s)) (a : α) (steps : List σ) :
    Runs Gives a steps (trace step a steps) := by
  induction steps generalizing a with
  | nil => exact .done
  | cons s steps ih =>
      have hgives := hstep a s
      rw [trace]
      cases happly : step a s with
      | ok b =>
          rw [happly] at hgives
          exact .step hgives (ih b)
      | error e =>
          rw [happly] at hgives
          exact .fault hgives (ih a)

theorem trace_of_runs (hstep : ∀ {a s outcome}, Gives a s outcome → step a s = outcome)
    (h : Runs Gives a steps outcomes) : trace step a steps = outcomes := by
  induction h with
  | done => rfl
  | step hgives _ ih =>
      rw [trace, hstep hgives]
      exact congrArg (_ :: ·) ih
  | fault hgives _ ih =>
      rw [trace, hstep hgives]
      exact congrArg (_ :: ·) ih

/-- If the relation tells the outcome of every step, it tells those of every run. -/
theorem trace_eq_iff (hstep : ∀ {a s outcome}, step a s = outcome ↔ Gives a s outcome) :
    trace step a steps = outcomes ↔ Runs Gives a steps outcomes := by
  constructor
  · rintro rfl
    exact runs_trace (fun _ _ => hstep.mp rfl) a steps
  · exact trace_of_runs hstep.mpr

end

end AccountTx.Stepping
