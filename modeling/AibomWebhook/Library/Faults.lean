import AibomWebhook.Library.Program

/-! Programs that are killed between two requests, of a service that an outcome decides for each request. A program
runs as long as there are outcomes. -/

namespace Requests.Program

variable {I : Interface} {σ ω α β : Type} (serve : ω → σ → (request : I.Request) → I.Response request × σ)

/-- The state that is left, and the result with the outcomes that were not needed, unless the program was killed. -/
def under : Program I α → List ω → σ → σ × Option (α × List ω)
  | .done value, outcomes, state => (state, some (value, outcomes))
  | .call _ _, [], state => (state, none)
  | .call request next, outcome :: outcomes, state =>
    (next (serve outcome state request).1).under outcomes (serve outcome state request).2

/-- The requests that were served, each with its outcome. -/
def met : Program I α → List ω → σ → List (ω × I.Request)
  | .done _, _, _ => []
  | .call _ _, [], _ => []
  | .call request next, outcome :: outcomes, state =>
    (outcome, request) :: (next (serve outcome state request).1).met outcomes (serve outcome state request).2

variable {serve}

theorem under_bind (program : Program I α) (rest : α → Program I β) (outcomes : List ω) (state : σ) :
    (program >>= rest).under serve outcomes state =
      match program.under serve outcomes state with
      | (after, none) => (after, none)
      | (after, some (value, left)) => (rest value).under serve left after := by
  induction program generalizing outcomes state with
  | done value => rfl
  | call request next ih =>
    cases outcomes with
    | nil => rfl
    | cons outcome outcomes => exact ih _ outcomes _

theorem met_bind (program : Program I α) (rest : α → Program I β) (outcomes : List ω) (state : σ) :
    (program >>= rest).met serve outcomes state = program.met serve outcomes state ++
      match program.under serve outcomes state with
      | (_, none) => []
      | (after, some (value, left)) => (rest value).met serve left after := by
  induction program generalizing outcomes state with
  | done value => rfl
  | call request next ih =>
    cases outcomes with
    | nil => rfl
    | cons outcome outcomes => exact congrArg (List.cons _) (ih _ outcomes _)

/-- What every allowed request keeps of the state before it, a program of allowed requests keeps. -/
theorem Uses.under {allowed : I.Request → Prop} {kept : σ → σ → Prop} {program : Program I α}
    (uses : program.Uses allowed) (refl : ∀ state, kept state state)
    (trans : ∀ first second third, kept first second → kept second third → kept first third)
    (step : ∀ outcome state request, allowed request → kept state (serve outcome state request).2)
    (outcomes : List ω) (state : σ) : kept state (program.under serve outcomes state).1 := by
  induction program generalizing outcomes state with
  | done value => exact refl state
  | call request next ih =>
    cases outcomes with
    | nil => exact refl state
    | cons outcome outcomes =>
      exact trans _ _ _ (step outcome state request uses.1) (ih _ (uses.2 _) outcomes _)

end Requests.Program
