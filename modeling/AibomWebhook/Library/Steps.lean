import Mathlib.Data.Option.Basic

/-! Runs of a step function whose moves may be refused, and may be made only where they are permitted. -/

namespace Steps

variable {σ μ : Type} (step : σ → μ → Option σ)

inductive Reaches (permitted : σ → μ → Prop) (start : σ) : σ → Prop where
  | start : Reaches permitted start start
  | step {state next : σ} {move : μ} (reached : Reaches permitted start state) (allowed : permitted state move)
      (moved : step state move = some next) : Reaches permitted start next

/-- A run of checked moves, as far as they can be made. -/
def checkedRun (check : σ → μ → Bool) (state : σ) : List μ → Option σ
  | [] => some state
  | move :: rest => if check state move then (step state move).bind fun next => checkedRun check next rest else none

variable {step} {permitted : σ → μ → Prop} {start state : σ}

/-- What holds at the start and is kept by permitted moves holds of every state reached. -/
theorem Reaches.invariant (holds : σ → Prop) (initial : holds start)
    (kept : ∀ state next move, holds state → permitted state move → step state move = some next → holds next)
    (reached : Reaches step permitted start state) : holds state := by
  induction reached with
  | start => exact initial
  | step _ allowed moved ih => exact kept _ _ _ ih allowed moved

theorem Reaches.trans {middle : σ} (first : Reaches step permitted start middle)
    (second : Reaches step permitted middle state) : Reaches step permitted start state := by
  induction second with
  | start => exact first
  | step _ allowed moved ih => exact .step ih allowed moved

/-- A checked run, where the check only lets permitted moves through. -/
theorem reaches_of_checkedRun {check : σ → μ → Bool} {moves : List μ}
    (sound : ∀ state move, check state move = true → permitted state move)
    (ran : checkedRun step check start moves = some state) : Reaches step permitted start state := by
  induction moves generalizing start with
  | nil =>
    obtain rfl := Option.some.inj ran
    exact .start
  | cons move rest ih =>
    simp only [checkedRun] at ran
    split at ran
    · rename_i checked
      obtain ⟨next, moved, later⟩ := Option.bind_eq_some_iff.mp ran
      exact (Reaches.step .start (sound start move checked) moved).trans (ih later)
    · exact absurd ran (by simp)

end Steps
