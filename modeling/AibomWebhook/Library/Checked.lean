import Mathlib.Data.Option.Basic

/-! A value that is computed once and kept with what was checked of it. -/

universe u

/-- What a computation that may fail has given, and a property of it. -/
structure Checked {α : Type u} (computed : Option α) (holds : α → Prop) where
  value : α
  given : computed = some value
  checked : holds value

namespace Checked
variable {α : Type u} {computed : Option α} {holds : α → Prop}

/-- It is enough to evaluate the computation and the property. -/
def of [DecidablePred holds] (evaluated : (computed.any fun value => decide (holds value)) = true) : Checked computed holds :=
  match computed, evaluated with
  | some value, evaluated => ⟨value, rfl, of_decide_eq_true evaluated⟩

end Checked
