import AibomWebhook.Library.PyValue

/-! Reading nested dictionaries. -/

namespace AibomWebhook

open PyValue

/-- `safe_get`. -/
def safeGet (default : Value) : Value → List String → Value
  | data, [] => if data.eq (.dict []) then default else data
  | data, key :: keys =>
    match data.asDict with
    | none => default
    | some entries => safeGet default (entries.getD key (.dict [])) keys

end AibomWebhook
