import AibomWebhook.Library.Keyed
import Mathlib.Data.List.Sort
import Mathlib.Data.Rat.Defs

/-! The values that Python's json module reads and writes, and what Python programs
make of them: equality, iteration, dictionaries, and the text of a value up to the
order of keys. -/

namespace PyValue

/-- A float is read back from its text as it was written. -/
inductive PyFloat where
  | nan
  | inf (negative : Bool)
  | negativeZero
  | finite (value : Rat)
  deriving DecidableEq, Repr

inductive Value where
  | none
  | bool (value : Bool)
  | int (value : Int)
  | float (value : PyFloat)
  | str (value : String)
  | list (items : List Value)
  | dict (entries : List (String × Value))

instance : Inhabited Value := ⟨.none⟩

/-! Values with the same text. -/

mutual

def Value.same : Value → Value → Bool
  | .none, .none => true
  | .bool first, .bool second => first = second
  | .int first, .int second => first = second
  | .float first, .float second => first = second
  | .str first, .str second => first = second
  | .list first, .list second => sameItems first second
  | .dict first, .dict second => sameEntries first second
  | _, _ => false

def sameItems : List Value → List Value → Bool
  | [], [] => true
  | first :: rest, second :: others => first.same second && sameItems rest others
  | _, _ => false

def sameEntries : List (String × Value) → List (String × Value) → Bool
  | [], [] => true
  | (key, first) :: rest, (other, second) :: others => key = other && first.same second && sameEntries rest others
  | _, _ => false

end

mutual

theorem same_iff (first second : Value) : first.same second = true ↔ first = second := by
  cases first with
  | list items =>
    cases second with
    | list others => simp [Value.same, sameItems_iff items others]
    | _ => simp [Value.same]
  | dict entries =>
    cases second with
    | dict others => simp [Value.same, sameEntries_iff entries others]
    | _ => simp [Value.same]
  | _ => cases second <;> simp [Value.same]

theorem sameItems_iff (first second : List Value) : sameItems first second = true ↔ first = second := by
  cases first with
  | nil => cases second <;> simp [sameItems]
  | cons item rest =>
    cases second with
    | nil => simp [sameItems]
    | cons other others => simp [sameItems, same_iff item other, sameItems_iff rest others]

theorem sameEntries_iff (first second : List (String × Value)) : sameEntries first second = true ↔ first = second := by
  cases first with
  | nil => cases second <;> simp [sameEntries]
  | cons entry rest =>
    obtain ⟨key, item⟩ := entry
    cases second with
    | nil => simp [sameEntries]
    | cons other others =>
      obtain ⟨otherKey, otherItem⟩ := other
      simp [sameEntries, same_iff item otherItem, sameEntries_iff rest others]

end

instance : DecidableEq Value := fun first second => decidable_of_iff _ (same_iff first second)

mutual

/-- The value with the entries of every dictionary in the order of their keys; `json.dumps`
with `sort_keys` gives two values the same text exactly if these are equal. -/
def Value.sorted : Value → Value
  | .list items => .list (sortedItems items)
  | .dict entries => .dict ((sortedEntries entries).insertionSort fun first second => first.1 ≤ second.1)
  | value => value

def sortedItems : List Value → List Value
  | [] => []
  | item :: rest => item.sorted :: sortedItems rest

def sortedEntries : List (String × Value) → List (String × Value)
  | [] => []
  | (key, item) :: rest => (key, item.sorted) :: sortedEntries rest

end

/-! Python's `==`. -/

/-- The number that a value is, if it is a finite one. -/
def Value.number : Value → Option Rat
  | .bool value => some (if value then 1 else 0)
  | .int value => some value
  | .float (.finite value) => some value
  | .float .negativeZero => some 0
  | _ => Option.none

mutual

def Value.eq : Value → Value → Bool
  | .none, .none => true
  | .float (.inf first), .float (.inf second) => first = second
  | .str first, .str second => first = second
  | .list first, .list second => eqItems first second
  | .dict first, .dict second => first.length = second.length && eqEntries first second
  | first, second =>
    match first.number, second.number with
    | some left, some right => left = right
    | _, _ => false

def eqItems : List Value → List Value → Bool
  | [], [] => true
  | first :: rest, second :: others => first.eq second && eqItems rest others
  | _, _ => false

def eqEntries : List (String × Value) → List (String × Value) → Bool
  | [], _ => true
  | (key, first) :: rest, others =>
    (match others.lookup key with
      | Option.none => false
      | some second => first.eq second) && eqEntries rest others

end

/-- Whether a condition takes the value for true. -/
def Value.truthy : Value → Bool
  | .none => false
  | .bool value => value
  | .int value => value != 0
  | .float (.finite value) => value != 0
  | .float .negativeZero => false
  | .float _ => true
  | .str value => value != ""
  | .list items => !items.isEmpty
  | .dict entries => !entries.isEmpty

/-- `value in items`. -/
def Value.isIn (value : Value) (items : List Value) : Bool := items.any value.eq

/-- What a `for` loop over a value goes through; over other values it raises. -/
def Value.iterate : Value → Option (List Value)
  | .str value => some (value.toList.map fun c => .str (String.singleton c))
  | .list items => some items
  | .dict entries => some (entries.map fun entry => .str entry.1)
  | _ => Option.none

/-! Dictionaries, in the order in which their keys came. -/

abbrev Dict := Keyed (Prod.fst : String × Value → String)

namespace Dict

def get? (key : String) (dict : Dict) : Option Value := (dict.find? key).map Prod.snd

def getD (key : String) (default : Value) (dict : Dict) : Value := (dict.get? key).getD default

def set (key : String) (value : Value) (dict : Dict) : Dict := dict.put (key, value)

def update (dict changes : Dict) : Dict := Keyed.putAll changes.items dict

end Dict

def Value.ofDict (dict : Dict) : Value := .dict dict.items

/-- The dictionary that a value is; of two entries with one key the later one counts. -/
def Value.asDict : Value → Option Dict
  | .dict entries => some (Keyed.ofList entries)
  | _ => Option.none

/-- `value[key]`. -/
def Value.item (key : String) (value : Value) : Option Value := value.asDict.bind (·.get? key)

section
variable {dict changes : Dict} {key other : String} {value : Value}

@[simp] theorem Dict.get?_set_self : (dict.set key value).get? key = some value := by
  simp [Dict.get?, Dict.set, Keyed.find?_put]

theorem Dict.get?_set_of_ne (different : key ≠ other) : (dict.set key value).get? other = dict.get? other := by
  simp [Dict.get?, Dict.set, Keyed.find?_put, different]

theorem Dict.get?_update : (dict.update changes).get? key = (changes.get? key).or (dict.get? key) := by
  rw [Dict.get?, Dict.update, Keyed.find?_putAll, Dict.get?, Dict.get?]
  cases changes.find? key <;> rfl

@[simp] theorem asDict_ofDict : (Value.ofDict dict).asDict = some dict := by
  simp [Value.ofDict, Value.asDict]

end

end PyValue
