import Mathlib.Tactic.Common
import Mathlib.Logic.Function.Basic

/-! JSON values, JSON Pointer (RFC 6901) and JSON Patch (RFC 6902). The members
of an object form a function, so that no object has two members of one name. -/

namespace JsonPatch

inductive Json where
  | null
  | bool (value : Bool)
  | number (value : Int)
  | text (value : String)
  | arr (items : List Json)
  | obj (members : String → Option Json)

abbrev Fields := String → Option Json

/-- No members at all. -/
def noFields : Fields := fun _ => none

/-- An object whose named members are listed, an absent one as `none`; every
other member is taken from `others`. -/
def Json.record (members : List (String × Option Json)) (others : Fields) : Json :=
  .obj (fun name => (members.lookup name).getD (others name))

def Json.member (name : String) : Json → Option Json
  | .obj members => members name
  | _ => none

def Json.items : Json → List Json
  | .arr items => items
  | _ => []

def Json.string : Json → String
  | .text value => value
  | _ => ""

/-! JSON Pointer. -/

/-- The pieces of a text between its slashes. -/
def segments : List Char → List (List Char)
  | [] => [[]]
  | c :: rest =>
    if c = '/' then [] :: segments rest
    else (c :: (segments rest).headD []) :: (segments rest).tail

def unescape : List Char → List Char
  | '~' :: '1' :: rest => '/' :: unescape rest
  | '~' :: '0' :: rest => '~' :: unescape rest
  | c :: rest => c :: unescape rest
  | [] => []

def pointer (path : String) : Option (List String) :=
  match segments path.toList with
  | [] :: tokens => some (tokens.map (fun token => String.ofList (unescape token)))
  | _ => none

/-- An array index is written in decimal without leading zeros. -/
def arrayIndex (token : String) : Option Nat :=
  if (Nat.ofDigitChars 10 token.toList 0).repr = token then some (Nat.ofDigitChars 10 token.toList 0) else none

@[simp] theorem arrayIndex_repr (n : Nat) : arrayIndex n.repr = some n := by
  simp [arrayIndex, Nat.toList_repr]

theorem segments_ne_nil (text : List Char) : segments text ≠ [] := by
  cases text with
  | nil => simp [segments]
  | cons c rest =>
    simp only [segments]
    split <;> simp

theorem segments_append_slash (left right : List Char) :
    segments (left ++ '/' :: right) = segments left ++ segments right := by
  induction left with
  | nil => rfl
  | cons c rest ih =>
    simp only [List.cons_append, segments, ih]
    by_cases slash : c = '/'
    · simp only [slash, if_true, List.cons_append]
    · rcases cut : segments rest with _ | ⟨head, tail⟩
      · exact absurd cut (segments_ne_nil rest)
      · simp [slash]

theorem segments_of_not_mem (text : List Char) (clean : '/' ∉ text) : segments text = [text] := by
  induction text with
  | nil => rfl
  | cons c rest ih =>
    have other : c ≠ '/' := fun same => clean (same ▸ List.mem_cons_self)
    simp [segments, other, ih (fun found => clean (List.mem_cons_of_mem c found))]

theorem unescape_of_not_mem (text : List Char) (clean : '~' ∉ text) : unescape text = text := by
  induction text with
  | nil => rfl
  | cons c rest ih =>
    have other : c ≠ '~' := fun same => clean (same ▸ List.mem_cons_self)
    have step : unescape (c :: rest) = c :: unescape rest := by
      rw [unescape] <;> (intros; simp_all)
    rw [step, ih (fun found => clean (List.mem_cons_of_mem c found))]

/-- A token without slashes and tildes stands for itself at the end of a pointer. -/
theorem pointer_child {path token : String} {tokens : List String} (parent : pointer path = some tokens)
    (noSlash : '/' ∉ token.toList) (noTilde : '~' ∉ token.toList) :
    pointer (path ++ "/" ++ token) = some (tokens ++ [token]) := by
  have cut : segments (path ++ "/" ++ token).toList = segments path.toList ++ [token.toList] := by
    have chars : (path ++ "/" ++ token).toList = path.toList ++ '/' :: token.toList := by simp
    rw [chars, segments_append_slash, segments_of_not_mem _ noSlash]
  rw [pointer] at parent
  rw [pointer, cut]
  split at parent
  · rename_i pieces first
    obtain rfl := Option.some.inj parent
    simp [first, unescape_of_not_mem _ noTilde]
  · simp at parent

theorem digit_ne {n : Nat} {c : Char} (digit : c ∈ n.repr.toList) : c ≠ '/' ∧ c ≠ '~' := by
  rw [Nat.toList_repr] at digit
  have range := Nat.isDigit_of_mem_toDigits (by decide) (by decide) digit
  constructor
  · rintro rfl
    exact absurd range (by decide)
  · rintro rfl
    exact absurd range (by decide)

/-- A decimal index stands for itself at the end of a pointer. -/
theorem pointer_index {path : String} {tokens : List String} (parent : pointer path = some tokens) (n : Nat) :
    pointer (path ++ "/" ++ n.repr) = some (tokens ++ [n.repr]) :=
  pointer_child parent (fun found => (digit_ne found).1 rfl) (fun found => (digit_ne found).2 rfl)

/-! JSON Patch. -/

/-- Edit the value that a list of pointer tokens leads to. -/
def Json.within (edit : Json → Option Json) : List String → Json → Option Json
  | [], json => edit json
  | token :: rest, .obj members =>
    match members token with
    | none => none
    | some inner => (inner.within edit rest).map fun changed => .obj (Function.update members token (some changed))
  | token :: rest, .arr items =>
    match arrayIndex token with
    | none => none
    | some index => match items[index]? with
      | none => none
      | some inner => (inner.within edit rest).map fun changed => .arr (items.set index changed)
  | _ :: _, _ => none

inductive Verb where
  | add
  | remove
  | replace
  deriving DecidableEq, Repr

/-- One operation on the last token of its path, at the value that holds it. -/
def Json.edge (verb : Verb) (value : Option Json) (token : String) : Json → Option Json
  | .obj members =>
    match verb, value, members token with
    | .add, some value, _ => some (.obj (Function.update members token (some value)))
    | .remove, _, some _ => some (.obj (Function.update members token none))
    | .replace, some value, some _ => some (.obj (Function.update members token (some value)))
    | _, _, _ => none
  | .arr items =>
    match verb, value with
    | .add, some value =>
      if token = "-" then some (.arr (items ++ [value]))
      else match arrayIndex token with
        | some index => if index ≤ items.length then some (.arr (items.insertIdx index value)) else none
        | none => none
    | .remove, _ =>
      match arrayIndex token with
      | some index => if index < items.length then some (.arr (items.eraseIdx index)) else none
      | none => none
    | .replace, some value =>
      match arrayIndex token with
      | some index => if index < items.length then some (.arr (items.set index value)) else none
      | none => none
    | _, none => none
  | _ => none

/-- One operation at a parsed path. The whole document can be added or replaced, not removed. -/
def Json.operate (verb : Verb) (value : Option Json) (tokens : List String) (json : Json) : Option Json :=
  match tokens.getLast? with
  | none => if verb = .remove then none else value
  | some token => json.within (Json.edge verb value token) tokens.dropLast

structure Operation where
  verb : Verb
  path : String
  value : Option Json

def Operation.apply (operation : Operation) (json : Json) : Option Json :=
  (pointer operation.path).bind fun tokens => json.operate operation.verb operation.value tokens

/-- The operations of a patch apply in order, and one that fails fails the patch. -/
def applyPatch : List Operation → Json → Option Json
  | [], json => some json
  | operation :: rest, json => (operation.apply json).bind (applyPatch rest)

@[simp] theorem applyPatch_nil (json : Json) : applyPatch [] json = some json := rfl

theorem applyPatch_append (first second : List Operation) (json : Json) :
    applyPatch (first ++ second) json = (applyPatch first json).bind (applyPatch second) := by
  induction first generalizing json with
  | nil => rfl
  | cons operation rest ih =>
    simp only [List.cons_append, applyPatch]
    cases operation.apply json with
    | none => rfl
    | some changed => exact ih changed

theorem operate_append (verb : Verb) (value : Option Json) (outer : List String) (token : String) (json : Json) :
    json.operate verb value (outer ++ [token]) = json.within (Json.edge verb value token) outer := by
  simp [Json.operate]

/-- Give one listed member a new value. -/
def setMember (name : String) (value : Option Json) (members : List (String × Option Json)) :
    List (String × Option Json) :=
  members.map fun entry => if entry.1 = name then (name, value) else entry

theorem lookup_setMember_self {name : String} {value old : Option Json} {members : List (String × Option Json)}
    (listed : members.lookup name = some old) : (setMember name value members).lookup name = some value := by
  induction members with
  | nil => simp at listed
  | cons entry rest ih =>
    rcases entry with ⟨first, kept⟩
    by_cases same : first = name
    · simp [setMember, same]
    · simp only [List.lookup_cons, beq_eq_false_iff_ne.mpr (Ne.symm same)] at listed
      simpa only [setMember, List.map_cons, same, if_false, List.lookup_cons,
        beq_eq_false_iff_ne.mpr (Ne.symm same)] using ih listed

theorem lookup_setMember_of_ne {name other : String} (different : other ≠ name) (value : Option Json)
    (members : List (String × Option Json)) :
    (setMember name value members).lookup other = members.lookup other := by
  induction members with
  | nil => rfl
  | cons entry rest ih =>
    rcases entry with ⟨first, kept⟩
    by_cases same : first = name
    · subst same
      simpa only [setMember, List.map_cons, if_true, List.lookup_cons,
        beq_eq_false_iff_ne.mpr different] using ih
    · by_cases here : other = first
      · simp [setMember, List.map_cons, same, here]
      · simpa only [setMember, List.map_cons, same, if_false, List.lookup_cons,
          beq_eq_false_iff_ne.mpr here] using ih

/-- Setting a listed member of a record only changes that entry of the list. -/
theorem update_record {name : String} {old : Option Json} {members : List (String × Option Json)}
    (others : Fields) (listed : members.lookup name = some old) (value : Option Json) :
    Function.update (fun key => (members.lookup key).getD (others key)) name value =
      fun key => ((setMember name value members).lookup key).getD (others key) := by
  funext key
  by_cases same : key = name
  · subst same
    simp [lookup_setMember_self listed]
  · simp [Function.update_of_ne same, lookup_setMember_of_ne same]

theorem within_record {name : String} {inner : Json} {members : List (String × Option Json)} {others : Fields}
    (listed : members.lookup name = some (some inner)) (edit : Json → Option Json) (rest : List String) :
    (Json.record members others).within edit (name :: rest) =
      (inner.within edit rest).map fun changed => Json.record (setMember name (some changed) members) others := by
  simp only [Json.record, Json.within, listed, Option.getD_some, update_record others listed]

theorem within_arr {items : List Json} {index : Nat} {inner : Json} (found : items[index]? = some inner)
    (edit : Json → Option Json) (rest : List String) :
    (Json.arr items).within edit (index.repr :: rest) =
      (inner.within edit rest).map fun changed => Json.arr (items.set index changed) := by
  simp only [Json.within, arrayIndex_repr, found]

theorem add_record {name : String} {old : Option Json} {members : List (String × Option Json)} {others : Fields}
    (listed : members.lookup name = some old) (value : Json) :
    (Json.record members others).edge .add (some value) name =
      some (Json.record (setMember name (some value) members) others) := by
  simp only [Json.record, Json.edge, update_record others listed]

theorem replace_record {name : String} {old : Json} {members : List (String × Option Json)} {others : Fields}
    (listed : members.lookup name = some (some old)) (value : Json) :
    (Json.record members others).edge .replace (some value) name =
      some (Json.record (setMember name (some value) members) others) := by
  simp only [Json.record, Json.edge, listed, Option.getD_some, update_record others listed]

/-- A member that is not there cannot be replaced. -/
theorem replace_absent {name : String} {members : List (String × Option Json)} {others : Fields}
    (absent : members.lookup name = some none) (value : Json) :
    (Json.record members others).edge .replace (some value) name = none := by
  simp [Json.record, Json.edge, absent]

@[simp] theorem add_end (items : List Json) (value : Json) :
    (Json.arr items).edge .add (some value) "-" = some (.arr (items ++ [value])) := rfl

theorem remove_arr {items : List Json} {index : Nat} (inside : index < items.length) :
    (Json.arr items).edge .remove none index.repr = some (.arr (items.eraseIdx index)) := by
  simp [Json.edge, inside]

end JsonPatch
