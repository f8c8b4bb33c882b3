import AibomWebhook.Library.JsonNumber
import AibomWebhook.Library.JsonString
import Mathlib.Data.List.Perm.Basic

/-! What a JSON text means. Numbers are exact, strings are code units, and of the
members of one name the last one counts. -/

namespace JsonText

inductive Value where
  | null
  | bool (value : Bool)
  | number (value : Rat)
  | text (units : List Nat)
  | array (items : List Value)
  | object (members : List Nat → Option Value)

mutual

def Raw.meaning : Raw → Value
  | .null => .null
  | .bool value => .bool value
  | .number literal => .number literal.value
  | .string body => .text (units body)
  | .array items => .array (meaningItems items)
  | .object members => .object (meaningMembers members)

def meaningItems : List Raw → List Value
  | [] => []
  | item :: rest => item.meaning :: meaningItems rest

def meaningMembers : List (List Glyph × Raw) → List Nat → Option Value
  | [], _ => none
  | (key, raw) :: rest, wanted =>
    (meaningMembers rest wanted).or (if units key = wanted then some raw.meaning else none)

end

/-- The meaning of a text, if it is a JSON text. -/
def meaning (text : String) : Option Value := (tree text).map Raw.meaning

theorem meaningItems_eq_map (items : List Raw) : meaningItems items = items.map Raw.meaning := by
  induction items with
  | nil => rfl
  | cons item rest ih => rw [meaningItems, ih, List.map_cons]

theorem meaningMembers_congr {first second : List (List Glyph × Raw)}
    (same : List.Forall₂ (fun one other => units one.1 = units other.1 ∧ one.2.meaning = other.2.meaning) first second) :
    meaningMembers first = meaningMembers second := by
  induction same with
  | nil => rfl
  | @cons one other _ _ here _ ih =>
    obtain ⟨key, raw⟩ := one
    obtain ⟨otherKey, otherRaw⟩ := other
    obtain ⟨names, values⟩ := here
    dsimp only at names values
    funext wanted
    rw [meaningMembers, meaningMembers, ih, names, values]

/-- The member of an object that has a name. -/
def Value.member (name : String) : Value → Option Value
  | .object members => members (name.toList.flatMap utf16)
  | _ => none

def Value.items : Value → List Value
  | .array items => items
  | _ => []

/-- A printed tree means what the tree means. -/
theorem meaning_text {raw : Raw} (legal : raw.legal = true) : meaning raw.text = some raw.meaning := by
  rw [meaning, tree_of_parse (parse_text legal (Nat.le_refl _)), Option.map_some]

theorem meaning_of_parse {depth : Nat} {text : String} {raw : Raw} (read : parse depth text = some raw) :
    meaning text = some raw.meaning := by
  rw [meaning, tree_of_parse read, Option.map_some]

/-- Units that are those of characters: no surrogate is by itself. -/
def WellFormed (units : List Nat) : Prop := ∃ text : List Char, units = text.flatMap utf16

/-- No object has two members of one name. -/
inductive Distinct : Raw → Prop where
  | null : Distinct .null
  | bool (value : Bool) : Distinct (.bool value)
  | number (literal : Literal) : Distinct (.number literal)
  | string (body : List Glyph) : Distinct (.string body)
  | array {items : List Raw} (each : ∀ item ∈ items, Distinct item) : Distinct (.array items)
  | object {members : List (List Glyph × Raw)} (apart : (members.map fun member => units member.1).Nodup)
      (each : ∀ member ∈ members, Distinct member.2) : Distinct (.object members)

section Members
variable {members others : List (List Glyph × Raw)}

theorem mem_of_meaningMembers {wanted : List Nat} {value : Value} (found : meaningMembers members wanted = some value) :
    ∃ member ∈ members, units member.1 = wanted ∧ member.2.meaning = value := by
  induction members with
  | nil => cases found
  | cons member rest ih =>
    obtain ⟨key, raw⟩ := member
    rw [meaningMembers] at found
    cases later : meaningMembers rest wanted with
    | some other =>
      rw [later, Option.some_or] at found
      obtain ⟨member, inside, here⟩ := ih (later.trans found)
      exact ⟨member, List.mem_cons_of_mem _ inside, here⟩
    | none =>
      rw [later, Option.none_or] at found
      split at found
      · exact ⟨(key, raw), List.mem_cons_self, ‹_›, Option.some.inj found⟩
      · cases found

theorem meaningMembers_of_mem (apart : (members.map fun member => units member.1).Nodup) {member : List Glyph × Raw}
    (inside : member ∈ members) : meaningMembers members (units member.1) = some member.2.meaning := by
  induction members with
  | nil => cases inside
  | cons first rest ih =>
    rw [List.map_cons, List.nodup_cons] at apart
    obtain ⟨key, raw⟩ := first
    rw [meaningMembers]
    rcases List.mem_cons.mp inside with rfl | later
    · have nothing : meaningMembers rest (units key) = none := by
        cases found : meaningMembers rest (units key) with
        | none => rfl
        | some value =>
          obtain ⟨other, present, same, _⟩ := mem_of_meaningMembers found
          exact absurd (List.mem_map.mpr ⟨other, present, same⟩) apart.1
      rw [nothing, Option.none_or, if_pos rfl]
    · rw [ih apart.2 later, Option.some_or]

theorem meaningMembers_append (wanted : List Nat) :
    meaningMembers (members ++ others) wanted = (meaningMembers others wanted).or (meaningMembers members wanted) := by
  induction members with
  | nil => exact (Option.or_none).symm
  | cons member rest ih =>
    obtain ⟨key, raw⟩ := member
    rw [List.cons_append, meaningMembers, meaningMembers, ih, Option.or_assoc]

/-- The order of distinct members does not matter. -/
theorem meaningMembers_perm (same : members.Perm others) (apart : (members.map fun member => units member.1).Nodup) :
    meaningMembers members = meaningMembers others := by
  have after : (others.map fun member => units member.1).Nodup := (same.map _).nodup_iff.mp apart
  funext wanted
  cases found : meaningMembers members wanted with
  | some value =>
    obtain ⟨member, inside, rfl, rfl⟩ := mem_of_meaningMembers found
    exact (meaningMembers_of_mem after (same.mem_iff.mp inside)).symm
  | none =>
    cases other : meaningMembers others wanted with
    | none => rfl
    | some value =>
      obtain ⟨member, inside, rfl, rfl⟩ := mem_of_meaningMembers other
      rw [meaningMembers_of_mem apart (same.mem_iff.mpr inside)] at found
      cases found

end Members

end JsonText
