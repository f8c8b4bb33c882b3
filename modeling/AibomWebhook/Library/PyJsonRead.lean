import AibomWebhook.Library.JsonValue
import AibomWebhook.Library.PyJson

/-! What is read back from a text that `json.dumps` has written: names, integers and the
members of objects. -/

namespace PyJson
open JsonText

theorem utf16_lt {c : Char} {unit : Nat} (member : unit ∈ utf16 c) : unit < 0x10000 := by
  have range := valid c
  unfold utf16 at member
  split at member
  · rename_i small
    rw [List.mem_singleton.mp member]
    exact small
  · rcases List.mem_cons.mp member with rfl | later
    · omega
    · rw [List.mem_singleton.mp later]
      omega

theorem units_asciiGlyphs (c : Char) : units (asciiGlyphs c) = utf16 c := by
  unfold asciiGlyphs
  split
  · rename_i quoted
    rcases quoted with rfl | rfl <;> rfl
  · iterate 5 (split; (rename_i here; subst here; rfl))
    split
    · exact List.append_nil _
    · rw [units, List.flatMap_map]
      have each : ∀ unit ∈ utf16 c, (unicodeOf unit).units = [unit] := fun unit member => units_unicode (utf16_lt member)
      rw [List.flatMap_congr each, List.flatMap_singleton']

theorem units_glyphs (text : String) : units (glyphs text) = text.toList.flatMap utf16 := by
  rw [units, glyphs, List.flatMap_assoc]
  exact List.flatMap_congr fun c _ => units_asciiGlyphs c

/-- A name is read back from its units. -/
theorem flatMap_utf16_inj {first second : String} :
    first.toList.flatMap utf16 = second.toList.flatMap utf16 ↔ first = second := by
  constructor
  · intro same
    have read := congrArg characters same
    rw [characters_flatMap_utf16, characters_flatMap_utf16] at read
    exact String.toList_inj.mp read
  · exact fun same => same ▸ rfl

theorem member_object_nil (name : String) : (object []).meaning.member name = none := rfl

/-- Of the members of one name the last one is read. -/
theorem member_object_cons (name key : String) (raw : Raw) (rest : List (String × Raw)) :
    (object ((key, raw) :: rest)).meaning.member name =
      ((object rest).meaning.member name).or (if key = name then some raw.meaning else none) := by
  simp only [object, List.map_cons, Raw.meaning, Value.member, meaningMembers, units_glyphs, flatMap_utf16_inj]

theorem member_object_append (name : String) (first second : List (String × Raw)) :
    (object (first ++ second)).meaning.member name =
      ((object second).meaning.member name).or ((object first).meaning.member name) := by
  induction first with
  | nil => exact Option.or_none.symm
  | cons entry rest ih => rw [List.cons_append, member_object_cons, member_object_cons, ih, Option.or_assoc]

/-- A member that is there if there is a value for it. -/
theorem member_object_optional {α : Type} (name key : String) (write : α → Raw) (value : Option α) :
    (object (value.toList.map fun present => (key, write present))).meaning.member name =
      if key = name then value.map fun present => (write present).meaning else none := by
  cases value with
  | none => exact (ite_self _).symm
  | some present =>
    rw [Option.toList_some, List.map_singleton, member_object_cons, member_object_nil, Option.none_or]
    rfl

theorem member_object_of_not_mem {name : String} {members : List (String × Raw)} (absent : name ∉ members.map Prod.fst) :
    (object members).meaning.member name = none := by
  induction members with
  | nil => rfl
  | cons entry rest ih =>
    rw [List.map_cons, List.mem_cons, not_or] at absent
    rw [member_object_cons, ih absent.2, if_neg (Ne.symm absent.1), Option.none_or]

theorem member_object_of_mem {name : String} {raw : Raw} {members : List (String × Raw)}
    (distinct : (members.map Prod.fst).Nodup) (member : (name, raw) ∈ members) :
    (object members).meaning.member name = some raw.meaning := by
  induction members with
  | nil => cases member
  | cons entry rest ih =>
    rw [List.map_cons, List.nodup_cons] at distinct
    rw [member_object_cons]
    rcases List.mem_cons.mp member with rfl | later
    · rw [member_object_of_not_mem distinct.1, if_pos rfl, Option.none_or]
    · rw [ih distinct.2 later, Option.some_or]

/-- An integer is read back. -/
theorem value_integer (n : Int) : (integer n).value = n := by
  have digits : (integer n).significand = n.natAbs := by
    rw [Literal.significand, integer, Option.getD_none, List.append_nil, Nat.ofDigitChars_ten_toDigits]
  have power : (integer n).power = 0 := rfl
  have sign : (integer n).negative = decide (n < 0) := rfl
  have signed : (if n < 0 then -1 else 1) * (n.natAbs : Int) = n := by
    split <;> omega
  rw [Literal.value, digits, power, sign, Float64.decimal]
  simp only [Int.toNat_zero, Int.neg_zero, pow_zero, mul_one, decide_eq_true_eq, signed]
  exact Rat.mkRat_one n

end PyJson
