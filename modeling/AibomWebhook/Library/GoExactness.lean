import AibomWebhook.Library.GoEncoding
import AibomWebhook.Library.JsonValue

/-! What encoding/json keeps of the meaning of a JSON text: a raw message keeps all of it,
a value that is decoded and encoded keeps what a binary64 number and a Go string can hold. -/

namespace GoEncoding
open JsonText SortedMap

theorem meaning_compact (raw : Raw) : (compact raw).meaning = raw.meaning := by
  induction raw using Raw.induct with
  | null => rfl
  | bool flag => rfl
  | number literal => rfl
  | string text => rw [compact, Raw.meaning, Raw.meaning, units_map_compact]
  | array items each =>
    rw [compact, Raw.meaning, Raw.meaning, meaningItems_eq_map, meaningItems_eq_map, compactItems_eq_map, List.map_map]
    exact congrArg Value.array (List.map_congr_left each)
  | object members each =>
    rw [compact, Raw.meaning, Raw.meaning, compactMembers_eq_map]
    refine congrArg Value.object (meaningMembers_congr ?_)
    rw [List.forall₂_map_left_iff, List.forall₂_same]
    exact fun member present => ⟨units_map_compact member.1, each member present⟩

/-- What a variable of type any can hold: numbers that a binary64 number is written as, and
characters only. -/
inductive Exact : Raw → Prop where
  | null : Exact .null
  | bool (value : Bool) : Exact (.bool value)
  | number {literal : Literal} (f : Float64) (written : f.written = literal.value) : Exact (.number literal)
  | string {body : List Glyph} (text : WellFormed (units body)) : Exact (.string body)
  | array {items : List Raw} (each : ∀ item ∈ items, Exact item) : Exact (.array items)
  | object {members : List (List Glyph × Raw)} (names : ∀ member ∈ members, WellFormed (units member.1))
      (each : ∀ member ∈ members, Exact member.2) : Exact (.object members)

/-- The meaning of a tree that was decoded and encoded, if it can be decoded. -/
def recoded (raw : Raw) : Option Value := (decode raw).map fun value => (encode value).meaning

theorem units_escape_name (body : List Glyph) : units (escape (name body).toList) = units body ↔ WellFormed (units body) := by
  rw [units_escape, name, String.toList_ofList, unescape]
  constructor
  · exact fun same => ⟨_, same.symm⟩
  · rintro ⟨text, same⟩
    rw [same, characters_flatMap_utf16]

theorem wellFormed_escape (text : List Char) : WellFormed (units (escape text)) := ⟨text, units_escape text⟩

theorem recoded_number (literal : Literal) :
    recoded (.number literal) = some (Raw.number literal).meaning ↔ Exact (.number literal) := by
  simp only [recoded, decode, Option.map_map, Option.map_eq_some_iff, Function.comp_apply, encode, Raw.meaning,
    value_formatFloat, Value.number.injEq]
  constructor
  · rintro ⟨f, _, written⟩
    exact .number f written
  · rintro (_ | _ | ⟨f, written⟩)
    exact Float64.written_ofDecimal written

theorem recodedItems {items : List Raw} (each : ∀ item ∈ items, recoded item = some item.meaning ↔ Exact item) :
    ((decodeItems items).map fun found => meaningItems (encodeItems found)) = some (meaningItems items) ↔
      ∀ item ∈ items, Exact item := by
  induction items with
  | nil => exact ⟨fun _ item inside => absurd inside List.not_mem_nil, fun _ => rfl⟩
  | cons item rest ih =>
    rw [List.forall_mem_cons, ← each item List.mem_cons_self,
      ← ih fun other inside => each other (List.mem_cons_of_mem item inside), decodeItems, recoded]
    cases decode item with
    | none => simp
    | some first =>
      cases decodeItems rest with
      | none => simp
      | some others => simp [encodeItems, meaningItems]

/-- Members that are decoded one by one. -/
def DecodedAs (member : List Glyph × Raw) (value : String × Any) : Prop :=
  decode member.2 = some value.2 ∧ value.1 = name member.1

section Members
variable {members : List (List Glyph × Raw)} {found : List (String × Any)}

theorem decodeMembers_eq_some : decodeMembers members = some found ↔ List.Forall₂ DecodedAs members found := by
  induction members generalizing found with
  | nil =>
    constructor
    · intro read
      obtain rfl := Option.some.inj read
      exact .nil
    · intro both
      cases both
      rfl
  | cons member rest ih =>
    obtain ⟨key, raw⟩ := member
    rw [decodeMembers]
    constructor
    · intro read
      split at read
      · rename_i first others here later
        obtain rfl := Option.some.inj read
        exact .cons ⟨here, rfl⟩ (ih.mp later)
      · cases read
    · rintro (_ | ⟨⟨here, named⟩, later⟩)
      dsimp only at here named
      rw [here, ih.mpr later, ← named]

theorem exists_decoded (decoded : List.Forall₂ DecodedAs members found) {member : List Glyph × Raw} (inside : member ∈ members) :
    ∃ value ∈ found, DecodedAs member value := by
  induction decoded with
  | nil => cases inside
  | @cons first value _ _ here _ ih =>
    rcases List.mem_cons.mp inside with rfl | later
    · exact ⟨value, List.mem_cons_self, here⟩
    · obtain ⟨other, present, same⟩ := ih later
      exact ⟨other, List.mem_cons_of_mem value present, same⟩

theorem exists_recodedAs (each : ∀ member ∈ members, recoded member.2 = some member.2.meaning) : ∃ found,
    List.Forall₂ (fun member value => DecodedAs member value ∧ (encode value.2).meaning = member.2.meaning) members found := by
  induction members with
  | nil => exact ⟨[], .nil⟩
  | cons member rest ih =>
    rw [List.forall_mem_cons] at each
    obtain ⟨value, here, same⟩ := Option.map_eq_some_iff.mp each.1
    obtain ⟨others, later⟩ := ih each.2
    exact ⟨(name member.1, value) :: others, .cons ⟨⟨here, rfl⟩, same⟩ later⟩

/-- Names that are read as they are, are written as they are. -/
theorem names_encodeMembers (decoded : List.Forall₂ DecodedAs members found)
    (names : ∀ member ∈ members, WellFormed (units member.1)) :
    ((encodeMembers found).map fun member => units member.1) = members.map fun member => units member.1 := by
  rw [encodeMembers_eq_map, List.map_map]
  induction decoded with
  | nil => rfl
  | @cons member value _ _ here _ ih =>
    rw [List.forall_mem_cons] at names
    rw [List.map_cons, List.map_cons, ih names.2, Function.comp_apply, here.2, (units_escape_name member.1).mpr names.1]

/-- Such members lose nothing when they are put in order. -/
theorem meaning_sorted (decoded : List.Forall₂ DecodedAs members found)
    (names : ∀ member ∈ members, WellFormed (units member.1)) (apart : (members.map fun member => units member.1).Nodup) :
    meaningMembers (encodeMembers (sorted (Keyed.ofList found))) = meaningMembers (encodeMembers found) := by
  have written : ((encodeMembers found).map fun member => units member.1).Nodup :=
    (names_encodeMembers decoded names).symm ▸ apart
  have distinct : (found.map Prod.fst).Nodup := by
    rw [encodeMembers_eq_map, List.map_map] at written
    exact List.Nodup.of_map (fun text : String => units (escape text.toList)) (by rw [List.map_map]; exact written)
  have items : (Keyed.ofList found : Keyed (Prod.fst : String × Any → String)).items = found :=
    Keyed.items_putAll (by simpa using distinct)
  have perm : (sorted (Keyed.ofList found)).Perm found := by
    have same := sorted_perm (Keyed.ofList found : Keyed (Prod.fst : String × Any → String))
    rwa [items] at same
  refine (meaningMembers_perm ?_ written).symm
  rw [encodeMembers_eq_map, encodeMembers_eq_map]
  exact (perm.map _).symm

theorem recodedMembers (apart : (members.map fun member => units member.1).Nodup)
    (each : ∀ member ∈ members, recoded member.2 = some member.2.meaning ↔ Exact member.2) :
    recoded (.object members) = some (Raw.object members).meaning ↔ Exact (.object members) := by
  have whole : recoded (.object members) = some (Raw.object members).meaning ↔ ∃ found, List.Forall₂ DecodedAs members found ∧
      meaningMembers (encodeMembers (sorted (Keyed.ofList found))) = meaningMembers members := by
    simp only [recoded, decode, Option.map_map, Option.map_eq_some_iff, Function.comp_apply, encode, Raw.meaning,
      Value.object.injEq, decodeMembers_eq_some]
  rw [whole]
  constructor
  · rintro ⟨found, decoded, same⟩
    have names : ∀ member ∈ members, WellFormed (units member.1) := by
      intro member inside
      have here := meaningMembers_of_mem apart inside
      rw [← same, encodeMembers_eq_map] at here
      obtain ⟨other, present, named, _⟩ := mem_of_meaningMembers here
      obtain ⟨value, _, rfl⟩ := List.mem_map.mp present
      exact named ▸ wellFormed_escape value.1.toList
    refine .object names fun member inside => (each member inside).mp ?_
    obtain ⟨value, present, read, named⟩ := exists_decoded decoded inside
    have written := meaningMembers_of_mem ((names_encodeMembers decoded names).symm ▸ apart)
      (encodeMembers_eq_map found ▸ List.mem_map_of_mem (f := fun value : String × Any => (escape value.1.toList, encode value.2))
        present)
    dsimp only at written
    rw [← meaning_sorted decoded names apart, same, named, (units_escape_name member.1).mpr (names member inside),
      meaningMembers_of_mem apart inside] at written
    rw [recoded, read, Option.map_some, ← written]
  · rintro (_ | _ | _ | _ | _ | ⟨names, exact_⟩)
    obtain ⟨found, both⟩ := exists_recodedAs fun member inside => (each member inside).mpr (exact_ member inside)
    have decoded := both.imp fun _ _ => And.left
    refine ⟨found, decoded, ?_⟩
    rw [meaning_sorted decoded names apart, encodeMembers_eq_map]
    refine (meaningMembers_congr ?_).symm
    rw [List.forall₂_map_right_iff]
    refine ((List.forall₂_and_left _ _).mpr ⟨names, both⟩).imp ?_
    rintro member value ⟨text, ⟨_, named⟩, same⟩
    exact ⟨by rw [named, (units_escape_name member.1).mpr text], same.symm⟩

end Members

/-- A tree keeps its meaning when it is decoded and encoded exactly when all of it can be held. -/
theorem recoded_iff {raw : Raw} (distinct : Distinct raw) : recoded raw = some raw.meaning ↔ Exact raw := by
  induction distinct with
  | null => exact ⟨fun _ => .null, fun _ => rfl⟩
  | bool flag => exact ⟨fun _ => .bool flag, fun _ => rfl⟩
  | number literal => exact recoded_number literal
  | string body =>
    simp only [recoded, decode, Option.map_some, Option.some.injEq, encode, Raw.meaning, Value.text.injEq, units_escape_name]
    refine ⟨.string, ?_⟩
    rintro (_ | _ | _ | text)
    exact text
  | @array items _ each =>
    have whole : recoded (.array items) = some (Raw.array items).meaning ↔
        ((decodeItems items).map fun found => meaningItems (encodeItems found)) = some (meaningItems items) := by
      simp only [recoded, decode, Option.map_map, Option.map_eq_some_iff, Function.comp_apply, encode, Raw.meaning,
        Value.array.injEq]
    rw [whole, recodedItems each]
    refine ⟨.array, ?_⟩
    rintro (_ | _ | _ | _ | inside)
    exact inside
  | object apart _ each => exact recodedMembers apart each

end GoEncoding
