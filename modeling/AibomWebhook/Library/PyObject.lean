import AibomWebhook.Library.PyValue

/-! Python objects and what json.dumps makes of them, with `default=str`. Keys can be of
any type; only some can be written, and sorted with others. -/

namespace PyValue

/-- A key of a dictionary. A float comes with its text, and of other types nothing can be written. -/
inductive Key where
  | none
  | bool (value : Bool)
  | int (value : Int)
  | float (value : Rat) (repr : String)
  | str (value : String)
  | other

/-- A Python object. Of other types only their `str` matters, unless it raises. -/
inductive Object where
  | none
  | bool (value : Bool)
  | int (value : Int)
  | float (value : PyFloat)
  | str (value : String)
  | list (items : List Object)
  | dict (entries : List (Key × Object))
  | other (text : Option String)

namespace Key

def text : Key → Option String
  | .none => some "null"
  | .bool value => some (if value then "true" else "false")
  | .int value => some (toString value)
  | .float _ repr => some repr
  | .str value => some value
  | .other => Option.none

def number : Key → Option Rat
  | .bool value => some (if value then 1 else 0)
  | .int value => some value
  | .float value _ => some value
  | _ => Option.none

def isStr : Key → Bool
  | .str _ => true
  | _ => false

/-- Texts among themselves, and numbers among themselves. -/
def le : Key → Key → Bool
  | .str first, .str second => first ≤ second
  | first, second =>
    match first.number, second.number with
    | some left, some right => left ≤ right
    | _, _ => true

/-- Whether keys can be brought into an order. -/
def sortable (keys : List Key) : Bool :=
  keys.length ≤ 1 || keys.all isStr || keys.all fun key => key.number.isSome

end Key

mutual

/-- The text of an object, if there is one, as the value that it spells. -/
def Object.encode (sortKeys : Bool) : Object → Option Value
  | .none => some .none
  | .bool value => some (.bool value)
  | .int value => some (.int value)
  | .float value => some (.float value)
  | .str value => some (.str value)
  | .list items => (encodeItems sortKeys items).map .list
  | .dict entries =>
    if sortKeys && !Key.sortable (entries.map Prod.fst) then Option.none
    else (encodeEntries sortKeys entries).map fun encoded =>
      .dict ((if sortKeys then encoded.insertionSort fun first second => first.1.le second.1 else encoded).map Prod.snd)
  | .other text => text.map .str

def encodeItems (sortKeys : Bool) : List Object → Option (List Value)
  | [] => some []
  | item :: rest => (item.encode sortKeys).bind fun first => (encodeItems sortKeys rest).map (first :: ·)

def encodeEntries (sortKeys : Bool) : List (Key × Object) → Option (List (Key × String × Value))
  | [] => some []
  | (key, item) :: rest => key.text.bind fun text => (item.encode sortKeys).bind fun value =>
    (encodeEntries sortKeys rest).map ((key, text, value) :: ·)

end

mutual

def Object.ofValue : Value → Object
  | .none => .none
  | .bool value => .bool value
  | .int value => .int value
  | .float value => .float value
  | .str value => .str value
  | .list items => .list (objectsOf items)
  | .dict entries => .dict (entryObjectsOf entries)

def objectsOf : List Value → List Object
  | [] => []
  | item :: rest => .ofValue item :: objectsOf rest

def entryObjectsOf : List (String × Value) → List (Key × Object)
  | [] => []
  | (key, item) :: rest => (.str key, .ofValue item) :: entryObjectsOf rest

end

/-! What was read from a text is written again. -/

theorem sortedEntries_eq (entries : List (String × Value)) :
    sortedEntries entries = entries.map fun entry => (entry.1, entry.2.sorted) := by
  induction entries with
  | nil => rfl
  | cons entry rest ih => simp [sortedEntries, ih]

theorem keys_entryObjectsOf (entries : List (String × Value)) :
    (entryObjectsOf entries).map Prod.fst = entries.map fun entry => Key.str entry.1 := by
  induction entries with
  | nil => rfl
  | cons entry rest ih => simp [entryObjectsOf, ih]

theorem sortable_entryObjectsOf (entries : List (String × Value)) : Key.sortable ((entryObjectsOf entries).map Prod.fst) = true := by
  simp [keys_entryObjectsOf, Key.sortable, Key.isStr]

/-- An entry of a text: its key as an object, and as it is spelled. -/
def spelled (entry : String × Value) : Key × String × Value := (.str entry.1, entry.1, entry.2)

theorem insertionSort_spelled (entries : List (String × Value)) :
    ((entries.map spelled).insertionSort fun first second => first.1.le second.1).map Prod.snd =
      entries.insertionSort fun first second => first.1 ≤ second.1 := by
  have same : ∀ first ∈ entries, ∀ second ∈ entries,
      (first.1 ≤ second.1) ↔ ((spelled first).1.le (spelled second).1) = true := by
    intro first _ second _
    simp [spelled, Key.le]
  rw [← List.map_insertionSort _ _ spelled entries same, List.map_map]
  exact List.map_id _

mutual

theorem encode_ofValue (sortKeys : Bool) (value : Value) :
    (Object.ofValue value).encode sortKeys = some (if sortKeys then value.sorted else value) := by
  cases value with
  | list items =>
    simp only [Object.ofValue, Object.encode, encodeItems_objectsOf sortKeys items, Option.map_some, Value.sorted]
    cases sortKeys <;> rfl
  | dict entries =>
    simp only [Object.ofValue, Object.encode, encodeEntries_entryObjectsOf sortKeys entries, Option.map_some, Value.sorted,
      sortable_entryObjectsOf, Bool.not_true, Bool.and_false, Bool.false_eq_true, if_false]
    cases sortKeys with
    | true => exact congrArg (some ∘ Value.dict) (insertionSort_spelled (sortedEntries entries))
    | false =>
      refine congrArg (some ∘ Value.dict) ((List.map_map ..).trans ?_)
      exact List.map_id entries
  | _ => cases sortKeys <;> rfl

theorem encodeItems_objectsOf (sortKeys : Bool) (items : List Value) :
    encodeItems sortKeys (objectsOf items) = some (if sortKeys then sortedItems items else items) := by
  cases items with
  | nil => cases sortKeys <;> rfl
  | cons item rest =>
    simp only [objectsOf, encodeItems, encode_ofValue sortKeys item, encodeItems_objectsOf sortKeys rest, Option.bind_some,
      Option.map_some, sortedItems]
    cases sortKeys <;> rfl

theorem encodeEntries_entryObjectsOf (sortKeys : Bool) (entries : List (String × Value)) :
    encodeEntries sortKeys (entryObjectsOf entries) =
      some ((if sortKeys then sortedEntries entries else entries).map spelled) := by
  cases entries with
  | nil => cases sortKeys <;> rfl
  | cons entry rest =>
    obtain ⟨key, item⟩ := entry
    simp only [entryObjectsOf, encodeEntries, encode_ofValue sortKeys item, encodeEntries_entryObjectsOf sortKeys rest, Key.text,
      Option.bind_some, Option.map_some, sortedEntries]
    cases sortKeys <;> rfl

end

/-! The text with sorted keys and the one without say the same. -/

section Sorting
variable {first second : List (String × Value)}

theorem pairwise_sortedKeys (entries : List (String × Value)) :
    (entries.insertionSort fun first second => first.1 ≤ second.1).Pairwise fun first second => first.1 ≤ second.1 := by
  have total : Std.Total fun first second : String × Value => first.1 ≤ second.1 :=
    ⟨fun first second => String.le_total first.1 second.1⟩
  have trans : IsTrans (String × Value) fun first second => first.1 ≤ second.1 := ⟨fun _ _ _ => String.le_trans⟩
  exact List.pairwise_insertionSort _ _

/-- With different keys, only the entries matter and not their order. -/
theorem insertionSort_of_perm (perm : first.Perm second) (apart : (first.map Prod.fst).Nodup) :
    (first.insertionSort fun first second => first.1 ≤ second.1) = second.insertionSort fun first second => first.1 ≤ second.1 := by
  have sorted : (first.insertionSort fun first second => first.1 ≤ second.1).Perm
      (second.insertionSort fun first second => first.1 ≤ second.1) :=
    (List.perm_insertionSort _ _).trans (perm.trans (List.perm_insertionSort _ _).symm)
  refine sorted.eq_of_pairwise ?_ (pairwise_sortedKeys first) (pairwise_sortedKeys second)
  intro one other here there below above
  have inFirst := (List.mem_insertionSort _).mp here
  have inSecond := perm.mem_iff.mpr ((List.mem_insertionSort _).mp there)
  exact List.inj_on_of_nodup_map apart inFirst inSecond (String.le_antisymm below above)

end Sorting

mutual

theorem sorted_sorted (value : Value) : value.sorted.sorted = value.sorted := by
  cases value with
  | list items => simp only [Value.sorted, sortedItems_sortedItems items]
  | dict entries =>
    simp only [Value.sorted, sortedEntries_eq (List.insertionSort _ _)]
    have kept : ((sortedEntries entries).insertionSort fun first second => first.1 ≤ second.1).map
        (fun entry => (entry.1, entry.2.sorted)) = (sortedEntries entries).insertionSort fun first second => first.1 ≤ second.1 := by
      refine (List.map_congr_left fun entry member => ?_).trans (List.map_id _)
      exact Prod.ext rfl (sorted_of_mem entries entry ((List.mem_insertionSort _).mp member))
    rw [kept, List.Pairwise.insertionSort_eq (pairwise_sortedKeys _)]
  | _ => rfl

theorem sortedItems_sortedItems (items : List Value) : sortedItems (sortedItems items) = sortedItems items := by
  cases items with
  | nil => rfl
  | cons item rest => simp only [sortedItems, sorted_sorted item, sortedItems_sortedItems rest]

theorem sorted_of_mem (entries : List (String × Value)) : ∀ entry ∈ sortedEntries entries, entry.2.sorted = entry.2 := by
  cases entries with
  | nil => exact fun entry member => absurd member List.not_mem_nil
  | cons first rest =>
    intro entry member
    rcases List.mem_cons.mp member with rfl | later
    · exact sorted_sorted first.2
    · exact sorted_of_mem rest entry later

end

/-! Which objects have a text, and in which of them sorted keys are sorted texts. -/

mutual

/-- Keys and values have texts and, where it matters, the keys can be sorted. -/
def Object.encodable (sortKeys : Bool) : Object → Bool
  | .list items => encodableItems sortKeys items
  | .dict entries => (!sortKeys || Key.sortable (entries.map Prod.fst)) && encodableEntries sortKeys entries
  | .other text => text.isSome
  | _ => true

def encodableItems (sortKeys : Bool) : List Object → Bool
  | [] => true
  | item :: rest => item.encodable sortKeys && encodableItems sortKeys rest

def encodableEntries (sortKeys : Bool) : List (Key × Object) → Bool
  | [] => true
  | (key, item) :: rest => key.text.isSome && item.encodable sortKeys && encodableEntries sortKeys rest

end

mutual

theorem isSome_encode (sortKeys : Bool) (object : Object) : (object.encode sortKeys).isSome = object.encodable sortKeys := by
  cases object with
  | list items => rw [Object.encode, Option.isSome_map, isSome_encodeItems, Object.encodable]
  | dict entries =>
    rw [Object.encode, Object.encodable, ← isSome_encodeEntries sortKeys entries]
    cases sortKeys with
    | false => exact Option.isSome_map
    | true =>
      cases Key.sortable (entries.map Prod.fst) with
      | false => rfl
      | true => exact Option.isSome_map
  | other text => exact Option.isSome_map
  | _ => rfl

theorem isSome_encodeItems (sortKeys : Bool) (items : List Object) :
    (encodeItems sortKeys items).isSome = encodableItems sortKeys items := by
  cases items with
  | nil => rfl
  | cons item rest =>
    rw [encodeItems, encodableItems, ← isSome_encode sortKeys item, ← isSome_encodeItems sortKeys rest]
    cases item.encode sortKeys with
    | none => rfl
    | some value => exact Option.isSome_map

theorem isSome_encodeEntries (sortKeys : Bool) (entries : List (Key × Object)) :
    (encodeEntries sortKeys entries).isSome = encodableEntries sortKeys entries := by
  cases entries with
  | nil => rfl
  | cons entry rest =>
    obtain ⟨key, item⟩ := entry
    rw [encodeEntries, encodableEntries, ← isSome_encode sortKeys item, ← isSome_encodeEntries sortKeys rest]
    cases key.text with
    | none => rfl
    | some text =>
      cases item.encode sortKeys with
      | none => rfl
      | some value => exact Option.isSome_map

end

theorem encodable_ofValue (sortKeys : Bool) (value : Value) : (Object.ofValue value).encodable sortKeys = true := by
  rw [← isSome_encode, encode_ofValue]
  rfl

theorem encodable_list_iff {sortKeys : Bool} {items : List Object} :
    (Object.list items).encodable sortKeys = true ↔ ∀ item ∈ items, item.encodable sortKeys = true := by
  rw [Object.encodable]
  induction items with
  | nil => exact ⟨nofun, fun _ => rfl⟩
  | cons item rest ih => rw [encodableItems, Bool.and_eq_true, ih, List.forall_mem_cons]

/-- Whether keys in their own order are in the order of their texts. -/
def Key.increasing (keys : List Key) : Bool :=
  decide (((keys.insertionSort fun first second => first.le second).filterMap text).Pairwise (· ≤ ·))

mutual

def Object.ordered : Object → Bool
  | .list items => orderedItems items
  | .dict entries => Key.increasing (entries.map Prod.fst) && orderedEntries entries
  | _ => true

def orderedItems : List Object → Bool
  | [] => true
  | item :: rest => item.ordered && orderedItems rest

def orderedEntries : List (Key × Object) → Bool
  | [] => true
  | (_, item) :: rest => item.ordered && orderedEntries rest

end

theorem increasing_iff {entries : List (Key × Object)} {encoded : List (Key × String × Value)}
    (named : ∀ entry ∈ encoded, entry.1.text = some entry.2.1) (keys : encoded.map Prod.fst = entries.map Prod.fst) :
    Key.increasing (entries.map Prod.fst) = true ↔
      ((encoded.insertionSort fun first second => first.1.le second.1).map Prod.snd).Pairwise fun first second => first.1 ≤ second.1 := by
  have sorted : (entries.map Prod.fst).insertionSort (fun first second => first.le second) =
      (encoded.insertionSort fun first second => first.1.le second.1).map Prod.fst := by
    rw [← keys]
    exact (List.map_insertionSort _ _ Prod.fst encoded fun first _ second _ => Iff.rfl).symm
  have texts : ((entries.map Prod.fst).insertionSort fun first second => first.le second).filterMap Key.text =
      ((encoded.insertionSort fun first second => first.1.le second.1).map Prod.snd).map Prod.fst := by
    rw [sorted, List.filterMap_map, List.map_map, ← List.filterMap_eq_map]
    exact List.filterMap_congr fun entry member => named entry ((List.mem_insertionSort _).mp member)
  rw [Key.increasing, decide_eq_true_eq, texts, List.pairwise_map]

/-- Entries in the order of their keys, with values in order, stay as they are. -/
theorem sorted_dict_iff {entries : List (String × Value)} : (Value.dict entries).sorted = .dict entries ↔
    (entries.Pairwise fun first second => first.1 ≤ second.1) ∧ ∀ entry ∈ entries, entry.2.sorted = entry.2 := by
  rw [Value.sorted, Value.dict.injEq, sortedEntries_eq]
  constructor
  · intro same
    refine ⟨same ▸ pairwise_sortedKeys _, fun entry member => ?_⟩
    rw [← same, List.mem_insertionSort, ← sortedEntries_eq] at member
    exact sorted_of_mem entries entry member
  · rintro ⟨pairwise, values⟩
    have kept : entries.map (fun entry => (entry.1, entry.2.sorted)) = entries := by
      refine (List.map_congr_left fun entry member => ?_).trans (List.map_id _)
      exact Prod.ext rfl (values entry member)
    rw [kept, List.Pairwise.insertionSort_eq pairwise]

mutual

theorem sorted_eq_self_iff (object : Object) {text : Value} (done : object.encode true = some text) :
    text.sorted = text ↔ object.ordered = true := by
  cases object with
  | list items =>
    obtain ⟨texts, encoded, rfl⟩ := Option.map_eq_some_iff.mp done
    rw [Value.sorted, Value.list.injEq, sortedItems_eq_self_iff items encoded, Object.ordered]
  | dict entries =>
    simp only [Object.encode, Bool.true_and, if_true] at done
    split at done
    · cases done
    · obtain ⟨encoded, texts, rfl⟩ := Option.map_eq_some_iff.mp done
      obtain ⟨named, keys, values⟩ := sortedEntries_eq_self_iff entries texts
      rw [sorted_dict_iff, Object.ordered, Bool.and_eq_true, increasing_iff named keys, ← values]
      refine and_congr Iff.rfl ?_
      simp only [List.mem_map, forall_exists_index, and_imp, forall_apply_eq_imp_iff₂, List.mem_insertionSort]
  | other text =>
    obtain ⟨spelling, -, rfl⟩ := Option.map_eq_some_iff.mp done
    exact ⟨fun _ => rfl, fun _ => rfl⟩
  | _ =>
    obtain rfl := Option.some.inj done
    exact ⟨fun _ => rfl, fun _ => rfl⟩

theorem sortedItems_eq_self_iff (items : List Object) {texts : List Value} (done : encodeItems true items = some texts) :
    sortedItems texts = texts ↔ orderedItems items = true := by
  cases items with
  | nil =>
    obtain rfl := Option.some.inj done
    exact ⟨fun _ => rfl, fun _ => rfl⟩
  | cons item rest =>
    obtain ⟨value, here, done⟩ := Option.bind_eq_some_iff.mp done
    obtain ⟨values, later, rfl⟩ := Option.map_eq_some_iff.mp done
    rw [sortedItems, List.cons.injEq, sorted_eq_self_iff item here, sortedItems_eq_self_iff rest later, orderedItems,
      Bool.and_eq_true]

theorem sortedEntries_eq_self_iff (entries : List (Key × Object)) {encoded : List (Key × String × Value)}
    (done : encodeEntries true entries = some encoded) :
    (∀ entry ∈ encoded, entry.1.text = some entry.2.1) ∧ encoded.map Prod.fst = entries.map Prod.fst ∧
      ((∀ entry ∈ encoded, entry.2.2.sorted = entry.2.2) ↔ orderedEntries entries = true) := by
  cases entries with
  | nil =>
    obtain rfl := Option.some.inj done
    exact ⟨nofun, rfl, fun _ => rfl, fun _ => nofun⟩
  | cons entry rest =>
    obtain ⟨key, item⟩ := entry
    obtain ⟨text, named, done⟩ := Option.bind_eq_some_iff.mp done
    obtain ⟨value, here, done⟩ := Option.bind_eq_some_iff.mp done
    obtain ⟨values, later, rfl⟩ := Option.map_eq_some_iff.mp done
    obtain ⟨texts, keys, ordered⟩ := sortedEntries_eq_self_iff rest later
    refine ⟨List.forall_mem_cons.mpr ⟨named, texts⟩, by rw [List.map_cons, keys, List.map_cons], ?_⟩
    rw [List.forall_mem_cons, sorted_eq_self_iff item here, ordered, orderedEntries, Bool.and_eq_true]

end

/-- Keys that can be sorted are spelled differently. -/
def Key.apart (keys : List Key) : Bool := !sortable keys || decide (keys.map text).Nodup

mutual

/-- Every dictionary has its keys only once. -/
def Object.valid : Object → Bool
  | .list items => validItems items
  | .dict entries => Key.apart (entries.map Prod.fst) && validEntries entries
  | _ => true

def validItems : List Object → Bool
  | [] => true
  | item :: rest => item.valid && validItems rest

def validEntries : List (Key × Object) → Bool
  | [] => true
  | (_, item) :: rest => item.valid && validEntries rest

end

/-- An entry of an encoded dictionary, with its value in order. -/
def inOrder (entry : Key × String × Value) : String × Value := (entry.2.1, entry.2.2.sorted)

mutual

theorem sorted_encode (object : Object) (valid : object.valid = true) {sorted plain : Value}
    (one : object.encode true = some sorted) (two : object.encode false = some plain) : plain.sorted = sorted.sorted := by
  cases object with
  | list items =>
    simp only [Object.encode] at one two
    obtain ⟨first, encoded, rfl⟩ := Option.map_eq_some_iff.mp one
    obtain ⟨second, encodedToo, rfl⟩ := Option.map_eq_some_iff.mp two
    simp only [Value.sorted, sorted_encodeItems items valid encoded encodedToo]
  | dict entries =>
    simp only [Object.valid, Bool.and_eq_true] at valid
    simp only [Object.encode, Bool.true_and, Bool.false_and, Bool.false_eq_true, if_false, if_true] at one two
    split at one
    · cases one
    · rename_i sortable
      obtain ⟨first, encoded, rfl⟩ := Option.map_eq_some_iff.mp one
      obtain ⟨second, encodedToo, rfl⟩ := Option.map_eq_some_iff.mp two
      obtain ⟨same, texts⟩ := sorted_encodeEntries entries valid.2 encoded encodedToo
      have apart : ((first.map inOrder).map Prod.fst).Nodup := by
        have named : (entries.map fun entry => entry.1.text).Nodup := by
          have keys := valid.1
          rw [Key.apart, Bool.or_eq_true, decide_eq_true_eq, List.map_map] at keys
          exact keys.resolve_left (by simpa using sortable)
        have listed : first.map (fun entry => some entry.2.1) = ((first.map inOrder).map Prod.fst).map some := by
          rw [List.map_map, List.map_map]
          rfl
        rw [← texts, listed] at named
        exact named.of_map
      have perm : (first.map inOrder).Perm ((first.insertionSort fun one other => one.1.le other.1).map inOrder) :=
        ((List.perm_insertionSort _ first).map inOrder).symm
      simp only [Value.sorted, sortedEntries_eq, List.map_map]
      refine congrArg Value.dict ?_
      exact (congrArg _ same).trans (insertionSort_of_perm perm apart)
  | other text =>
    simp only [Object.encode] at one two
    rw [one] at two
    rw [Option.some.inj two]
  | _ =>
    simp only [Object.encode, Option.some.injEq] at one two
    rw [← one, ← two]

theorem sorted_encodeItems (items : List Object) (valid : validItems items = true) {first second : List Value}
    (one : encodeItems true items = some first) (two : encodeItems false items = some second) :
    sortedItems second = sortedItems first := by
  cases items with
  | nil =>
    obtain rfl := Option.some.inj one
    obtain rfl := Option.some.inj two
    rfl
  | cons item rest =>
    simp only [validItems, Bool.and_eq_true] at valid
    obtain ⟨value, here, one⟩ := Option.bind_eq_some_iff.mp one
    obtain ⟨values, later, rfl⟩ := Option.map_eq_some_iff.mp one
    obtain ⟨plain, hereToo, two⟩ := Option.bind_eq_some_iff.mp two
    obtain ⟨plains, laterToo, rfl⟩ := Option.map_eq_some_iff.mp two
    simp only [sortedItems, sorted_encode item valid.1 here hereToo, sorted_encodeItems rest valid.2 later laterToo]

theorem sorted_encodeEntries (entries : List (Key × Object)) (valid : validEntries entries = true)
    {first second : List (Key × String × Value)} (one : encodeEntries true entries = some first)
    (two : encodeEntries false entries = some second) :
    second.map inOrder = first.map inOrder ∧ first.map (fun entry => some entry.2.1) = entries.map fun entry => entry.1.text := by
  cases entries with
  | nil =>
    obtain rfl := Option.some.inj one
    obtain rfl := Option.some.inj two
    exact ⟨rfl, rfl⟩
  | cons entry rest =>
    obtain ⟨key, item⟩ := entry
    simp only [validEntries, Bool.and_eq_true] at valid
    obtain ⟨text, named, one⟩ := Option.bind_eq_some_iff.mp one
    obtain ⟨value, here, one⟩ := Option.bind_eq_some_iff.mp one
    obtain ⟨values, later, rfl⟩ := Option.map_eq_some_iff.mp one
    obtain ⟨textToo, namedToo, two⟩ := Option.bind_eq_some_iff.mp two
    obtain ⟨plain, hereToo, two⟩ := Option.bind_eq_some_iff.mp two
    obtain ⟨plains, laterToo, rfl⟩ := Option.map_eq_some_iff.mp two
    obtain rfl := Option.some.inj (named.symm.trans namedToo)
    obtain ⟨same, texts⟩ := sorted_encodeEntries rest valid.2 later laterToo
    simp only [List.map_cons, inOrder, sorted_encode item valid.1 here hereToo]
    refine ⟨?_, by rw [texts, named]⟩
    exact congrArg ((text, value.sorted) :: ·) same

end

end PyValue
