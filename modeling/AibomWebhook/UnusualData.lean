import AibomWebhook.DetectionMerge
import AibomWebhook.Library.PyObject

/-! What a flush of the runtime detector makes of unusual data (scripts/aibom-scripts/runtime_detector.py,
`_flush`, `_dataset_identity` and `_merge_output`): any exception on the way leaves the file as it was. -/

namespace AibomWebhook.UnusualData
open DetectionMerge PyValue

/-! What the hooks record. -/

/-- A dictionary whose keys are texts. -/
abbrev Entry := Keyed (Prod.fst : String × Object → String)

namespace Entry

def get? (key : String) (entry : Entry) : Option Object := (entry.find? key).map Prod.snd

def getD (key : String) (default : Object) (entry : Entry) : Object := (entry.get? key).getD default

def set (key : String) (value : Object) (entry : Entry) : Entry := entry.put (key, value)

def update (entry changes : Entry) : Entry := Keyed.putAll changes.items entry

/-- A dictionary that was read from the file. -/
def ofDict (dict : Dict) : Entry := Keyed.ofList (dict.items.map (Prod.map id Object.ofValue))

variable {entry changes : Entry} {key other : String} {value : Object}

@[simp] theorem get?_set_self : (entry.set key value).get? key = some value := by
  simp [get?, set, Keyed.find?_put]

theorem get?_set_of_ne (different : key ≠ other) : (entry.set key value).get? other = entry.get? other := by
  simp [get?, set, Keyed.find?_put, different]

theorem get?_update : (entry.update changes).get? key = (changes.get? key).or (entry.get? key) := by
  rw [get?, update, Keyed.find?_putAll, get?, get?]
  cases changes.find? key <;> rfl

theorem get?_ofDict (dict : Dict) : (ofDict dict).get? key = (dict.get? key).map Object.ofValue := by
  have found : (ofDict dict).find? key = (dict.find? key).map (Prod.map id Object.ofValue) := by
    have start (k : String) : (∅ : Entry).find? k = ((∅ : Dict).find? k).map (Prod.map id Object.ofValue) := rfl
    have all := Keyed.find?_putAll_map Object.ofValue dict.items start key
    have whole : (Keyed.putAll dict.items ∅ : Dict) = dict := Keyed.ofList_items dict
    rwa [whole] at all
  rw [get?, found, Dict.get?]
  cases dict.find? key <;> rfl

end Entry

/-- What a hook records. What led to a dataset is a list of texts, if it is there. -/
structure Record where
  entry : Entry
  seenVia : entry.get? "seen_via" = none ∨ ∃ texts : List String, entry.get? "seen_via" = some (.list (texts.map .str))
  valid : ∀ key value, entry.get? key = some value → value.valid = true

structure Memory where
  datasets : List Record
  info : Entry

/-! `_merge_output`. -/

def datasetIdentity (entry : Entry) : Option Identity :=
  datasetIdentityKeys.mapM fun key => (entry.getD key .none).encode true

/-- Whether two objects are one text. -/
def alike : Object → Object → Bool
  | .str first, .str second => first = second
  | _, _ => false

def repeated (old entry : Entry) : Option Entry :=
  match old.getD "seen_via" (.list []), entry.getD "seen_via" (.list []) with
  | .list before, .list reported =>
    let seenVia := before ++ reported.filter fun via => !before.any (alike via)
    let updated := old.update entry
    some (if seenVia.isEmpty then updated else updated.set "seen_via" (.list seenVia))
  | _, _ => none

structure Merging where
  entries : List Entry
  byKey : Keyed (Prod.fst : Identity × Nat → Identity)

def Merging.start (existing : List Dict) : Option Merging := do
  let entries := existing.map Entry.ofDict
  let identities ← entries.mapM datasetIdentity
  return { entries := entries, byKey := Keyed.ofList identities.zipIdx }

def Merging.add (merging : Merging) (record : Record) : Option Merging := do
  let identity ← datasetIdentity record.entry
  match merging.byKey.find? identity with
  | none => return { entries := merging.entries ++ [record.entry]
                     byKey := merging.byKey.put (identity, merging.entries.length) }
  | some (_, i) => do
    let updated ← repeated (← merging.entries[i]?) record.entry
    return { merging with entries := merging.entries.set i updated }

def mergeDatasets (existing : List Dict) (data : List Record) : Option (List Entry) := do
  let start ← Merging.start existing
  let merging ← data.foldlM Merging.add start
  return merging.entries

def mergeInfo (existing : Dict) (info : Entry) : Entry :=
  let kept := if info.items.any fun entry => isGitKey entry.1 then
      Keyed.ofList (existing.items.filter fun entry => !isGitKey entry.1)
    else existing
  (Entry.ofDict kept).update info

/-! `json.dump`. -/

def encodeEntry (entry : Entry) : Option Dict :=
  (entry.items.mapM fun ((key, value) : String × Object) => (value.encode false).map fun text => (key, text)).map Keyed.ofList

def mergeExisting (existing : Dict) (data : List Record) : Option Value :=
  match existing.getD "datasets" (.list []) with
  | .list items => do
    let merged ← mergeDatasets (← entriesOf items) data
    let written ← merged.mapM encodeEntry
    return .list (written.map Value.ofDict)
  | .str "" => if data.isEmpty then some (.str "") else none
  | .dict [] => if data.isEmpty then some (.dict []) else none
  | _ => none

/-- What is written, unless something on the way raises. -/
def mergeOutput (existing : Value) (memory : Memory) : Option Value := do
  let existing ← existing.asDict
  let datasets ← mergeExisting existing memory.datasets
  let stored ← (existing.getD "runtime_info" (.dict [])).asDict
  let info ← encodeEntry (mergeInfo stored memory.info)
  return document datasets info

/-! `_flush`. -/

/-- What the output file holds. -/
inductive Content where
  | missing
  | unreadable
  | json (value : Value)

def Content.existing : Content → Value
  | .json value => value
  | _ => .dict []

def flush (old : Content) (memory : Memory) : Content :=
  if memory.datasets.isEmpty && memory.info.items.isEmpty then old
  else
    match mergeOutput old.existing memory with
    | some output => .json output
    | none => old

/-! What a file says. -/

def Content.datasets (content : Content) : List Dict :=
  match (content.existing.asDict.getD ∅).getD "datasets" (.list []) with
  | .list items => items.filterMap Value.asDict
  | _ => []

def Content.info (content : Content) : Dict :=
  ((content.existing.asDict.getD ∅).getD "runtime_info" (.dict [])).asDict.getD ∅

/-- The file has every dataset identity and every key of `runtime_info` that the process holds. -/
def Holds (content : Content) (memory : Memory) : Prop :=
  (∀ record ∈ memory.datasets, ∃ entry ∈ content.datasets,
    datasetIdentity record.entry = some (DetectionMerge.datasetIdentity entry)) ∧
  ∀ key, memory.info.get? key ≠ none → content.info.get? key ≠ none

/-! Writing one entry. -/

theorem find?_written {items : List (String × Object)} {texts : List (String × Value)}
    (done : (items.mapM fun ((key, value) : String × Object) => (value.encode false).map fun text => (key, text)) = some texts) :
    texts.map Prod.fst = items.map Prod.fst ∧ ∀ key, (texts.find? fun text => text.1 = key).map Prod.snd =
      ((items.find? fun item => item.1 = key).map Prod.snd).bind fun value => value.encode false := by
  induction items generalizing texts with
  | nil =>
    obtain rfl := Option.some.inj done
    exact ⟨rfl, fun key => rfl⟩
  | cons item rest ih =>
    obtain ⟨name, value⟩ := item
    rw [List.mapM_cons] at done
    obtain ⟨_, here, done⟩ := Option.bind_eq_some_iff.mp done
    obtain ⟨text, encoded, rfl⟩ := Option.map_eq_some_iff.mp here
    obtain ⟨others, later, done⟩ := Option.bind_eq_some_iff.mp done
    obtain rfl := Option.some.inj done
    obtain ⟨names, found⟩ := ih later
    refine ⟨by simp [names], fun key => ?_⟩
    by_cases same : name = key
    · simp [same, encoded]
    · simpa [same] using found key

theorem get?_encodeEntry {entry : Entry} {dict : Dict} (done : encodeEntry entry = some dict) (key : String) :
    dict.get? key = (entry.get? key).bind fun value => value.encode false := by
  obtain ⟨texts, written, rfl⟩ := Option.map_eq_some_iff.mp done
  obtain ⟨names, found⟩ := find?_written written
  have apart : (texts.map Prod.fst).Nodup := by
    rw [names]
    exact entry.distinct
  have items : (Keyed.ofList texts : Dict).items = texts := Keyed.items_putAll (by simpa using apart)
  rw [Dict.get?, Keyed.find?, items]
  exact found key

theorem isSome_encodeEntry_iff {entry : Entry} : (encodeEntry entry).isSome = true ↔
    ∀ key value, entry.get? key = some value → value.encodable false = true := by
  rw [encodeEntry, Option.isSome_map, List.isSome_mapM_iff]
  constructor
  · intro all key value found
    obtain ⟨item, here, rfl⟩ := Option.map_eq_some_iff.mp found
    have one := all item (Keyed.find?_some here).1
    rwa [Option.isSome_map, isSome_encode] at one
  · intro all item member
    rw [Option.isSome_map, isSome_encode]
    refine all item.1 item.2 ?_
    rw [Entry.get?, Keyed.find?_of_mem member]
    rfl

/-! Identities. -/

theorem datasetIdentity_eq_some_iff {entry : Entry} {identity : Identity} : datasetIdentity entry = some identity ↔
    datasetIdentityKeys.map (fun key => (entry.getD key .none).encode true) = identity.map some := List.mapM_eq_some_iff

theorem getD_ofDict (dict : Dict) (key : String) : (Entry.ofDict dict).getD key .none = .ofValue (dict.getD key .none) := by
  rw [Entry.getD, Entry.get?_ofDict, Dict.getD]
  cases dict.get? key <;> rfl

theorem datasetIdentity_ofDict (dict : Dict) :
    datasetIdentity (Entry.ofDict dict) = some (DetectionMerge.datasetIdentity dict) := by
  rw [datasetIdentity_eq_some_iff, DetectionMerge.datasetIdentity, List.map_map]
  refine List.map_congr_left fun key _ => ?_
  rw [getD_ofDict, encode_ofValue]
  rfl

/-- Both texts of a field say the same. -/
def Consistent (value : Object) : Prop :=
  ∀ sorted plain, value.encode true = some sorted → value.encode false = some plain → plain.sorted = sorted.sorted

theorem consistent_ofValue (value : Value) : Consistent (.ofValue value) := by
  intro sorted plain one two
  rw [encode_ofValue] at one two
  obtain rfl := Option.some.inj one
  obtain rfl := Option.some.inj two
  exact (sorted_sorted value).symm

theorem isSome_datasetIdentity_iff {entry : Entry} : (datasetIdentity entry).isSome = true ↔
    ∀ key ∈ datasetIdentityKeys, (entry.getD key .none).encodable true = true := by
  simp only [datasetIdentity, List.isSome_mapM_iff, isSome_encode]

/-- In what a dataset is known by, the keys of dictionaries are in the order of their texts. -/
def InOrder (entry : Entry) : Prop := ∀ key ∈ datasetIdentityKeys, (entry.getD key .none).ordered = true

theorem inOrder_iff {entry : Entry} {identity : Identity} (named : datasetIdentity entry = some identity) :
    InOrder entry ↔ identity.map Value.sorted = identity := by
  rw [datasetIdentity_eq_some_iff] at named
  have same : identity.map Value.sorted = identity ↔ ∀ text ∈ identity, text.sorted = text := by
    rw [← List.map_inj_left, List.map_id']
  rw [same]
  constructor
  · intro ordered text member
    obtain ⟨key, here, encoded⟩ := List.mem_map.mp (named ▸ List.mem_map_of_mem member)
    exact (sorted_eq_self_iff _ encoded).mpr (ordered key here)
  · intro sorted key member
    have within : (entry.getD key .none).encode true ∈ identity.map some := named ▸ List.mem_map_of_mem member
    obtain ⟨text, here, encoded⟩ := List.mem_map.mp within
    exact (sorted_eq_self_iff _ encoded.symm).mp (sorted text here)

theorem identity_written {entry : Entry} {dict : Dict} {identity : Identity} (named : datasetIdentity entry = some identity)
    (consistent : ∀ key ∈ datasetIdentityKeys, Consistent (entry.getD key .none)) (done : encodeEntry entry = some dict) :
    DetectionMerge.datasetIdentity dict = identity.map Value.sorted := by
  rw [datasetIdentity_eq_some_iff] at named
  have each (key : String) (member : key ∈ datasetIdentityKeys) :
      some (dict.getD key .none).sorted = ((entry.getD key .none).encode true).map Value.sorted := by
    have within : (entry.getD key .none).encode true ∈ identity.map some := named ▸ List.mem_map_of_mem member
    obtain ⟨text, -, encoded⟩ := List.mem_map.mp within
    have same := consistent key member
    rw [← encoded, Option.map_some, Dict.getD, get?_encodeEntry done]
    rw [Entry.getD] at same encoded
    cases found : entry.get? key with
    | none =>
      rw [found] at encoded
      obtain rfl : text = .none := by simpa [Object.encode] using encoded
      rfl
    | some value =>
      rw [found, Option.getD_some] at same encoded
      have one := isSome_encodeEntry_iff.mp (by rw [done]; rfl) key value found
      obtain ⟨plain, written⟩ := Option.isSome_iff_exists.mp ((isSome_encode false value).trans one)
      rw [Option.bind_some, written, Option.getD_some, same text plain encoded.symm written]
  refine List.map_injective_iff.mpr (Option.some_injective Value) ?_
  rw [DetectionMerge.datasetIdentity, List.map_map, List.map_map]
  calc datasetIdentityKeys.map (some ∘ fun key => (dict.getD key .none).sorted)
      = (datasetIdentityKeys.map fun key => (entry.getD key .none).encode true).map (Option.map Value.sorted) := by
        rw [List.map_map]
        exact List.map_congr_left each
    _ = identity.map (some ∘ Value.sorted) := by
        rw [named, List.map_map]
        rfl

theorem sorted_datasetIdentity (dict : Dict) :
    (DetectionMerge.datasetIdentity dict).map Value.sorted = DetectionMerge.datasetIdentity dict := by
  rw [DetectionMerge.datasetIdentity, List.map_map]
  exact List.map_congr_left fun key _ => sorted_sorted _

/-! A repeat of a stored entry. -/

section Repeats
variable {old entry updated : Entry} {key : String}

def Listed (entry : Entry) : Prop := ∃ items, entry.getD "seen_via" (.list []) = .list items

theorem Record.listed (record : Record) : Listed record.entry := by
  rcases record.seenVia with absent | ⟨texts, present⟩
  · exact ⟨[], by rw [Entry.getD, absent]; rfl⟩
  · exact ⟨texts.map .str, by rw [Entry.getD, present]; rfl⟩

theorem isSome_repeated_iff (record : Record) : (repeated old record.entry).isSome = true ↔ Listed old := by
  obtain ⟨reported, named⟩ := record.listed
  rw [repeated, named]
  constructor
  · intro done
    split at done
    · rename_i before reported first second
      exact ⟨before, first⟩
    · cases done
  · rintro ⟨before, first⟩
    rw [first]
    rfl

theorem get?_repeated (done : repeated old entry = some updated) (different : key ≠ "seen_via") :
    updated.get? key = (entry.get? key).or (old.get? key) := by
  simp only [repeated] at done
  split at done
  · obtain rfl := Option.some.inj done
    split
    · exact Entry.get?_update
    · rw [Entry.get?_set_of_ne different.symm, Entry.get?_update]
  · cases done

/-- A repeat of an entry has its identity. -/
theorem identity_repeated {identity : Identity} (done : repeated old entry = some updated)
    (stored : datasetIdentity old = some identity) (reported : datasetIdentity entry = some identity) :
    datasetIdentity updated = some identity := by
  rw [datasetIdentity_eq_some_iff] at stored reported ⊢
  have unseen : ∀ key ∈ datasetIdentityKeys, key ≠ "seen_via" := by decide
  have same : ∀ key ∈ datasetIdentityKeys, (old.getD key .none).encode true = (entry.getD key .none).encode true :=
    List.map_inj_left.mp (stored.trans reported.symm)
  refine (List.map_congr_left fun key member => ?_).trans reported
  have before := same key member
  rw [Entry.getD, get?_repeated done (unseen key member)]
  rw [Entry.getD, Entry.getD] at before
  cases found : entry.get? key with
  | some value => rw [Entry.getD, found, Option.some_or]
  | none =>
    rw [found] at before
    rw [Entry.getD, found, Option.none_or]
    exact before

/-- What led to a dataset can be written. -/
def SeenWritten (entry : Entry) : Prop := ∀ value, entry.get? "seen_via" = some value → value.encodable false = true

theorem Record.seenWritten (record : Record) : SeenWritten record.entry := by
  intro value found
  rcases record.seenVia with absent | ⟨texts, present⟩
  · rw [absent] at found
    cases found
  · rw [present] at found
    obtain rfl := Option.some.inj found
    refine encodable_list_iff.mpr fun item member => ?_
    obtain ⟨text, -, rfl⟩ := List.mem_map.mp member
    rfl

theorem seenWritten_ofDict (dict : Dict) : SeenWritten (Entry.ofDict dict) := by
  intro value found
  rw [Entry.get?_ofDict] at found
  obtain ⟨stored, -, rfl⟩ := Option.map_eq_some_iff.mp found
  exact encodable_ofValue false stored

theorem SeenWritten.items {items : List Object} (written : SeenWritten entry) (named : entry.getD "seen_via" (.list []) = .list items) :
    ∀ item ∈ items, item.encodable false = true := by
  rw [Entry.getD] at named
  cases found : entry.get? "seen_via" with
  | none =>
    rw [found] at named
    injection named with nothing
    subst nothing
    exact fun item member => absurd member List.not_mem_nil
  | some value =>
    rw [found, Option.getD_some] at named
    subst named
    exact encodable_list_iff.mp (written _ found)

theorem seen_repeated {record : Record} (done : repeated old record.entry = some updated) (written : SeenWritten old) :
    SeenWritten updated ∧ Listed updated := by
  have listed := (isSome_repeated_iff record).mp (by rw [done]; rfl)
  obtain ⟨before, first⟩ := listed
  obtain ⟨reported, second⟩ := record.listed
  have all : ∀ item ∈ before ++ reported.filter fun via => !before.any (alike via), item.encodable false = true := by
    intro item member
    rcases List.mem_append.mp member with old | new
    · exact written.items first item old
    · exact record.seenWritten.items second item (List.mem_filter.mp new).1
  simp only [repeated, first, second, Option.some.injEq] at done
  subst done
  split
  · constructor
    · intro value found
      rw [Entry.get?_update] at found
      cases here : record.entry.get? "seen_via" with
      | some own =>
        rw [here, Option.some_or] at found
        obtain rfl := Option.some.inj found
        exact record.seenWritten own here
      | none =>
        rw [here, Option.none_or] at found
        exact written value found
    · rw [Listed, Entry.getD, Entry.get?_update]
      rw [Entry.getD] at first second
      cases here : record.entry.get? "seen_via" with
      | some own =>
        rw [here] at second
        exact ⟨reported, second⟩
      | none =>
        rw [Option.none_or]
        exact ⟨before, first⟩
  · constructor
    · intro value found
      rw [Entry.get?_set_self] at found
      obtain rfl := Option.some.inj found
      exact encodable_list_iff.mpr all
    · exact ⟨_, by rw [Entry.getD, Entry.get?_set_self]; rfl⟩

end Repeats

/-! The merged list. -/

/-- The last value that the process reports for a field of a dataset. -/
def latest (key : String) (identity : Identity) (data : List Record) : Option Object :=
  data.foldl (fun found record =>
    if datasetIdentity record.entry = some identity then (record.entry.get? key).or found else found) none

theorem latest_append (key : String) (identity : Identity) (data : List Record) (record : Record) :
    latest key identity (data ++ [record]) =
      if datasetIdentity record.entry = some identity then (record.entry.get? key).or (latest key identity data)
      else latest key identity data := by
  rw [latest, List.foldl_append]
  rfl

/-- The entry of the file that repeats of the identity go to. -/
def storedFor (identity : Identity) (existing : List Dict) : Option Dict :=
  existing.reverse.find? fun entry => DetectionMerge.datasetIdentity entry = identity

/-- What the file has for the entry of that number. -/
def stored (existing : List Dict) (i : Nat) : Entry := ((existing[i]?).map Entry.ofDict).getD ∅

/-- The entry of an identity, after some records were merged. -/
structure Found (existing : List Dict) (done : List Record) (identity : Identity) (i : Nat) (entry : Entry) : Prop where
  named : datasetIdentity entry = some identity
  consistent : ∀ key ∈ datasetIdentityKeys, Consistent (entry.getD key .none)
  fields : ∀ key ≠ "seen_via", entry.get? key = (latest key identity done).or ((stored existing i).get? key)
  seen : SeenWritten entry
  listed : Listed entry ∧ (∀ old, storedFor identity existing = some old → Listed (Entry.ofDict old)) ∨
    (storedFor identity existing).map Entry.ofDict = some entry

structure Kept (existing : List Dict) (done : List Record) (merging : Merging) : Prop where
  found : ∀ identity name i, merging.byKey.find? identity = some (name, i) →
    ∃ entry, merging.entries[i]? = some entry ∧ Found existing done identity i entry
  other : ∀ i entry, merging.entries[i]? = some entry →
    (∃ identity name, merging.byKey.find? identity = some (name, i)) ∨ (existing[i]?).map Entry.ofDict = some entry
  reported : ∀ record ∈ done, ∃ identity place, datasetIdentity record.entry = some identity ∧
    merging.byKey.find? identity = some place
  fresh : ∀ identity, merging.byKey.find? identity = none → storedFor identity existing = none ∧ ∀ key, latest key identity done = none
  size : existing.length ≤ merging.entries.length

/-- A record that is merged without an exception. -/
structure Passes (existing : List Dict) (record : Record) : Prop where
  fields : ∀ key ∈ datasetIdentityKeys, (record.entry.getD key .none).encodable true = true
  stored : ∀ identity old, datasetIdentity record.entry = some identity → storedFor identity existing = some old →
    Listed (Entry.ofDict old)

theorem passes_iff {existing : List Dict} {record : Record} {identity : Identity}
    (named : datasetIdentity record.entry = some identity) :
    Passes existing record ↔ ∀ old, storedFor identity existing = some old → Listed (Entry.ofDict old) := by
  constructor
  · exact fun passes old => passes.stored identity old named
  · refine fun all => ⟨isSome_datasetIdentity_iff.mp (by rw [named]; rfl), fun other old same => ?_⟩
    obtain rfl := Option.some.inj (named.symm.trans same)
    exact all old

section Steps
variable {existing : List Dict} {done : List Record} {merging next : Merging} {record : Record} {identity : Identity}
  {i : Nat} {entry : Entry}

theorem Record.consistent (record : Record) (key : String) : Consistent (record.entry.getD key .none) := by
  intro sorted plain one two
  rw [Entry.getD] at one two
  cases found : record.entry.get? key with
  | none =>
    rw [found] at one two
    obtain rfl := Option.some.inj one
    obtain rfl := Option.some.inj two
    rfl
  | some value =>
    rw [found, Option.getD_some] at one two
    exact sorted_encode value (record.valid key value found) one two

theorem Found.listed_iff (found : Found existing done identity i entry) :
    Listed entry ↔ ∀ old, storedFor identity existing = some old → Listed (Entry.ofDict old) := by
  rcases found.listed with ⟨listed, all⟩ | same
  · exact ⟨fun _ => all, fun _ => listed⟩
  · obtain ⟨old, here, rfl⟩ := Option.map_eq_some_iff.mp same
    constructor
    · intro listed other there
      obtain rfl := Option.some.inj (here.symm.trans there)
      exact listed
    · exact fun all => all old here

/-- What other records do to an entry. -/
theorem Found.unrelated (found : Found existing done identity i entry) (different : datasetIdentity record.entry ≠ some identity) :
    Found existing (done ++ [record]) identity i entry := by
  refine { found with fields := fun key special => ?_ }
  rw [latest_append, if_neg different]
  exact found.fields key special

theorem Found.repeated {updated : Entry} (found : Found existing done identity i entry)
    (named : datasetIdentity record.entry = some identity) (updates : UnusualData.repeated entry record.entry = some updated) :
    Found existing (done ++ [record]) identity i updated := by
  obtain ⟨seen, listed⟩ := seen_repeated updates found.seen
  have passes := found.listed_iff.mp ((isSome_repeated_iff record).mp (by rw [updates]; rfl))
  have unseen : ∀ key ∈ datasetIdentityKeys, key ≠ "seen_via" := by decide
  refine ⟨identity_repeated updates found.named named, fun key member => ?_, fun key special => ?_, seen, Or.inl ⟨listed, passes⟩⟩
  · rw [Entry.getD, get?_repeated updates (unseen key member)]
    cases reported : record.entry.get? key with
    | none => exact found.consistent key member
    | some value =>
      have own := record.consistent key
      rwa [Entry.getD, reported] at own
  · rw [get?_repeated updates special, latest_append, if_pos named, Option.or_assoc, found.fields key special]

theorem Kept.append (kept : Kept existing done merging) (named : datasetIdentity record.entry = some identity)
    (missing : merging.byKey.find? identity = none) : Kept existing (done ++ [record])
      { entries := merging.entries ++ [record.entry]
        byKey := merging.byKey.put (identity, merging.entries.length) } := by
  obtain ⟨unstored, unreported⟩ := kept.fresh identity missing
  have nothing : stored existing merging.entries.length = ∅ := by
    rw [stored, List.getElem?_eq_none kept.size]
    rfl
  have unlike {other : Identity} (different : identity ≠ other) : datasetIdentity record.entry ≠ some other :=
    fun same => different (Option.some.inj (named.symm.trans same))
  refine ⟨fun other name j here => ?_, fun j found here => ?_, fun reported member => ?_, fun other absent => ?_, ?_⟩
  · rw [Keyed.find?_put] at here
    by_cases same : identity = other
    · subst same
      simp only [if_true, Option.some.injEq, Prod.mk.injEq] at here
      obtain ⟨-, rfl⟩ := here
      refine ⟨record.entry, by simp, named, fun key _ => record.consistent key, fun key _ => ?_, record.seenWritten,
        Or.inl ⟨record.listed, fun old there => ?_⟩⟩
      · rw [latest_append, if_pos named, unreported, nothing, Option.or_none]
        exact Option.or_none.symm
      · rw [unstored] at there
        cases there
    · simp only [same, if_false] at here
      obtain ⟨found, inside, old⟩ := kept.found other name j here
      refine ⟨found, ?_, old.unrelated (unlike same)⟩
      rw [List.getElem?_append_left (List.getElem?_eq_some_iff.mp inside).1, inside]
  · by_cases inside : j < merging.entries.length
    · rw [List.getElem?_append_left inside] at here
      refine (kept.other j found here).imp_left ?_
      rintro ⟨other, name, there⟩
      refine ⟨other, name, ?_⟩
      have different : identity ≠ other := by
        rintro rfl
        rw [missing] at there
        cases there
      rw [Keyed.find?_put, if_neg different, there]
    · have last : j = merging.entries.length := by
        have bound := (List.getElem?_eq_some_iff.mp here).1
        rw [List.length_append, List.length_singleton] at bound
        omega
      subst last
      exact Or.inl ⟨identity, identity, by simp [Keyed.find?_put]⟩
  · rcases List.mem_append.mp member with before | last
    · obtain ⟨other, place, same, there⟩ := kept.reported reported before
      have different : identity ≠ other := by
        rintro rfl
        rw [missing] at there
        cases there
      exact ⟨other, place, same, by rw [Keyed.find?_put, if_neg different, there]⟩
    · obtain rfl := List.mem_singleton.mp last
      exact ⟨identity, _, named, by rw [Keyed.find?_put, if_pos rfl]⟩
  · rw [Keyed.find?_put] at absent
    by_cases same : identity = other
    · simp [same] at absent
    · rw [if_neg same] at absent
      obtain ⟨old, before⟩ := kept.fresh other absent
      refine ⟨old, fun key => ?_⟩
      rw [latest_append, if_neg (unlike same), before]
  · rw [List.length_append]
    exact Nat.le_add_right_of_le kept.size

theorem Kept.repeated {name : Identity} {updated : Entry} (kept : Kept existing done merging)
    (named : datasetIdentity record.entry = some identity) (place : merging.byKey.find? identity = some (name, i))
    (here : merging.entries[i]? = some entry) (found : Found existing done identity i entry)
    (updates : UnusualData.repeated entry record.entry = some updated) :
    Kept existing (done ++ [record]) { merging with entries := merging.entries.set i updated } := by
  have inside := (List.getElem?_eq_some_iff.mp here).1
  have unlike {other : Identity} (different : identity ≠ other) : datasetIdentity record.entry ≠ some other :=
    fun same => different (Option.some.inj (named.symm.trans same))
  refine ⟨fun other name' j there => ?_, fun j old there => ?_, fun reported member => ?_, fun other absent => ?_, ?_⟩
  · obtain ⟨old, before, known⟩ := kept.found other name' j there
    by_cases same : i = j
    · subst same
      obtain rfl := Option.some.inj (here.symm.trans before)
      obtain rfl := Option.some.inj (found.named.symm.trans known.named)
      exact ⟨updated, List.getElem?_set_self inside, found.repeated named updates⟩
    · have different : identity ≠ other := by
        rintro rfl
        rw [place] at there
        simp only [Option.some.injEq, Prod.mk.injEq] at there
        exact same there.2
      exact ⟨old, (List.getElem?_set_ne same).trans before, known.unrelated (unlike different)⟩
  · by_cases same : i = j
    · subst same
      exact Or.inl ⟨identity, name, place⟩
    · exact kept.other j old ((List.getElem?_set_ne same).symm.trans there)
  · rcases List.mem_append.mp member with before | last
    · exact kept.reported reported before
    · obtain rfl := List.mem_singleton.mp last
      exact ⟨identity, _, named, place⟩
  · have different : identity ≠ other := by
      rintro rfl
      rw [place] at absent
      cases absent
    obtain ⟨old, before⟩ := kept.fresh other absent
    refine ⟨old, fun key => ?_⟩
    rw [latest_append, if_neg (unlike different), before]
  · rw [List.length_set]
    exact kept.size

/-- One record: it is merged exactly when it passes, and the merged list is kept in order. -/
theorem Kept.add (kept : Kept existing done merging) (record : Record) :
    ((merging.add record).isSome = true ↔ Passes existing record) ∧
      ∀ next, merging.add record = some next → Kept existing (done ++ [record]) next := by
  cases named : datasetIdentity record.entry with
  | none =>
    have failed : merging.add record = none := by simp [Merging.add, named]
    rw [failed]
    refine ⟨⟨fun passed => ?_, fun passes => ?_⟩, fun next same => ?_⟩
    · cases passed
    · have done := isSome_datasetIdentity_iff.mpr passes.fields
      rw [named] at done
      cases done
    · cases same
  | some identity =>
    rw [passes_iff named]
    cases place : merging.byKey.find? identity with
    | none =>
      have added : merging.add record = some { entries := merging.entries ++ [record.entry]
                                               byKey := merging.byKey.put (identity, merging.entries.length) } := by
        simp [Merging.add, named, place]
      rw [added]
      refine ⟨⟨fun _ old there => ?_, fun _ => rfl⟩, fun next same => ?_⟩
      · rw [(kept.fresh identity place).1] at there
        cases there
      · exact Option.some.inj same ▸ kept.append named place
    | some found =>
      obtain ⟨name, i⟩ := found
      obtain ⟨entry, here, found⟩ := kept.found identity name i place
      have added : merging.add record = (UnusualData.repeated entry record.entry).map fun updated =>
          { merging with entries := merging.entries.set i updated } := by
        simp only [Merging.add, named, place, here, Option.bind_eq_bind, Option.bind_some]
        cases UnusualData.repeated entry record.entry <;> rfl
      rw [added, Option.isSome_map, isSome_repeated_iff, found.listed_iff]
      refine ⟨Iff.rfl, fun next same => ?_⟩
      · obtain ⟨updated, updates, rfl⟩ := Option.map_eq_some_iff.mp same
        exact kept.repeated named place here found updates

theorem Kept.run (kept : Kept existing done merging) (data : List Record) :
    ((data.foldlM Merging.add merging).isSome = true ↔ ∀ record ∈ data, Passes existing record) ∧
      ∀ last, data.foldlM Merging.add merging = some last → Kept existing (done ++ data) last := by
  induction data generalizing done merging with
  | nil =>
    refine ⟨⟨fun _ record member => absurd member List.not_mem_nil, fun _ => rfl⟩, fun last same => ?_⟩
    rw [List.append_nil]
    exact Option.some.inj same ▸ kept
  | cons record rest ih =>
    obtain ⟨passes, after⟩ := kept.add record
    rw [List.foldlM_cons, List.forall_mem_cons, ← passes]
    cases added : merging.add record with
    | none =>
      refine ⟨⟨fun passed => ?_, fun both => ?_⟩, fun last same => ?_⟩
      · cases passed
      · cases both.1
      · cases same
    | some next =>
      obtain ⟨later, reached⟩ := ih (after next added)
      rw [List.append_assoc] at reached
      refine ⟨⟨fun done => ⟨rfl, later.mp done⟩, fun all => later.mpr all.2⟩, reached⟩

theorem find?_start (existing : List Dict) (identity : Identity) :
    (Keyed.ofList (identities existing).zipIdx : Keyed (Prod.fst : Identity × Nat → Identity)).find? identity =
      (existing.zipIdx.reverse.find? fun entry => DetectionMerge.datasetIdentity entry.1 = identity).map
        fun entry => (DetectionMerge.datasetIdentity entry.1, entry.2) := by
  rw [Keyed.ofList, Keyed.find?_putAll_reverse, identities, List.zipIdx_map, ← List.map_reverse, List.find?_map]
  exact Option.or_none

theorem storedFor_eq (existing : List Dict) (identity : Identity) : storedFor identity existing =
    (existing.zipIdx.reverse.find? fun entry => DetectionMerge.datasetIdentity entry.1 = identity).map Prod.fst := by
  have whole : existing.reverse = existing.zipIdx.reverse.map Prod.fst := by
    rw [List.map_reverse, List.zipIdx_map_fst]
  rw [storedFor, whole, List.find?_map]
  rfl

theorem start_eq (existing : List Dict) : Merging.start existing =
    some { entries := existing.map Entry.ofDict, byKey := Keyed.ofList (identities existing).zipIdx } := by
  have named : (existing.map Entry.ofDict).mapM datasetIdentity = some (identities existing) := by
    rw [List.mapM_eq_some_iff, List.map_map, identities, List.map_map]
    exact List.map_congr_left fun entry _ => datasetIdentity_ofDict entry
  simp [Merging.start, named]

theorem Kept.start (existing : List Dict) : Kept existing []
    { entries := existing.map Entry.ofDict, byKey := Keyed.ofList (identities existing).zipIdx } := by
  refine ⟨fun identity name i here => ?_, fun i entry here => ?_, fun record member => absurd member List.not_mem_nil,
    fun identity absent => ?_, by simp⟩
  · rw [find?_start] at here
    obtain ⟨⟨entry, j⟩, found, same⟩ := Option.map_eq_some_iff.mp here
    simp only [Prod.mk.injEq] at same
    obtain ⟨rfl, rfl⟩ := same
    have holds := List.find?_some found
    obtain rfl : DetectionMerge.datasetIdentity entry = identity := by simpa using holds
    have position : existing[j]? = some entry :=
      List.mem_zipIdx_iff_getElem?.mp (List.mem_reverse.mp (List.mem_of_find?_eq_some found))
    refine ⟨Entry.ofDict entry, by simp [position], datasetIdentity_ofDict entry, fun key _ => ?_, fun key _ => ?_,
      seenWritten_ofDict entry, Or.inr ?_⟩
    · rw [getD_ofDict]
      exact consistent_ofValue _
    · simp [stored, position, latest]
    · rw [storedFor_eq, found]
      rfl
  · rw [List.getElem?_map] at here
    exact Or.inr here
  · rw [find?_start, Option.map_eq_none_iff] at absent
    refine ⟨?_, fun key => rfl⟩
    rw [storedFor_eq, absent]
    rfl

end Steps

/-! What can be written. -/

/-- Records that can be merged into the entries of a file, and their values written. -/
structure Mergeable (existing : List Dict) (data : List Record) : Prop where
  passes : ∀ record ∈ data, Passes existing record
  written : ∀ identity key value, key ≠ "seen_via" → latest key identity data = some value → value.encodable false = true

/-- The entries of a file are dictionaries, or there is nothing to add to them and nothing to go through. -/
def Extendable (dict : Dict) (data : List Record) : Prop :=
  (∃ items existing, dict.getD "datasets" (.list []) = .list items ∧ entriesOf items = some existing ∧ Mergeable existing data) ∨
    data = [] ∧ (dict.getD "datasets" (.list []) = .str "" ∨ dict.getD "datasets" (.list []) = .dict [])

structure Writable (existing : Value) (memory : Memory) : Prop where
  file : ∃ dict, existing.asDict = some dict ∧ ((dict.getD "runtime_info" (.dict [])).asDict).isSome = true ∧
    Extendable dict memory.datasets
  info : ∀ key value, memory.info.get? key = some value → value.encodable false = true

section Output
variable {existing : List Dict} {data : List Record} {dict : Dict} {memory : Memory}

theorem encodable_ofDict {key : String} {value : Object} (found : (Entry.ofDict dict).get? key = some value) :
    value.encodable false = true := by
  rw [Entry.get?_ofDict] at found
  obtain ⟨stored, -, rfl⟩ := Option.map_eq_some_iff.mp found
  exact encodable_ofValue false stored

theorem encodable_stored {i : Nat} {key : String} {value : Object} (found : (stored existing i).get? key = some value) :
    value.encodable false = true := by
  rw [stored] at found
  cases here : existing[i]? with
  | none =>
    rw [here] at found
    cases found
  | some dict =>
    rw [here] at found
    exact encodable_ofDict found

theorem Kept.written_iff {last : Merging} (kept : Kept existing data last) : (last.entries.mapM encodeEntry).isSome = true ↔
    ∀ identity key value, key ≠ "seen_via" → latest key identity data = some value → value.encodable false = true := by
  rw [List.isSome_mapM_iff]
  constructor
  · intro all identity key value special reported
    cases place : last.byKey.find? identity with
    | none =>
      rw [(kept.fresh identity place).2 key] at reported
      cases reported
    | some found =>
      obtain ⟨entry, here, found⟩ := kept.found identity found.1 found.2 place
      refine isSome_encodeEntry_iff.mp (all entry (List.mem_of_getElem? here)) key value ?_
      rw [found.fields key special, reported, Option.some_or]
  · intro all entry member
    obtain ⟨i, here⟩ := List.mem_iff_getElem?.mp member
    refine isSome_encodeEntry_iff.mpr fun key value present => ?_
    rcases kept.other i entry here with ⟨identity, name, place⟩ | same
    · obtain ⟨other, there, found⟩ := kept.found identity name i place
      obtain rfl := Option.some.inj (here.symm.trans there)
      by_cases special : key = "seen_via"
      · subst special
        exact found.seen value present
      · rw [found.fields key special] at present
        cases reported : latest key identity data with
        | some own =>
          rw [reported, Option.some_or] at present
          exact all identity key value special (reported.trans present)
        | none =>
          rw [reported, Option.none_or] at present
          exact encodable_stored present
    · obtain ⟨dict, -, rfl⟩ := Option.map_eq_some_iff.mp same
      exact encodable_ofDict present

theorem isSome_mergeDatasets_iff : ((mergeDatasets existing data).bind fun merged => merged.mapM encodeEntry).isSome = true ↔
    Mergeable existing data := by
  obtain ⟨passes, reached⟩ := (Kept.start existing).run data
  simp only [mergeDatasets, start_eq, Option.bind_eq_bind, Option.bind_some]
  cases run : data.foldlM Merging.add
      { entries := existing.map Entry.ofDict, byKey := Keyed.ofList (identities existing).zipIdx } with
  | none =>
    rw [run] at passes
    exact ⟨nofun, fun mergeable => nomatch passes.mpr mergeable.passes⟩
  | some last =>
    rw [run] at passes
    have written := (reached last run).written_iff
    simp only [Option.bind_some, Option.pure_def]
    rw [written]
    exact ⟨fun all => ⟨passes.mp rfl, all⟩, fun mergeable => mergeable.written⟩

theorem isSome_mergeExisting_iff : (mergeExisting dict data).isSome = true ↔ Extendable dict data := by
  rw [mergeExisting, Extendable]
  cases shape : dict.getD "datasets" (.list []) with
  | list items =>
    cases read : entriesOf items with
    | none =>
      constructor
      · intro done
        simp [read] at done
      · rintro (⟨others, existing, same, all, -⟩ | ⟨-, same | same⟩)
        · injection same with same
          rw [← same, read] at all
          cases all
        · cases same
        · cases same
    | some existing =>
      have written : (do
          let merged ← mergeDatasets (← entriesOf items) data
          let written ← merged.mapM encodeEntry
          return Value.list (written.map Value.ofDict)).isSome = true ↔ Mergeable existing data := by
        rw [← isSome_mergeDatasets_iff, read]
        simp only [Option.bind_eq_bind, Option.bind_some, Option.pure_def]
        cases mergeDatasets existing data with
        | none => rfl
        | some merged =>
          simp only [Option.bind_some]
          cases merged.mapM encodeEntry <;> rfl
      refine written.trans ⟨fun mergeable => Or.inl ⟨items, existing, rfl, read, mergeable⟩, ?_⟩
      rintro (⟨others, stored, same, all, mergeable⟩ | ⟨-, same | same⟩)
      · injection same with same
        rw [← same, read] at all
        obtain rfl := Option.some.inj all
        exact mergeable
      · cases same
      · cases same
  | str text =>
    by_cases empty : text = ""
    · subst empty
      cases data <;> simp
    · simp [empty]
  | dict entries =>
    cases entries with
    | nil => cases data <;> simp
    | cons entry rest => simp
  | _ => simp

theorem isSome_mergeInfo_iff {stored : Dict} {info : Entry} : (encodeEntry (mergeInfo stored info)).isSome = true ↔
    ∀ key value, info.get? key = some value → value.encodable false = true := by
  rw [isSome_encodeEntry_iff, mergeInfo]
  constructor
  · intro all key value found
    refine all key value ?_
    rw [Entry.get?_update, found, Option.some_or]
  · intro all key value found
    rw [Entry.get?_update] at found
    cases own : info.get? key with
    | some mine =>
      rw [own, Option.some_or] at found
      exact all key value (own.trans found)
    | none =>
      rw [own, Option.none_or] at found
      exact encodable_ofDict found

theorem isSome_mergeOutput_iff {old : Value} : (mergeOutput old memory).isSome = true ↔ Writable old memory := by
  rw [mergeOutput]
  cases whole : old.asDict with
  | none => exact ⟨nofun, fun ⟨⟨dict, same, _⟩, _⟩ => by rw [whole] at same; cases same⟩
  | some dict =>
    have parts : Writable old memory ↔ ((dict.getD "runtime_info" (.dict [])).asDict).isSome = true ∧
        Extendable dict memory.datasets ∧ ∀ key value, memory.info.get? key = some value → value.encodable false = true := by
      constructor
      · rintro ⟨⟨other, same, stored, extendable⟩, info⟩
        obtain rfl := Option.some.inj (whole.symm.trans same)
        exact ⟨stored, extendable, info⟩
      · rintro ⟨stored, extendable, info⟩
        exact ⟨⟨dict, whole, stored, extendable⟩, info⟩
    rw [parts, ← isSome_mergeExisting_iff]
    simp only [Option.bind_eq_bind, Option.bind_some]
    cases stored : (dict.getD "runtime_info" (.dict [])).asDict with
    | none => cases mergeExisting dict memory.datasets <;> exact ⟨nofun, fun all => nomatch all.1⟩
    | some info =>
      rw [← isSome_mergeInfo_iff]
      cases mergeExisting dict memory.datasets with
      | none => exact ⟨nofun, fun all => nomatch all.2.1⟩
      | some datasets =>
        simp only [Option.bind_some]
        cases encodeEntry (mergeInfo info memory.info) with
        | none => exact ⟨nofun, fun all => nomatch all.2.2⟩
        | some written => exact ⟨fun _ => ⟨rfl, rfl, rfl⟩, fun _ => rfl⟩

theorem mergeDatasets_eq_some {merged : List Entry} (done : mergeDatasets existing data = some merged) :
    ∃ last : Merging, last.entries = merged ∧ Kept existing data last := by
  simp only [mergeDatasets, start_eq, Option.bind_eq_bind, Option.bind_some] at done
  obtain ⟨last, reached, same⟩ := Option.bind_eq_some_iff.mp done
  exact ⟨last, Option.some.inj same, ((Kept.start existing).run data).2 last reached⟩

/-- The datasets that are written have the identities of the records. -/
theorem identity_mergeDatasets {merged : List Entry} {written : List Dict} {record : Record}
    (done : mergeDatasets existing data = some merged) (encoded : merged.mapM encodeEntry = some written)
    (member : record ∈ data) : ∃ entry ∈ written, ∃ identity, datasetIdentity record.entry = some identity ∧
      DetectionMerge.datasetIdentity entry = identity.map Value.sorted := by
  obtain ⟨last, rfl, kept⟩ := mergeDatasets_eq_some done
  obtain ⟨identity, place, named, stored⟩ := kept.reported record member
  obtain ⟨entry, here, found⟩ := kept.found identity place.1 place.2 stored
  have each := List.mapM_eq_some_iff.mp encoded
  have within : encodeEntry entry ∈ written.map some := each ▸ List.mem_map_of_mem (List.mem_of_getElem? here)
  obtain ⟨dict, present, same⟩ := List.mem_map.mp within
  exact ⟨dict, present, identity, named, identity_written found.named found.consistent same.symm⟩

theorem identity_mergeExisting {datasets : Value} {record : Record} (done : mergeExisting dict data = some datasets)
    (member : record ∈ data) : ∃ written : List Dict, datasets = .list (written.map Value.ofDict) ∧
      ∃ entry ∈ written, ∃ identity, datasetIdentity record.entry = some identity ∧
        DetectionMerge.datasetIdentity entry = identity.map Value.sorted := by
  have more : data.isEmpty = false := List.isEmpty_eq_false_iff_exists_mem.mpr ⟨record, member⟩
  rw [mergeExisting] at done
  split at done
  · obtain ⟨entries, -, done⟩ := Option.bind_eq_some_iff.mp done
    obtain ⟨merged, merges, done⟩ := Option.bind_eq_some_iff.mp done
    obtain ⟨written, encoded, done⟩ := Option.bind_eq_some_iff.mp done
    exact ⟨written, (Option.some.inj done).symm, identity_mergeDatasets merges encoded member⟩
  · simp [more] at done
  · simp [more] at done
  · cases done

theorem get?_mergeInfo {stored written : Dict} {info : Entry} {key : String}
    (done : encodeEntry (mergeInfo stored info) = some written) (held : info.get? key ≠ none) : written.get? key ≠ none := by
  obtain ⟨value, found⟩ := Option.ne_none_iff_exists'.mp held
  have encoded := isSome_mergeInfo_iff.mp (by rw [done]; rfl) key value found
  rw [get?_encodeEntry done, mergeInfo, Entry.get?_update, found, Option.some_or, Option.bind_some]
  exact Option.isSome_iff_ne_none.mp ((isSome_encode false value).trans encoded)

end Output

/-! What a flush leaves in the file. -/

section Flushes
variable {old : Value} {output : Value} {content : Content} {memory : Memory}

theorem Holds.inOrder (holds : Holds content memory) : ∀ record ∈ memory.datasets, InOrder record.entry := by
  intro record member
  obtain ⟨entry, -, named⟩ := holds.1 record member
  exact (inOrder_iff named).mpr (sorted_datasetIdentity entry)

theorem Holds.empty (noDatasets : memory.datasets = []) (noInfo : memory.info.items = []) : Holds content memory := by
  constructor
  · rw [noDatasets]
    exact fun record member => absurd member List.not_mem_nil
  · intro key held
    have nothing : memory.info.get? key = none := by rw [Entry.get?, Keyed.find?, noInfo]; rfl
    exact absurd nothing held

theorem datasets_json {dict : Dict} {written : List Dict} (read : output.asDict = some dict)
    (named : dict.getD "datasets" (.list []) = .list (written.map Value.ofDict)) : (Content.json output).datasets = written := by
  simp only [Content.datasets, Content.existing, read, Option.getD_some, named, List.filterMap_map]
  have all : (Value.asDict ∘ Value.ofDict) = some := funext fun entry => asDict_ofDict
  rw [all, List.filterMap_some]

/-- What is written has every detection of the process, if their keys are in order. -/
theorem holds_mergeOutput_iff (done : mergeOutput old memory = some output) :
    Holds (.json output) memory ↔ ∀ record ∈ memory.datasets, InOrder record.entry := by
  refine ⟨Holds.inOrder, fun ordered => ?_⟩
  obtain ⟨existing, -, done⟩ := Option.bind_eq_some_iff.mp done
  obtain ⟨datasets, merged, done⟩ := Option.bind_eq_some_iff.mp done
  obtain ⟨stored, -, done⟩ := Option.bind_eq_some_iff.mp done
  obtain ⟨info, informed, done⟩ := Option.bind_eq_some_iff.mp done
  obtain rfl := Option.some.inj done
  obtain ⟨dict, read, listed, described⟩ := document_datasets datasets info
  constructor
  · intro record member
    obtain ⟨written, rfl, entry, present, identity, named, same⟩ := identity_mergeExisting merged member
    rw [datasets_json read listed]
    refine ⟨entry, present, ?_⟩
    rw [same, (inOrder_iff named).mp (ordered record member), named]
  · intro key held
    have whole : (Content.json (document datasets info)).info = info := by
      simp only [Content.info, Content.existing, read, Option.getD_some, described]
    rw [whole]
    exact get?_mergeInfo informed held

/-- A flush leaves everything that the process holds in the file exactly when nothing on the way
raises and no dictionary of an identity comes back in another order, or the file had it all before. -/
theorem keeps_detections_iff (old : Content) (memory : Memory) : Holds (flush old memory) memory ↔
    (Writable old.existing memory ∧ ∀ record ∈ memory.datasets, InOrder record.entry) ∨ Holds old memory := by
  rw [flush]
  split
  · rename_i nothing
    rw [Bool.and_eq_true, List.isEmpty_iff, List.isEmpty_iff] at nothing
    have holds : Holds old memory := Holds.empty nothing.1 nothing.2
    exact ⟨fun _ => Or.inr holds, fun _ => holds⟩
  · rw [← isSome_mergeOutput_iff]
    cases merged : mergeOutput old.existing memory with
    | none =>
      refine ⟨Or.inr, fun either => either.resolve_left ?_⟩
      exact fun both => nomatch both.1
    | some output =>
      rw [holds_mergeOutput_iff merged]
      refine ⟨fun ordered => Or.inl ⟨rfl, ordered⟩, ?_⟩
      rintro (⟨-, ordered⟩ | holds)
      · exact ordered
      · exact holds.inOrder

end Flushes

theorem Entry.valid_of_items {entry : Entry} (all : (entry.items.all fun item => item.2.valid) = true) :
    ∀ key value, entry.get? key = some value → value.valid = true := by
  intro key value found
  obtain ⟨item, here, rfl⟩ := Option.map_eq_some_iff.mp found
  exact List.all_eq_true.mp all item (Keyed.find?_some here).1

/-- A dataset that was loaded by its name. -/
def loadedByName : Record where
  entry := Keyed.ofList [("source", .str "datasets.load_dataset"), ("dataset_name", .str "imdb")]
  seenVia := Or.inl rfl
  valid := Entry.valid_of_items (by decide)

/-- One that was loaded from the files of a split, which is named by no text. -/
def loadedBySplit : Record where
  entry := Keyed.ofList [("source", .str "datasets.load_dataset"), ("dataset_name", .str "csv"),
    ("data_files", .dict [(.other, .str "train.csv")])]
  seenVia := Or.inl rfl
  valid := Entry.valid_of_items (by decide)

theorem split_loses_the_rest : ¬∀ old memory, Holds (flush old memory) memory := by
  intro all
  have lost : flush .missing { datasets := [loadedByName, loadedBySplit], info := ∅ } = .missing := rfl
  have holds := all .missing { datasets := [loadedByName, loadedBySplit], info := ∅ }
  rw [lost] at holds
  obtain ⟨entry, here, -⟩ := holds.1 loadedByName List.mem_cons_self
  exact absurd here List.not_mem_nil

end AibomWebhook.UnusualData
