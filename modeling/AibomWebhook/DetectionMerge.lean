import AibomWebhook.Library.PyValue

/-! What a flush of the runtime detector makes of the detection file and of its own
detections (scripts/aibom-scripts/runtime_detector.py, `_merge_output`). -/

namespace AibomWebhook.DetectionMerge
open PyValue

def datasetIdentityKeys : List String :=
  ["dataset_name", "source", "config_name", "split", "revision", "data_files", "data_dir", "root", "path"]

/-- The text of a list is that of its items, so the list of the sorted values stands for it. -/
abbrev Identity := List Value

def datasetIdentity (entry : Dict) : Identity :=
  datasetIdentityKeys.map fun key => (entry.getD key .none).sorted

/-- A repeat of a stored entry. Without a result, the source raises. -/
def repeated (old entry : Dict) : Option Dict :=
  match old.getD "seen_via" (.list []), (entry.getD "seen_via" (.list [])).iterate with
  | .list before, some reported =>
    let seenVia := before ++ reported.filter fun via => !via.isIn before
    let updated := old.update entry
    some (if seenVia.isEmpty then updated else updated.set "seen_via" (.list seenVia))
  | _, _ => none

/-- The stored entries, and where `by_key` finds the one of an identity. -/
structure Merging where
  entries : List Dict
  byKey : Keyed (Prod.fst : Identity × Nat → Identity)

def Merging.start (existing : List Dict) : Merging where
  entries := existing
  byKey := Keyed.ofList (existing.zipIdx.map fun (entry, i) => (datasetIdentity entry, i))

def Merging.add (merging : Merging) (entry : Dict) : Option Merging :=
  match merging.byKey.find? (datasetIdentity entry) with
  | none => some { entries := merging.entries ++ [entry]
                   byKey := merging.byKey.put (datasetIdentity entry, merging.entries.length) }
  | some (_, i) => do
    let old ← merging.entries[i]?
    let updated ← repeated old entry
    return { merging with entries := merging.entries.set i updated }

def mergeDatasets (existing data : List Dict) : Option (List Dict) :=
  (data.foldlM Merging.add (Merging.start existing)).map Merging.entries

def isGitKey (key : String) : Bool := "git_".toList.isPrefixOf key.toList

/-- One observation of one checkout replaces the other; the rest is replaced key by key. -/
def mergeInfo (existing info : Dict) : Dict :=
  let kept := if info.items.any fun entry => isGitKey entry.1 then
      Keyed.ofList (existing.items.filter fun entry => !isGitKey entry.1)
    else existing
  Dict.update kept info

/-- The entries of a list of dictionaries. -/
def entriesOf (items : List Value) : Option (List Dict) := items.mapM Value.asDict

def mergeExisting (existing : Dict) (data : List Dict) : Option Value :=
  match existing.getD "datasets" (.list []) with
  | .list items => do
    let merged ← mergeDatasets (← entriesOf items) data
    return .list (merged.map Value.ofDict)
  -- An empty text or dictionary has nothing to go through, and nothing can be appended to it.
  | .str "" => if data.isEmpty then some (.str "") else none
  | .dict [] => if data.isEmpty then some (.dict []) else none
  | _ => none

/-- The value that is written: `runtime_info` is left out when it is empty. -/
def document (datasets : Value) (info : Dict) : Value :=
  let output : Dict := Keyed.ofList [("datasets", datasets)]
  .ofDict (if info.items.isEmpty then output else output.set "runtime_info" (.ofDict info))

def mergeOutput (existing : Value) (data : List Dict) (info : Dict) : Option Value := do
  let existing ← existing.asDict
  let datasets ← mergeExisting existing data
  let merged := mergeInfo (← (existing.getD "runtime_info" (.dict [])).asDict) info
  return document datasets merged

/-! What a document says. -/

structure Detections where
  datasets : List Dict
  info : Dict

def Detections.none : Detections where
  datasets := []
  info := ∅

def Detections.text (detections : Detections) : Value :=
  document (.list (detections.datasets.map Value.ofDict)) detections.info

/-- One flush, on what the document says. -/
def Detections.merge (detections : Detections) (data : List Dict) (info : Dict) : Option Detections :=
  (mergeDatasets detections.datasets data).map fun datasets =>
    { datasets := datasets, info := mergeInfo detections.info info }

theorem entriesOf_ofDict (entries : List Dict) : entriesOf (entries.map Value.ofDict) = some entries := by
  induction entries with
  | nil => rfl
  | cons entry rest ih =>
    simp only [entriesOf, List.map_cons, List.mapM_cons, asDict_ofDict] at ih ⊢
    simp [ih]

theorem document_datasets (datasets : Value) (info : Dict) :
    ∃ dict, (document datasets info).asDict = some dict ∧ dict.getD "datasets" (.list []) = datasets ∧
      (dict.getD "runtime_info" (.dict [])).asDict = some info := by
  refine ⟨_, asDict_ofDict, ?_⟩
  by_cases empty : info.items.isEmpty = true
  · have nothing : info = ∅ := Keyed.ext_items (List.isEmpty_iff.mp empty)
    simp only [if_pos empty]
    constructor
    · rfl
    · rw [nothing]
      rfl
  · simp only [if_neg empty]
    constructor
    · rw [Dict.getD, Dict.get?_set_of_ne (by decide)]
      rfl
    · rw [Dict.getD, Dict.get?_set_self]
      exact asDict_ofDict

/-- Merging into what a document says is merging into the document. -/
theorem mergeOutput_text (detections : Detections) (data : List Dict) (info : Dict) :
    mergeOutput detections.text data info = (detections.merge data info).map Detections.text := by
  obtain ⟨dict, read, datasets, stored⟩ := document_datasets (.list (detections.datasets.map Value.ofDict)) detections.info
  rw [mergeOutput, Detections.text, read]
  simp only [Option.bind_eq_bind, Option.bind_some, mergeExisting, datasets, entriesOf_ofDict, stored]
  rw [Detections.merge]
  cases mergeDatasets detections.datasets data <;> rfl

theorem mergeOutput_empty (data : List Dict) (info : Dict) :
    mergeOutput (.dict []) data info = (Detections.none.merge data info).map Detections.text := by
  have read : (Value.dict []).asDict = some ∅ := rfl
  have datasets : (∅ : Dict).getD "datasets" (.list []) = .list [] := rfl
  have stored : ((∅ : Dict).getD "runtime_info" (.dict [])).asDict = some ∅ := rfl
  have nothing : entriesOf [] = some [] := rfl
  rw [mergeOutput, read]
  simp only [Option.bind_eq_bind, Option.bind_some, mergeExisting, datasets, stored, nothing]
  rw [Detections.merge, Detections.none]
  cases mergeDatasets [] data <;> rfl

/-! The identities of a merged list. -/

def identities (entries : List Dict) : List Identity := entries.map datasetIdentity

/-- A repeat has the identity that it repeats. -/
theorem identity_repeated {old entry updated : Dict} (done : repeated old entry = some updated)
    (same : datasetIdentity old = datasetIdentity entry) : datasetIdentity updated = datasetIdentity entry := by
  have fields : ∀ key ∈ datasetIdentityKeys, (old.getD key .none).sorted = (entry.getD key .none).sorted :=
    List.map_inj_left.mp same
  -- `seen_via` is no identity key, and what the repeat does not name is the same in both.
  have unseen : ∀ key ∈ datasetIdentityKeys, "seen_via" ≠ key := by decide
  have merged (key : String) (member : key ∈ datasetIdentityKeys) :
      ((old.update entry).getD key .none).sorted = (entry.getD key .none).sorted := by
    have before := fields key member
    rw [Dict.getD, Dict.get?_update]
    rw [Dict.getD, Dict.getD] at before
    cases found : entry.get? key with
    | some value => simp [Dict.getD, found]
    | none => simpa [Dict.getD, found] using before
  simp only [repeated] at done
  split at done
  · obtain rfl := Option.some.inj done
    refine List.map_congr_left fun key member => ?_
    split
    · exact merged key member
    · rw [Dict.getD, Dict.get?_set_of_ne (unseen key member)]
      exact merged key member
  · cases done

/-- `by_key` finds the entry of each identity, and nothing else. -/
def Indexed (merging : Merging) : Prop :=
  ∀ key i, (∃ found, merging.byKey.find? key = some (found, i)) ↔ (identities merging.entries)[i]? = some key

theorem Indexed.nodup {merging : Merging} (indexed : Indexed merging) : (identities merging.entries).Nodup := by
  rw [List.nodup_iff_getElem?_ne_getElem?]
  intro i j before within same
  have inside : i < (identities merging.entries).length := before.trans within
  have here := List.getElem?_eq_getElem inside
  obtain ⟨_, first⟩ := (indexed _ i).mpr here
  obtain ⟨_, second⟩ := (indexed _ j).mpr (same.symm.trans here)
  have clash := Option.some.inj (first.symm.trans second)
  simp only [Prod.mk.injEq] at clash
  omega

theorem indexed_start {existing : List Dict} (distinct : (identities existing).Nodup) : Indexed (Merging.start existing) := by
  have keys : (existing.zipIdx.map fun (entry, i) => (datasetIdentity entry, i)).map Prod.fst = identities existing := by
    rw [List.map_map, identities]
    have first : (Prod.fst ∘ fun ((entry, i) : Dict × Nat) => (datasetIdentity entry, i)) = datasetIdentity ∘ Prod.fst := rfl
    rw [first, ← List.map_map, List.zipIdx_map_fst]
  have items : (Merging.start existing).byKey.items = existing.zipIdx.map fun (entry, i) => (datasetIdentity entry, i) := by
    rw [Merging.start, Keyed.ofList, Keyed.items_putAll (by simpa [keys] using distinct)]
    rfl
  intro key i
  have stored : (∃ found, (Merging.start existing).byKey.find? key = some (found, i)) ↔
      (key, i) ∈ (Merging.start existing).byKey.items := by
    rw [Keyed.mem_items_iff]
    constructor
    · rintro ⟨found, here⟩
      obtain rfl : found = key := Keyed.key_of_find? here
      exact here
    · exact fun here => ⟨key, here⟩
  rw [stored, items, Merging.start, identities, List.getElem?_map, List.mem_map, Option.map_eq_some_iff]
  constructor
  · rintro ⟨⟨entry, index⟩, member, same⟩
    simp only [Prod.mk.injEq] at same
    obtain ⟨rfl, rfl⟩ := same
    exact ⟨entry, List.mem_zipIdx_iff_getElem?.mp member, rfl⟩
  · rintro ⟨entry, here, rfl⟩
    exact ⟨(entry, i), List.mem_zipIdx_iff_getElem?.mpr here, rfl⟩

/-- An entry of a new identity is added at the end. -/
theorem Indexed.append {merging : Merging} {entry : Dict} (indexed : Indexed merging)
    (missing : merging.byKey.find? (datasetIdentity entry) = none) :
    datasetIdentity entry ∉ identities merging.entries ∧
      Indexed { entries := merging.entries ++ [entry]
                byKey := merging.byKey.put (datasetIdentity entry, merging.entries.length) } := by
  have absent (i : Nat) : (identities merging.entries)[i]? ≠ some (datasetIdentity entry) := by
    intro here
    obtain ⟨found, present⟩ := (indexed _ i).mpr here
    rw [missing] at present
    cases present
  have length : (identities merging.entries).length = merging.entries.length := List.length_map _
  refine ⟨fun member => ?_, fun key i => ?_⟩
  · obtain ⟨i, here⟩ := List.mem_iff_getElem?.mp member
    exact absent i here
  · have whole : identities (merging.entries ++ [entry]) = identities merging.entries ++ [datasetIdentity entry] :=
      List.map_append
    simp only [whole, Keyed.find?_put]
    rcases Nat.lt_trichotomy i merging.entries.length with inside | rfl | outside
    · rw [List.getElem?_append_left (by omega), ← indexed key i]
      by_cases same : datasetIdentity entry = key
      · subst same
        simp only [if_true, Option.some.injEq, Prod.mk.injEq, missing]
        simp [Nat.ne_of_gt inside]
      · simp only [if_neg same]
    · rw [List.getElem?_append_right (by omega), length, Nat.sub_self, List.getElem?_cons_zero]
      by_cases same : datasetIdentity entry = key
      · simp [same]
      · have nothing : (identities merging.entries)[merging.entries.length]? = none :=
          List.getElem?_eq_none (by omega)
        have never := indexed key merging.entries.length
        rw [nothing] at never
        simp only [Option.some.injEq, same]
        exact never.trans (by simp)
    · rw [List.getElem?_eq_none (by simp [length]; omega)]
      by_cases same : datasetIdentity entry = key
      · simp only [if_pos same, Option.some.injEq, Prod.mk.injEq]
        simp [Nat.ne_of_lt outside]
      · have nothing : (identities merging.entries)[i]? = none := List.getElem?_eq_none (by omega)
        have never := indexed key i
        rw [nothing] at never
        simp only [if_neg same, never]

/-- Adding an entry keeps `by_key` right, and adds its identity if it is not there. -/
theorem Indexed.add {merging next : Merging} {entry : Dict} (indexed : Indexed merging)
    (added : merging.add entry = some next) : Indexed next ∧ ∀ identity,
      identity ∈ identities next.entries ↔ identity ∈ identities merging.entries ∨ identity = datasetIdentity entry := by
  rw [Merging.add] at added
  split at added
  · rename_i missing
    obtain rfl := Option.some.inj added
    refine ⟨(indexed.append missing).2, fun identity => ?_⟩
    simp [identities]
  · rename_i found i present
    obtain ⟨old, here, added⟩ := Option.bind_eq_some_iff.mp added
    obtain ⟨updated, merged, added⟩ := Option.bind_eq_some_iff.mp added
    obtain rfl := Option.some.inj added
    have place : (identities merging.entries)[i]? = some (datasetIdentity entry) := (indexed _ i).mp ⟨found, present⟩
    have same : datasetIdentity old = datasetIdentity entry := by
      rw [identities, List.getElem?_map, here] at place
      exact Option.some.inj place
    have unchanged : identities (merging.entries.set i updated) = identities merging.entries := by
      obtain ⟨inside, value⟩ := List.getElem?_eq_some_iff.mp place
      rw [identities, List.map_set, identity_repeated merged same, ← identities, ← value]
      exact List.set_getElem_self inside
    refine ⟨?_, fun identity => ?_⟩
    · intro key j
      simp only [unchanged]
      exact indexed key j
    · simp only [unchanged]
      constructor
      · exact Or.inl
      · rintro (member | rfl)
        · exact member
        · exact List.mem_of_getElem? place

/-- Merging keeps the identities distinct, and they are those of both. -/
theorem mergeDatasets_identities {existing data merged : List Dict} (distinct : (identities existing).Nodup)
    (done : mergeDatasets existing data = some merged) : (identities merged).Nodup ∧
      ∀ identity, identity ∈ identities merged ↔ identity ∈ identities existing ∨ identity ∈ identities data := by
  have folded (data : List Dict) : ∀ start last : Merging, Indexed start → data.foldlM Merging.add start = some last →
      Indexed last ∧ ∀ identity, identity ∈ identities last.entries ↔
        identity ∈ identities start.entries ∨ identity ∈ identities data := by
    induction data with
    | nil =>
      rintro start last indexed ⟨⟩
      exact ⟨indexed, fun identity => by simp [identities]⟩
    | cons entry rest ih =>
      intro start last indexed run
      rw [List.foldlM_cons] at run
      obtain ⟨next, added, run⟩ := Option.bind_eq_some_iff.mp run
      obtain ⟨stillIndexed, one⟩ := indexed.add added
      obtain ⟨indexedLast, others⟩ := ih next last stillIndexed run
      refine ⟨indexedLast, fun identity => ?_⟩
      rw [others, one]
      simp only [identities, List.map_cons, List.mem_cons]
      tauto
  obtain ⟨last, run, rfl⟩ := Option.map_eq_some_iff.mp done
  obtain ⟨indexed, same⟩ := folded data _ last (indexed_start distinct) run
  exact ⟨indexed.nodup, same⟩

end AibomWebhook.DetectionMerge
