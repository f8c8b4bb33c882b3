import AibomWebhook.GitProvenance
import AibomWebhook.Library.FirstSeen

/-! What the flushes of one process make of the detection file, with the dictionaries that the
file shares with the process (scripts/aibom-scripts/runtime_detector.py, `_merge_output` and
`_flush`). -/

namespace AibomWebhook.DetectionUnion
open DetectionMerge GitProvenance PyValue

/-! Repeats of one entry. -/

section Entries
variable {old entry : Dict} {key : String}

def via (entry : Dict) : List Value :=
  match entry.getD "seen_via" (.list []) with
  | .list items => items
  | _ => []

def Listed (entry : Dict) : Prop := ∃ items, entry.getD "seen_via" (.list []) = .list items

def union (before reported : List Value) : List Value := before ++ reported.filter fun value => !value.isIn before

/-- A repeat of a stored entry, where both lists are lists. -/
def merged (old entry : Dict) : Dict :=
  let seenVia := union (via old) (via entry)
  if seenVia.isEmpty then old.update entry else (old.update entry).set "seen_via" (.list seenVia)

theorem Listed.via (listed : Listed entry) : entry.getD "seen_via" (.list []) = .list (via entry) := by
  obtain ⟨items, found⟩ := listed
  rw [DetectionUnion.via, found]

theorem Listed.get? (listed : Listed entry) : entry.get? "seen_via" = none ∧ DetectionUnion.via entry = [] ∨
    entry.get? "seen_via" = some (.list (DetectionUnion.via entry)) := by
  have found := listed.via
  rw [Dict.getD] at found
  cases stored : entry.get? "seen_via" with
  | none =>
    rw [stored] at found
    injection found with nothing
    exact Or.inl ⟨rfl, nothing.symm⟩
  | some value =>
    rw [stored] at found
    exact Or.inr (congrArg some found)

theorem repeated_eq (listed : Listed old) (reported : Listed entry) : repeated old entry = some (merged old entry) := by
  rw [repeated, listed.via, reported.via]
  rfl

theorem get?_merged_of_ne (different : key ≠ "seen_via") :
    (merged old entry).get? key = (entry.get? key).or (old.get? key) := by
  simp only [merged]
  split
  · exact Dict.get?_update
  · rw [Dict.get?_set_of_ne different.symm, Dict.get?_update]

theorem getD_merged (listed : Listed old) (reported : Listed entry) :
    (merged old entry).getD "seen_via" (.list []) = .list (union (via old) (via entry)) := by
  simp only [merged, Dict.getD]
  split
  · rename_i nothing
    rw [List.isEmpty_iff] at nothing
    obtain ⟨noOld, -⟩ := List.append_eq_nil_iff.mp nothing
    have noNew : via entry = [] := by
      rw [union, noOld] at nothing
      simpa [Value.isIn] using nothing
    rw [nothing, Dict.get?_update]
    rcases reported.get? with ⟨absent, -⟩ | present
    · rw [absent, Option.none_or]
      exact noOld ▸ listed.via
    · rw [present, noNew]
      rfl
  · rw [Dict.get?_set_self]
    rfl

theorem via_merged (listed : Listed old) (reported : Listed entry) :
    via (merged old entry) = union (via old) (via entry) := by
  rw [via, getD_merged listed reported]

theorem Listed.merged (listed : Listed old) (reported : Listed entry) : Listed (merged old entry) :=
  ⟨_, getD_merged listed reported⟩

theorem identity_merged (listed : Listed old) (reported : Listed entry) (same : datasetIdentity old = datasetIdentity entry) :
    datasetIdentity (DetectionUnion.merged old entry) = datasetIdentity entry :=
  identity_repeated (repeated_eq listed reported) same

end Entries

/-! The merged list, entry by entry. -/

section Chains
variable {entries : List Dict} {identity : Identity}

/-- A repeat goes into the entry that it repeats, and everything else to the end. -/
def place (entries : List Dict) (entry : Dict) : List Dict :=
  if datasetIdentity entry ∈ identities entries then
    entries.map fun old => if datasetIdentity old = datasetIdentity entry then merged old entry else old
  else entries ++ [entry]

/-- All that was contributed to one identity, in its order. -/
def contributions (identity : Identity) (entries : List Dict) : List Dict :=
  entries.filter fun entry => datasetIdentity entry = identity

def combined : List Dict → Dict
  | [] => ∅
  | first :: rest => rest.foldl merged first

def identityKey (entry : Dict) : Option Identity := some (datasetIdentity entry)

/-- The entries that are the first ones of their identity. -/
abbrev firsts (entries : List Dict) : List Dict := FirstSeen.firsts identityKey entries

theorem combined_append (entry : Dict) (some_ : entries ≠ []) : combined (entries ++ [entry]) = merged (combined entries) entry := by
  cases entries with
  | nil => exact absurd rfl some_
  | cons first rest => simp [combined]

theorem combined_listed (listed : ∀ entry ∈ entries, Listed entry) : Listed (combined entries) := by
  induction entries using List.reverseRecOn with
  | nil => exact ⟨[], rfl⟩
  | append_singleton front entry ih =>
    have reported := listed entry (by simp)
    by_cases empty : front = []
    · subst empty
      exact reported
    · rw [combined_append entry empty]
      exact (ih fun other member => listed other (List.mem_append_left _ member)).merged reported

theorem identity_combined (listed : ∀ entry ∈ entries, Listed entry) (same : ∀ entry ∈ entries, datasetIdentity entry = identity)
    (some_ : entries ≠ []) : datasetIdentity (combined entries) = identity := by
  induction entries using List.reverseRecOn with
  | nil => exact absurd rfl some_
  | append_singleton front entry ih =>
    have here := same entry (by simp)
    have reported := listed entry (by simp)
    by_cases empty : front = []
    · subst empty
      exact here
    · have stored : ∀ other ∈ front, Listed other := fun other member => listed other (List.mem_append_left _ member)
      have before := ih stored (fun other member => same other (List.mem_append_left _ member)) empty
      rw [combined_append entry empty]
      exact (identity_merged (combined_listed stored) reported (before.trans here.symm)).trans here

theorem contributions_append (front back : List Dict) :
    contributions identity (front ++ back) = contributions identity front ++ contributions identity back := List.filter_append ..

theorem mem_contributions {entry : Dict} : entry ∈ contributions identity entries ↔
    entry ∈ entries ∧ datasetIdentity entry = identity := by
  simp [contributions]

theorem contributions_ne_nil : contributions identity entries ≠ [] ↔ identity ∈ identities entries := by
  rw [ne_eq, List.eq_nil_iff_forall_not_mem, not_forall, identities, List.mem_map]
  simp only [not_not, mem_contributions]

theorem filterMap_identityKey (entries : List Dict) : entries.filterMap identityKey = identities entries := by
  rw [identities, ← List.filterMap_eq_map]
  rfl

theorem identity_contributions (listed : ∀ entry ∈ entries, Listed entry) (member : identity ∈ identities entries) :
    datasetIdentity (combined (contributions identity entries)) = identity :=
  identity_combined (fun entry inside => listed entry (mem_contributions.mp inside).1)
    (fun _ inside => (mem_contributions.mp inside).2) (contributions_ne_nil.mpr member)

theorem identities_combined (listed : ∀ entry ∈ entries, Listed entry) {some_ : List Dict} (within : some_ ⊆ entries) :
    identities (some_.map fun entry => combined (contributions (datasetIdentity entry) entries)) = identities some_ := by
  rw [identities, List.map_map]
  refine List.map_congr_left fun entry member => ?_
  exact identity_contributions listed (List.mem_map_of_mem (within member))

/-- The merged list has the first entries of all identities, each with all that was contributed to it. -/
theorem foldl_place (listed : ∀ entry ∈ entries, Listed entry) : entries.foldl place [] =
    (firsts entries).map fun entry => combined (contributions (datasetIdentity entry) entries) := by
  induction entries using List.reverseRecOn with
  | nil => rfl
  | append_singleton front entry ih =>
    have before := fun other member => listed other (List.mem_append_left [entry] member)
    have subset : firsts front ⊆ front := FirstSeen.firstsAfter_subset [] front
    have present : datasetIdentity entry ∈ identities (firsts front) ↔ datasetIdentity entry ∈ identities front := by
      rw [← filterMap_identityKey, ← filterMap_identityKey]
      exact FirstSeen.mem_keys_firsts front _
    have known := identities_combined before subset
    have named : identityKey entry = some (datasetIdentity entry) := rfl
    have added : firsts (front ++ [entry]) = firsts front ++ FirstSeen.firstsAfter identityKey (identities front) [entry] := by
      rw [firsts, FirstSeen.firsts_append, filterMap_identityKey]
    rw [List.foldl_append, ih before, List.foldl_cons, List.foldl_nil, place, added]
    by_cases old : datasetIdentity entry ∈ identities front
    · rw [if_pos (known ▸ present.mpr old), FirstSeen.firstsAfter_seen named old, FirstSeen.firstsAfter, List.append_nil, List.map_map]
      refine List.map_congr_left fun first member => ?_
      have same := identity_contributions before (List.mem_map_of_mem (subset member))
      have stored : contributions (datasetIdentity first) front ≠ [] :=
        contributions_ne_nil.mpr (List.mem_map_of_mem (subset member))
      rw [Function.comp_apply, same, contributions_append]
      by_cases repeats : datasetIdentity first = datasetIdentity entry
      · have own : contributions (datasetIdentity first) [entry] = [entry] := by simp [contributions, repeats]
        rw [if_pos repeats, own, combined_append entry stored]
      · have none_ : contributions (datasetIdentity first) [entry] = [] := by simp [contributions, Ne.symm repeats]
        rw [if_neg repeats, none_, List.append_nil]
    · rw [if_neg (known ▸ fun inside => old (present.mp inside)), FirstSeen.firstsAfter_fresh named old, FirstSeen.firstsAfter,
        List.map_append]
      congr 1
      · refine List.map_congr_left fun first member => ?_
        have apart : datasetIdentity entry ≠ datasetIdentity first :=
          fun same => old (same ▸ List.mem_map_of_mem (subset member))
        have none_ : contributions (datasetIdentity first) [entry] = [] := by simp [contributions, apart]
        rw [contributions_append, none_, List.append_nil]
      · have nothing : contributions (datasetIdentity entry) front = [] := by
          by_contra some_
          exact old (contributions_ne_nil.mp some_)
        have own : contributions (datasetIdentity entry) [entry] = [entry] := by simp [contributions]
        rw [List.map_singleton, contributions_append, nothing, own]
        rfl

end Chains

/-! `_merge_output`, with the dictionaries that it changes in place. -/

/-- A dictionary that was read from the file, or the one of an entry of the process. -/
inductive Object where
  | stored (i : Nat)
  | own (i : Nat)
  deriving DecidableEq

structure Folding where
  existingDs : List Object
  byKey : Keyed (Prod.fst : Identity × Object → Identity)
  stored : List Dict
  own : List Dict

def Folding.start (existing data : List Dict) : Folding where
  existingDs := (List.range existing.length).map Object.stored
  byKey := Keyed.ofList (existing.zipIdx.map fun (entry, i) => (datasetIdentity entry, .stored i))
  stored := existing
  own := data

def Folding.read (folding : Folding) : Object → Option Dict
  | .stored i => folding.stored[i]?
  | .own i => folding.own[i]?

def Folding.write (folding : Folding) (entry : Dict) : Object → Folding
  | .stored i => { folding with stored := folding.stored.set i entry }
  | .own i => { folding with own := folding.own.set i entry }

/-- The entry of that number; a new one becomes an entry of the file itself. -/
def Folding.add (folding : Folding) (i : Nat) : Option Folding := do
  let entry ← folding.own[i]?
  match folding.byKey.find? (datasetIdentity entry) with
  | none => return { folding with existingDs := folding.existingDs ++ [.own i]
                                  byKey := folding.byKey.put (datasetIdentity entry, .own i) }
  | some (_, object) => do
    let updated ← repeated (← folding.read object) entry
    return folding.write updated object

def fold (existing data : List Dict) : Option Folding :=
  (List.range data.length).foldlM Folding.add (Folding.start existing data)

/-- What is written, and what the process holds afterwards. -/
structure Output where
  file : Value
  data : List Dict

def mergeExistingOwn (existing : Dict) (data : List Dict) : Option Output :=
  match existing.getD "datasets" (.list []) with
  | .list items => do
    let folding ← fold (← entriesOf items) data
    let entries ← folding.existingDs.mapM folding.read
    return { file := .list (entries.map Value.ofDict), data := folding.own }
  | .str "" => if data.isEmpty then some { file := .str "", data := data } else none
  | .dict [] => if data.isEmpty then some { file := .dict [], data := data } else none
  | _ => none

def mergeOutputOwn (existing : Value) (data : List Dict) (info : Dict) : Option Output := do
  let existing ← existing.asDict
  let datasets ← mergeExistingOwn existing data
  let merged := mergeInfo (← (existing.getD "runtime_info" (.dict [])).asDict) info
  return { datasets with file := document datasets.file merged }

section Folds
variable {folding : Folding} {merging : Merging} {existing data : List Dict} {n : Nat}

/-- The entries that are folded in place are those of the merged list. -/
structure Agrees (existing data : List Dict) (n : Nat) (folding : Folding) (merging : Merging) : Prop where
  reads : folding.existingDs.map folding.read = merging.entries.map some
  found : ∀ identity, (folding.byKey.find? identity).map Prod.snd =
    (merging.byKey.find? identity).bind fun entry => folding.existingDs[entry.2]?
  indexed : Indexed merging
  apart : folding.existingDs.Nodup
  below : ∀ i, .own i ∈ folding.existingDs → i < n
  fresh : ∀ i, .own i ∉ folding.existingDs → folding.own[i]? = data[i]?
  same : identities folding.own = identities data
  stored : ∀ i < existing.length, folding.existingDs[i]? = some (.stored i)

theorem Agrees.object (agrees : Agrees existing data n folding merging) {i : Nat} {entry : Dict} (here : merging.entries[i]? = some entry) :
    ∃ object, folding.existingDs[i]? = some object ∧ folding.read object = some entry := by
  have both := congrArg (fun list => list[i]?) agrees.reads
  simp only [List.getElem?_map, here, Option.map_some] at both
  exact Option.map_eq_some_iff.mp both

theorem Agrees.length (agrees : Agrees existing data n folding merging) : folding.existingDs.length = merging.entries.length := by
  simpa using congrArg List.length agrees.reads

theorem Agrees.start (distinct : (identities existing).Nodup) (data : List Dict) :
    Agrees existing data 0 (Folding.start existing data) (Merging.start existing) where
  reads := by
    refine List.ext_getElem (by simp [Folding.start, Merging.start]) fun i here there => ?_
    have inside : i < existing.length := by simpa [Folding.start] using here
    simp [Folding.start, Merging.start, Folding.read, inside]
  found := by
    intro identity
    let numbered := existing.zipIdx.map fun (entry, i) => (datasetIdentity entry, i)
    have objects : existing.zipIdx.map (fun (entry, i) => (datasetIdentity entry, Object.stored i)) =
        numbered.map (Prod.map id Object.stored) := by simp [numbered]
    have both : (Folding.start existing data).byKey.find? identity =
        ((Merging.start existing).byKey.find? identity).map (Prod.map id Object.stored) := by
      simp only [Folding.start, Merging.start, objects]
      exact Keyed.find?_putAll_map Object.stored numbered (fun _ => rfl) identity
    rw [both]
    cases stored : (Merging.start existing).byKey.find? identity with
    | none => rfl
    | some place =>
      obtain ⟨member, -⟩ := Keyed.find?_some stored
      obtain ⟨⟨entry, i⟩, numberedEntry, rfl⟩ := List.mem_map.mp (Keyed.mem_ofList member)
      have inside : i < existing.length := (List.getElem?_eq_some_iff.mp (List.mem_zipIdx_iff_getElem?.mp numberedEntry)).1
      simp [Folding.start, inside]
  indexed := indexed_start distinct
  apart := List.nodup_range.map fun i j same => by injection same
  below := by simp [Folding.start]
  fresh := fun i _ => rfl
  same := rfl
  stored := fun i inside => by simp [Folding.start, inside]

theorem existingDs_write (entry : Dict) (object : Object) : (folding.write entry object).existingDs = folding.existingDs := by
  cases object <;> rfl

theorem byKey_write (entry : Dict) (object : Object) : (folding.write entry object).byKey = folding.byKey := by
  cases object <;> rfl

theorem read_write_self {object : Object} {old : Dict} (entry : Dict) (here : folding.read object = some old) :
    (folding.write entry object).read object = some entry := by
  cases object with
  | stored i => exact List.getElem?_set_self (List.getElem?_eq_some_iff.mp here).1
  | own i => exact List.getElem?_set_self (List.getElem?_eq_some_iff.mp here).1

theorem read_write_of_ne {object other : Object} (entry : Dict) (different : object ≠ other) :
    (folding.write entry object).read other = folding.read other := by
  cases object with
  | stored i =>
    cases other with
    | stored j => exact List.getElem?_set_ne fun same => different (congrArg Object.stored same)
    | own j => rfl
  | own i =>
    cases other with
    | stored j => rfl
    | own j => exact List.getElem?_set_ne fun same => different (congrArg Object.own same)

/-- An entry of a new identity. -/
theorem Agrees.append (agrees : Agrees existing data n folding merging) {entry : Dict} (here : folding.own[n]? = some entry)
    (missing : merging.byKey.find? (datasetIdentity entry) = none) :
    Agrees existing data (n + 1)
      { folding with existingDs := folding.existingDs ++ [.own n]
                     byKey := folding.byKey.put (datasetIdentity entry, .own n) }
      { entries := merging.entries ++ [entry]
        byKey := merging.byKey.put (datasetIdentity entry, merging.entries.length) } where
  reads := by
    have last : folding.read (.own n) = some entry := here
    rw [List.map_append, List.map_append, ← agrees.reads]
    exact congrArg (folding.existingDs.map folding.read ++ [·]) last
  found := by
    intro identity
    rw [Keyed.find?_put, Keyed.find?_put]
    by_cases same : datasetIdentity entry = identity
    · simp [same, ← agrees.length]
    · simp only [same, if_false]
      rw [agrees.found]
      cases stored : merging.byKey.find? identity with
      | none => rfl
      | some place =>
        have inside := (List.getElem?_eq_some_iff.mp ((agrees.indexed identity place.2).mp ⟨place.1, stored⟩)).1
        rw [identities, List.length_map, ← agrees.length] at inside
        exact (List.getElem?_append_left inside).symm
  indexed := (agrees.indexed.append missing).2
  apart := by
    refine List.nodup_append.mpr ⟨agrees.apart, List.nodup_singleton _, fun object member other last same => ?_⟩
    obtain rfl := List.mem_singleton.mp last
    exact (agrees.below n (same ▸ member)).false
  below := by
    intro i member
    rcases List.mem_append.mp member with before | last
    · exact Nat.lt_succ_of_lt (agrees.below i before)
    · injection List.mem_singleton.mp last with same
      omega
  fresh := fun i outside => agrees.fresh i fun member => outside (List.mem_append_left _ member)
  same := agrees.same
  stored := fun i inside =>
    (List.getElem?_append_left (List.getElem?_eq_some_iff.mp (agrees.stored i inside)).1).trans (agrees.stored i inside)

/-- A repeat changes the dictionary of the entry that it repeats, wherever that is. -/
theorem Agrees.write (agrees : Agrees existing data n folding merging) {i : Nat} {object : Object} {old updated : Dict}
    (here : merging.entries[i]? = some old) (listed : folding.existingDs[i]? = some object)
    (read : folding.read object = some old) (same : datasetIdentity updated = datasetIdentity old)
    (indexed : Indexed { merging with entries := merging.entries.set i updated }) :
    Agrees existing data (n + 1) (folding.write updated object) { merging with entries := merging.entries.set i updated } where
  reads := by
    rw [existingDs_write]
    refine List.ext_getElem? fun j => ?_
    rw [List.getElem?_map, List.getElem?_map]
    by_cases place : i = j
    · subst place
      rw [listed, List.getElem?_set_self (List.getElem?_eq_some_iff.mp here).1, Option.map_some, read_write_self updated read]
      rfl
    · have before := congrArg (fun list => list[j]?) agrees.reads
      simp only [List.getElem?_map] at before
      rw [List.getElem?_set_ne place, ← before]
      cases other : folding.existingDs[j]? with
      | none => rfl
      | some theirs =>
        have different : object ≠ theirs := by
          rintro rfl
          exact place ((List.getElem?_inj (List.getElem?_eq_some_iff.mp listed).1 agrees.apart).mp (listed.trans other.symm))
        rw [Option.map_some, Option.map_some, read_write_of_ne updated different]
  found := by
    intro identity
    rw [byKey_write, existingDs_write]
    exact agrees.found identity
  indexed := indexed
  apart := by
    rw [existingDs_write]
    exact agrees.apart
  below := by
    intro j member
    rw [existingDs_write] at member
    exact Nat.lt_succ_of_lt (agrees.below j member)
  fresh := by
    intro j outside
    rw [existingDs_write] at outside
    have different : object ≠ .own j := by
      rintro rfl
      exact outside (List.mem_of_getElem? listed)
    exact (read_write_of_ne updated different).trans (agrees.fresh j outside)
  same := by
    cases object with
    | stored j => exact agrees.same
    | own j => exact (Requests.map_set_of_key read same).trans agrees.same
  stored := by
    rw [existingDs_write]
    exact agrees.stored

theorem Agrees.add (agrees : Agrees existing data n folding merging) (inside : n < data.length) :
    (∃ next later, folding.add n = some next ∧ merging.add data[n] = some later ∧ Agrees existing data (n + 1) next later) ∨
      folding.add n = none ∧ merging.add data[n] = none := by
  have here : folding.own[n]? = some data[n] := by
    rw [agrees.fresh n fun member => (agrees.below n member).false, List.getElem?_eq_getElem inside]
  have known := agrees.found (datasetIdentity data[n])
  cases stored : merging.byKey.find? (datasetIdentity data[n]) with
  | none =>
    have missing : folding.byKey.find? (datasetIdentity data[n]) = none := by simpa [stored] using known
    refine Or.inl ⟨_, _, ?_, ?_, agrees.append here stored⟩
    · simp [Folding.add, here, missing]
    · simp [Merging.add, stored]
  | some place =>
    obtain ⟨identity, i⟩ := place
    have position := (agrees.indexed (datasetIdentity data[n]) i).mp ⟨identity, stored⟩
    rw [identities, List.getElem?_map] at position
    obtain ⟨old, entry, same⟩ := Option.map_eq_some_iff.mp position
    obtain ⟨object, listed, read⟩ := agrees.object entry
    rw [stored, Option.bind_some, listed] at known
    obtain ⟨⟨name, found⟩, present, rfl⟩ := Option.map_eq_some_iff.mp known
    cases done : repeated old data[n] with
    | none =>
      refine Or.inr ⟨?_, ?_⟩
      · simp [Folding.add, here, present, read, done]
      · simp [Merging.add, stored, entry, done]
    | some updated =>
      have added : merging.add data[n] = some { merging with entries := merging.entries.set i updated } := by
        simp [Merging.add, stored, entry, done]
      refine Or.inl ⟨_, _, ?_, added, agrees.write entry listed read ?_ (agrees.indexed.add added).1⟩
      · simp [Folding.add, here, present, read, done]
      · exact (identity_repeated done same).trans same.symm

/-- Folding in place and building a new list fail together, or agree. -/
theorem fold_agrees (distinct : (identities existing).Nodup) {n : Nat} (inside : n ≤ data.length) :
    (∃ folding merging, (List.range n).foldlM Folding.add (Folding.start existing data) = some folding ∧
        (data.take n).foldlM Merging.add (Merging.start existing) = some merging ∧ Agrees existing data n folding merging) ∨
      (List.range n).foldlM Folding.add (Folding.start existing data) = none ∧
        (data.take n).foldlM Merging.add (Merging.start existing) = none := by
  induction n with
  | zero => exact Or.inl ⟨_, _, rfl, rfl, Agrees.start distinct data⟩
  | succ n ih =>
    have here : n < data.length := inside
    rw [List.range_succ, List.foldlM_append, List.take_succ_eq_append_getElem here, List.foldlM_append]
    rcases ih here.le with ⟨folding, merging, folded, merged, agrees⟩ | ⟨failed, failedToo⟩
    · rw [folded, merged]
      rcases agrees.add here with ⟨next, later, one, two, after⟩ | ⟨one, two⟩
      · exact Or.inl ⟨next, later, by simp [one], by simp [two], after⟩
      · exact Or.inr ⟨by simp [one], by simp [two]⟩
    · exact Or.inr ⟨by simp [failed], by simp [failedToo]⟩

theorem set_eq_map {list : List Dict} {i : Nat} {old : Dict} (distinct : (identities list).Nodup) (here : list[i]? = some old)
    (change : Dict → Dict) :
    list.set i (change old) = list.map fun entry => if datasetIdentity entry = datasetIdentity old then change entry else entry := by
  refine List.ext_getElem? fun j => ?_
  rw [List.getElem?_map]
  by_cases place : i = j
  · subst place
    rw [List.getElem?_set_self (List.getElem?_eq_some_iff.mp here).1, here]
    simp
  · rw [List.getElem?_set_ne place]
    cases other : list[j]? with
    | none => rfl
    | some entry =>
      have different : datasetIdentity entry ≠ datasetIdentity old := by
        intro same
        have one : (identities list)[i]? = some (datasetIdentity old) := by rw [identities, List.getElem?_map, here]; rfl
        have two : (identities list)[j]? = some (datasetIdentity old) := by rw [identities, List.getElem?_map, other, ← same]; rfl
        exact place ((List.getElem?_inj (List.getElem?_eq_some_iff.mp one).1 distinct).mp (one.trans two.symm))
      simp [different]

/-- With lists for what led to each dataset, every entry finds its place. -/
theorem add_eq_place (indexed : Indexed merging) (listed : ∀ entry ∈ merging.entries, Listed entry) {entry : Dict}
    (reported : Listed entry) : ∃ next, merging.add entry = some next ∧ next.entries = place merging.entries entry := by
  cases stored : merging.byKey.find? (datasetIdentity entry) with
  | none =>
    have added : merging.add entry = some { entries := merging.entries ++ [entry]
                                            byKey := merging.byKey.put (datasetIdentity entry, merging.entries.length) } := by
      simp [Merging.add, stored]
    exact ⟨_, added, (if_neg (indexed.append stored).1).symm⟩
  | some found =>
    obtain ⟨identity, i⟩ := found
    have position := (indexed (datasetIdentity entry) i).mp ⟨identity, stored⟩
    have member : datasetIdentity entry ∈ identities merging.entries := List.mem_of_getElem? position
    rw [identities, List.getElem?_map] at position
    obtain ⟨old, here, same⟩ := Option.map_eq_some_iff.mp position
    have done := repeated_eq (listed old (List.mem_of_getElem? here)) reported
    have added : merging.add entry = some { merging with entries := merging.entries.set i (merged old entry) } := by
      simp [Merging.add, stored, here, done]
    refine ⟨_, added, ?_⟩
    rw [place, if_pos member, ← same]
    exact set_eq_map indexed.nodup here fun old => merged old entry

theorem mem_place {entries : List Dict} {entry other : Dict} (listed : ∀ entry ∈ entries, Listed entry) (reported : Listed entry)
    (member : other ∈ place entries entry) : Listed other := by
  rw [place] at member
  split at member
  · obtain ⟨old, before, rfl⟩ := List.mem_map.mp member
    split
    · exact (listed old before).merged reported
    · exact listed old before
  · rcases List.mem_append.mp member with before | last
    · exact listed other before
    · exact List.mem_singleton.mp last ▸ reported

theorem foldlM_add (indexed : Indexed merging) (listed : ∀ entry ∈ merging.entries, Listed entry)
    (reported : ∀ entry ∈ data, Listed entry) :
    ∃ last, data.foldlM Merging.add merging = some last ∧ last.entries = data.foldl place merging.entries := by
  induction data generalizing merging with
  | nil => exact ⟨merging, rfl, rfl⟩
  | cons entry rest ih =>
    obtain ⟨next, added, entries⟩ := add_eq_place indexed listed (reported entry List.mem_cons_self)
    have still : ∀ other ∈ next.entries, Listed other := by
      rw [entries]
      exact fun other member => mem_place listed (reported entry List.mem_cons_self) member
    obtain ⟨last, run, result⟩ := ih (indexed.add added).1 still fun other member => reported other (List.mem_cons_of_mem _ member)
    refine ⟨last, ?_, ?_⟩
    · rw [List.foldlM_cons, added]
      exact run
    · rw [result, entries, List.foldl_cons]

theorem foldl_place_nil {entries : List Dict} (distinct : (identities entries).Nodup) : entries.foldl place [] = entries := by
  induction entries using List.reverseRecOn with
  | nil => rfl
  | append_singleton front entry ih =>
    rw [identities, List.map_append, List.nodup_append] at distinct
    have fresh : datasetIdentity entry ∉ identities front := fun member => distinct.2.2 _ member _ (by simp) rfl
    rw [List.foldl_append, ih distinct.1, List.foldl_cons, List.foldl_nil, place, if_neg fresh]

end Folds

/-! Folding the same entries in again. -/

section Again
variable {entries : List Dict} {entry : Dict} {key : String}

/-- The value that the last entry with the key has there. -/
def latest (key : String) (entries : List Dict) : Option Value :=
  entries.foldl (fun found entry => (entry.get? key).or found) none

theorem latest_append (entry : Dict) : latest key (entries ++ [entry]) = (entry.get? key).or (latest key entries) := by
  rw [latest, List.foldl_append]
  rfl

/-- Of entries that all have been folded in, each of the fields but `seen_via` is the latest one. -/
theorem get?_combined (different : key ≠ "seen_via") : (combined entries).get? key = latest key entries := by
  induction entries using List.reverseRecOn with
  | nil => rfl
  | append_singleton front entry ih =>
    by_cases empty : front = []
    · subst empty
      exact Option.or_none.symm
    · rw [combined_append entry empty, get?_merged_of_ne different, latest_append, ih]

/-- All that led to a dataset. -/
def vias (entries : List Dict) : List Value := entries.foldl (fun seen entry => union seen (via entry)) []

theorem vias_append (entry : Dict) : vias (entries ++ [entry]) = union (vias entries) (via entry) := by
  rw [vias, List.foldl_append]
  rfl

theorem union_nil (values : List Value) : union [] values = values := by
  simp [union, Value.isIn]

theorem via_combined (listed : ∀ entry ∈ entries, Listed entry) : via (combined entries) = vias entries := by
  induction entries using List.reverseRecOn with
  | nil => rfl
  | append_singleton front entry ih =>
    have reported := listed entry (by simp)
    have stored : ∀ other ∈ front, Listed other := fun other member => listed other (List.mem_append_left _ member)
    by_cases empty : front = []
    · subst empty
      exact (union_nil (via entry)).symm
    · rw [combined_append entry empty, via_merged (combined_listed stored) reported, ih stored, vias_append]

/-- What led to the dataset is a list without duplicates, of values that equal themselves. -/
structure Traced (entry : Dict) : Prop where
  listed : Listed entry
  once : (via entry).Pairwise fun earlier later => later.eq earlier = false
  equal : ∀ value ∈ via entry, value.eq value = true

theorem mem_vias {value : Value} (member : value ∈ vias entries) : ∃ entry ∈ entries, value ∈ via entry := by
  induction entries using List.reverseRecOn with
  | nil => cases member
  | append_singleton front entry ih =>
    rw [vias_append] at member
    rcases List.mem_append.mp member with before | later
    · obtain ⟨other, inside, here⟩ := ih before
      exact ⟨other, List.mem_append_left _ inside, here⟩
    · exact ⟨entry, by simp, (List.mem_filter.mp later).1⟩

theorem isIn_append {value : Value} {front back : List Value} :
    value.isIn (front ++ back) = (value.isIn front || value.isIn back) := List.any_append

/-- Nothing that led to a dataset is left out. -/
theorem isIn_vias (traced : ∀ entry ∈ entries, Traced entry) (member : entry ∈ entries) {value : Value} (inside : value ∈ via entry) :
    value.isIn (vias entries) = true := by
  induction entries using List.reverseRecOn with
  | nil => cases member
  | append_singleton front last ih =>
    rw [vias_append, union, isIn_append, Bool.or_eq_true]
    rcases List.mem_append.mp member with before | here
    · exact Or.inl (ih (fun other within => traced other (List.mem_append_left _ within)) before)
    · obtain rfl := List.mem_singleton.mp here
      by_cases known : value.isIn (vias front) = true
      · exact Or.inl known
      · refine Or.inr (List.any_eq_true.mpr ⟨value, List.mem_filter.mpr ⟨inside, by simpa using known⟩, ?_⟩)
        exact (traced entry member).equal value inside

theorem vias_once (traced : ∀ entry ∈ entries, Traced entry) :
    (vias entries).Pairwise fun earlier later => later.eq earlier = false := by
  induction entries using List.reverseRecOn with
  | nil => exact List.Pairwise.nil
  | append_singleton front entry ih =>
    rw [vias_append, union, List.pairwise_append]
    refine ⟨ih fun other member => traced other (List.mem_append_left _ member),
      (traced entry (by simp)).once.sublist List.filter_sublist, fun earlier before later after => ?_⟩
    have new := (List.mem_filter.mp after).2
    rw [Bool.not_eq_true', Value.isIn, List.any_eq_false] at new
    simpa using new earlier before

theorem traced_combined (traced : ∀ entry ∈ entries, Traced entry) : Traced (combined entries) := by
  have listed : ∀ entry ∈ entries, Listed entry := fun entry member => (traced entry member).listed
  refine ⟨combined_listed listed, ?_, fun value member => ?_⟩
  · rw [via_combined listed]
    exact vias_once traced
  · rw [via_combined listed] at member
    obtain ⟨entry, inside, here⟩ := mem_vias member
    exact (traced entry inside).equal value here

/-! What was folded in already changes nothing. -/

theorem get?_eq_none_iff {dict : Dict} : dict.get? key = none ↔ key ∉ dict.items.map Prod.fst := by
  rw [Dict.get?, Option.map_eq_none_iff, ← Keyed.find?_isSome_iff, Option.not_isSome_iff_eq_none]

theorem ext_get {first second : Dict} (keys : first.items.map Prod.fst = second.items.map Prod.fst)
    (same : ∀ key, first.get? key = second.get? key) : first = second := by
  refine Keyed.ext_find keys fun key => ?_
  have whole (dict : Dict) : dict.find? key = (dict.get? key).map fun value => (key, value) := by
    rw [Dict.get?, Option.map_map]
    cases found : dict.find? key with
    | none => rfl
    | some item =>
      obtain rfl := Keyed.key_of_find? found
      rfl
  rw [whole, whole, same]

theorem get?_merged_eq_none {old : Dict} (listed : Listed old) (reported : Listed entry) :
    (merged old entry).get? key = none ↔ old.get? key = none ∧ entry.get? key = none := by
  by_cases special : key = "seen_via"
  · subst special
    have both : (old.update entry).get? "seen_via" = none ↔ old.get? "seen_via" = none ∧ entry.get? "seen_via" = none := by
      rw [Dict.get?_update, Option.or_eq_none_iff, and_comm]
    simp only [merged]
    split
    · exact both
    · rename_i some_
      rw [Dict.get?_set_self]
      refine ⟨fun absurd_ => (Option.some_ne_none _ absurd_).elim, fun ⟨noOld, noNew⟩ => absurd ?_ some_⟩
      have first : via old = [] := (listed.get?.resolve_right (by simp [noOld])).2
      have second : via entry = [] := (reported.get?.resolve_right (by simp [noNew])).2
      rw [first, second]
      rfl
  · rw [get?_merged_of_ne special, Option.or_eq_none_iff, and_comm]

theorem get?_combined_eq_none (listed : ∀ entry ∈ entries, Listed entry) :
    (combined entries).get? key = none ↔ ∀ entry ∈ entries, entry.get? key = none := by
  induction entries using List.reverseRecOn with
  | nil => simp [combined, Dict.get?]
  | append_singleton front entry ih =>
    have stored : ∀ other ∈ front, Listed other := fun other member => listed other (List.mem_append_left _ member)
    by_cases empty : front = []
    · subst empty
      simp [combined]
    · rw [combined_append entry empty, get?_merged_eq_none (combined_listed stored) (listed entry (by simp)), ih stored,
        List.forall_mem_append, List.forall_mem_singleton]

theorem union_of_known {before reported : List Value} (known : ∀ value ∈ reported, value.isIn before = true) :
    union before reported = before := by
  have none_ : reported.filter (fun value => !value.isIn before) = [] := by
    rw [List.filter_eq_nil_iff]
    intro value member
    simp [known value member]
  rw [union, none_, List.append_nil]

/-- It brings no key and nothing that led to the dataset that is not known. -/
structure Within (old entry : Dict) : Prop where
  listed : Listed entry
  keys : ∀ key, old.get? key = none → entry.get? key = none
  known : ∀ value ∈ via entry, value.isIn (via old) = true

theorem keys_merged {old : Dict} (listed : Listed old) (within : Within old entry) :
    (merged old entry).items.map Prod.fst = old.items.map Prod.fst := by
  have update : (old.update entry).items.map Prod.fst = old.items.map Prod.fst := by
    refine Keyed.keys_putAll fun item member => ?_
    by_contra fresh
    have absent := within.keys item.1 (get?_eq_none_iff.mpr fresh)
    exact get?_eq_none_iff.mp absent (List.mem_map_of_mem member)
  simp only [merged]
  split
  · exact update
  · rename_i some_
    rw [union_of_known within.known] at some_
    have present : "seen_via" ∈ old.items.map Prod.fst := by
      by_contra fresh
      have nothing := (listed.get?.resolve_right (by simp [get?_eq_none_iff.mpr fresh])).2
      exact some_ (by simp [nothing])
    exact (Keyed.keys_put (update ▸ present)).trans update

theorem foldl_merged_get? (different : key ≠ "seen_via") (old : Dict) :
    (entries.foldl merged old).get? key = (latest key entries).or (old.get? key) := by
  induction entries using List.reverseRecOn with
  | nil => rfl
  | append_singleton front entry ih =>
    rw [List.foldl_append, List.foldl_cons, List.foldl_nil, get?_merged_of_ne different, ih, latest_append, Option.or_assoc]

theorem foldl_merged_kept {old : Dict} (listed : Listed old) (within : ∀ entry ∈ entries, Within old entry) :
    (entries.foldl merged old).items.map Prod.fst = old.items.map Prod.fst ∧ via (entries.foldl merged old) = via old ∧
      Listed (entries.foldl merged old) := by
  induction entries using List.reverseRecOn with
  | nil => exact ⟨rfl, rfl, listed⟩
  | append_singleton front entry ih =>
    obtain ⟨keys, seen, still⟩ := ih fun other member => within other (List.mem_append_left _ member)
    have here := within entry (by simp)
    have inner : Within (front.foldl merged old) entry := by
      refine ⟨here.listed, fun key absent => here.keys key ?_, seen ▸ here.known⟩
      rw [get?_eq_none_iff] at absent ⊢
      exact keys ▸ absent
    rw [List.foldl_append, List.foldl_cons, List.foldl_nil]
    refine ⟨(keys_merged still inner).trans keys, ?_, still.merged here.listed⟩
    rw [via_merged still here.listed, union_of_known inner.known, seen]

theorem foldl_merged_eq {old : Dict} (listed : Listed old) (within : ∀ entry ∈ entries, Within old entry)
    (same : ∀ key, key ≠ "seen_via" → latest key entries = none ∨ latest key entries = old.get? key) :
    entries.foldl merged old = old := by
  obtain ⟨keys, seen, still⟩ := foldl_merged_kept listed within
  refine ext_get keys fun key => ?_
  by_cases special : key = "seen_via"
  · subst special
    have absent : (entries.foldl merged old).get? "seen_via" = none ↔ old.get? "seen_via" = none := by
      rw [get?_eq_none_iff, get?_eq_none_iff, keys]
    rcases still.get? with ⟨none_, -⟩ | present
    · rw [none_, absent.mp none_]
    · rcases listed.get? with ⟨none_, -⟩ | before
      · rw [absent.mpr none_, none_]
      · rw [present, before, seen]
  · rw [foldl_merged_get? special]
    rcases same key special with none_ | equal
    · rw [none_, Option.none_or]
    · rw [equal, Option.or_self]

theorem latest_eq_none : latest key entries = none ↔ ∀ entry ∈ entries, entry.get? key = none := by
  induction entries using List.reverseRecOn with
  | nil => simp [latest]
  | append_singleton front entry ih =>
    rw [latest_append, Option.or_eq_none_iff, ih, List.forall_mem_append, List.forall_mem_singleton, and_comm]

theorem latest_append_list (front back : List Dict) : latest key (front ++ back) = (latest key back).or (latest key front) := by
  induction back using List.reverseRecOn with
  | nil => rw [List.append_nil]; rfl
  | append_singleton rest entry ih =>
    rw [← List.append_assoc, latest_append, latest_append, ih, Option.or_assoc]

/-- Where entries were replaced by what they have become part of, the latest values are its own. -/
theorem latest_replaced {whole : Dict} {pairs : List (Dict × Dict)} {value : Value} (here : whole.get? key = some value)
    (replaced : ∀ pair ∈ pairs, pair.2 = pair.1 ∨ pair.2 = whole)
    (before : latest key (pairs.map Prod.fst) = none ∨ latest key (pairs.map Prod.fst) = some value) :
    latest key (pairs.map Prod.snd) = none ∨ latest key (pairs.map Prod.snd) = some value := by
  induction pairs using List.reverseRecOn with
  | nil => exact before
  | append_singleton front pair ih =>
    rw [List.map_append, List.map_singleton, latest_append] at before ⊢
    rcases replaced pair (by simp) with same | same
    · rw [same]
      cases found : pair.1.get? key with
      | some own => rwa [found, Option.some_or] at before
      | none =>
        rw [found, Option.none_or] at before
        rw [Option.none_or]
        exact ih (fun other member => replaced other (List.mem_append_left _ member)) before
    · rw [same, here]
      exact Or.inr rfl

/-- Entries that are part of another, some of them replaced by it, change nothing in it. -/
theorem foldl_merged_combined (traced : ∀ entry ∈ entries, Traced entry) {pairs : List (Dict × Dict)} {earlier : List Dict}
    (part : entries = earlier ++ pairs.map Prod.fst)
    (replaced : ∀ pair ∈ pairs, pair.2 = pair.1 ∨ pair.2 = combined entries) :
    (pairs.map Prod.snd).foldl merged (combined entries) = combined entries := by
  have listed : ∀ entry ∈ entries, Listed entry := fun entry member => (traced entry member).listed
  have whole := traced_combined traced
  have inside (pair : Dict × Dict) (member : pair ∈ pairs) : pair.1 ∈ entries := by
    rw [part]
    exact List.mem_append_right _ (List.mem_map_of_mem member)
  have latestWhole (key : String) (different : key ≠ "seen_via") :
      latest key (pairs.map Prod.fst) = none ∨ latest key (pairs.map Prod.fst) = (combined entries).get? key := by
    rw [get?_combined different, part, latest_append_list]
    cases latest key (pairs.map Prod.fst) with
    | none => exact Or.inl rfl
    | some value => exact Or.inr rfl
  refine foldl_merged_eq whole.listed (fun entry member => ?_) fun key different => ?_
  · obtain ⟨pair, within, rfl⟩ := List.mem_map.mp member
    rcases replaced pair within with same | same
    · rw [same]
      refine ⟨listed _ (inside pair within), fun key absent => ?_, fun value seen => ?_⟩
      · exact (get?_combined_eq_none listed).mp absent pair.1 (inside pair within)
      · rw [via_combined listed]
        exact isIn_vias traced (inside pair within) seen
    · rw [same]
      refine ⟨whole.listed, fun key absent => absent, fun value seen => ?_⟩
      exact List.any_eq_true.mpr ⟨value, seen, whole.equal value seen⟩
  · cases found : (combined entries).get? key with
    | none =>
      refine Or.inl (latest_eq_none.mpr fun entry member => ?_)
      obtain ⟨pair, within, rfl⟩ := List.mem_map.mp member
      rcases replaced pair within with same | same
      · rw [same]
        exact (get?_combined_eq_none listed).mp found pair.1 (inside pair within)
      · rw [same, found]
    | some value =>
      exact latest_replaced found replaced (found ▸ latestWhole key different)

end Again

/-! One flush, and the next one. -/

section Flushes
variable {existing data : List Dict}

theorem contributions_of_mem {entries : List Dict} {entry : Dict} (distinct : (identities entries).Nodup) (member : entry ∈ entries) :
    contributions (datasetIdentity entry) entries = [entry] := by
  induction entries with
  | nil => cases member
  | cons first rest ih =>
    rw [identities, List.map_cons, List.nodup_cons] at distinct
    rcases List.mem_cons.mp member with rfl | later
    · have none_ : contributions (datasetIdentity entry) rest = [] := by
        by_contra some_
        exact distinct.1 (contributions_ne_nil.mp some_)
      rw [contributions] at none_ ⊢
      rw [List.filter_cons_of_pos (by simp), none_]
    · have apart : datasetIdentity first ≠ datasetIdentity entry := fun same => distinct.1 (same ▸ List.mem_map_of_mem later)
      have others := ih distinct.2 later
      rw [contributions] at others ⊢
      rw [List.filter_cons_of_neg (by simpa using apart), others]

theorem firsts_eq_self {entries : List Dict} (distinct : (identities entries).Nodup) : firsts entries = entries := by
  induction entries using List.reverseRecOn with
  | nil => rfl
  | append_singleton front entry ih =>
    rw [identities, List.map_append, List.nodup_append] at distinct
    have fresh : datasetIdentity entry ∉ identities front := fun member => distinct.2.2 _ member _ (by simp) rfl
    have named : identityKey entry = some (datasetIdentity entry) := rfl
    have before := ih distinct.1
    rw [firsts] at before ⊢
    rw [FirstSeen.firsts_append, before, filterMap_identityKey, FirstSeen.firstsAfter_fresh named fresh, FirstSeen.firstsAfter]

/-- The entries of new identities, each the first one of its own. -/
abbrev fresh (existing data : List Dict) : List Dict := FirstSeen.firstsAfter identityKey (identities existing) data

theorem firsts_eq (distinct : (identities existing).Nodup) : firsts (existing ++ data) = existing ++ fresh existing data := by
  have before := firsts_eq_self distinct
  rw [firsts] at before ⊢
  rw [FirstSeen.firsts_append, before, filterMap_identityKey]

theorem foldl_place_eq (distinct : (identities existing).Nodup) (listed : ∀ entry ∈ existing ++ data, Listed entry) :
    data.foldl place existing = (existing ++ fresh existing data).map fun entry =>
      combined (contributions (datasetIdentity entry) (existing ++ data)) := by
  rw [← firsts_eq distinct, ← foldl_place listed, List.foldl_append, foldl_place_nil distinct]

theorem identities_foldl_place (distinct : (identities existing).Nodup) (listed : ∀ entry ∈ existing ++ data, Listed entry) :
    identities (data.foldl place existing) = identities existing ++ identities (fresh existing data) := by
  have within : existing ++ fresh existing data ⊆ existing ++ data := by
    intro entry member
    rcases List.mem_append.mp member with old | new
    · exact List.mem_append_left _ old
    · exact List.mem_append_right _ (FirstSeen.firstsAfter_subset _ data entry new)
  rw [foldl_place_eq distinct listed, identities_combined listed within, identities, List.map_append]
  rfl

/-- Each entry of the merged list is all that was contributed to it. -/
theorem eq_combined (distinct : (identities existing).Nodup) (listed : ∀ entry ∈ existing ++ data, Listed entry) {entry : Dict}
    (member : entry ∈ data.foldl place existing) :
    entry = combined (contributions (datasetIdentity entry) (existing ++ data)) := by
  rw [foldl_place_eq distinct listed] at member
  obtain ⟨first, inside, rfl⟩ := List.mem_map.mp member
  have among : first ∈ existing ++ data := by
    rcases List.mem_append.mp inside with old | new
    · exact List.mem_append_left _ old
    · exact List.mem_append_right _ (FirstSeen.firstsAfter_subset _ data first new)
  rw [identity_contributions listed (List.mem_map_of_mem among)]

theorem mem_identities_foldl_place (distinct : (identities existing).Nodup) (listed : ∀ entry ∈ existing ++ data, Listed entry)
    {entry : Dict} (member : entry ∈ data) : datasetIdentity entry ∈ identities (data.foldl place existing) := by
  rw [identities_foldl_place distinct listed, List.mem_append]
  have reported : datasetIdentity entry ∈ data.filterMap identityKey := by
    rw [filterMap_identityKey]
    exact List.mem_map_of_mem member
  have kept := (FirstSeen.mem_keys_firstsAfter (identities existing) data (datasetIdentity entry)).mpr (Or.inl reported)
  rw [filterMap_identityKey] at kept
  exact kept.symm

theorem nodup_foldl_place (distinct : (identities existing).Nodup) (listed : ∀ entry ∈ existing ++ data, Listed entry) :
    (identities (data.foldl place existing)).Nodup := by
  obtain ⟨last, run, entries⟩ := foldlM_add (indexed_start distinct) (fun entry member => listed entry (List.mem_append_left _ member))
    fun entry member => listed entry (List.mem_append_right _ member)
  have done : mergeDatasets existing data = some (data.foldl place existing) := by
    rw [mergeDatasets, run, Option.map_some, entries]
    rfl
  exact (mergeDatasets_identities distinct done).1

/-- After a flush, some entries of the process have become entries of the merged list. -/
def Replaced (existing data own : List Dict) : Prop :=
  ∃ pairs : List (Dict × Dict), pairs.map Prod.fst = data ∧ pairs.map Prod.snd = own ∧
    ∀ pair ∈ pairs, datasetIdentity pair.2 = datasetIdentity pair.1 ∧ (pair.2 = pair.1 ∨ pair.2 ∈ data.foldl place existing)

theorem Replaced.traced {own : List Dict} (replaced : Replaced existing data own) (distinct : (identities existing).Nodup)
    (traced : ∀ entry ∈ existing ++ data, Traced entry) : ∀ entry ∈ data.foldl place existing ++ own, Traced entry := by
  have listed : ∀ entry ∈ existing ++ data, Listed entry := fun entry member => (traced entry member).listed
  have tracedMerged (entry : Dict) (member : entry ∈ data.foldl place existing) : Traced entry := by
    rw [eq_combined distinct listed member]
    exact traced_combined fun other inside => traced other (mem_contributions.mp inside).1
  obtain ⟨pairs, held, rfl, each⟩ := replaced
  intro entry member
  rcases List.mem_append.mp member with old | own
  · exact tracedMerged entry old
  · obtain ⟨pair, inside, rfl⟩ := List.mem_map.mp own
    rcases (each pair inside).2 with same | there
    · exact same ▸ traced pair.1 (List.mem_append_right _ (held ▸ List.mem_map_of_mem inside))
    · exact tracedMerged pair.2 there

theorem Replaced.fresh {own : List Dict} (replaced : Replaced existing data own) (distinct : (identities existing).Nodup)
    (listed : ∀ entry ∈ existing ++ data, Listed entry) : fresh (data.foldl place existing) own = [] := by
  obtain ⟨pairs, held, rfl, each⟩ := replaced
  rw [DetectionUnion.fresh, FirstSeen.firstsAfter_of_seen, List.filter_eq_nil_iff]
  · exact fun entry _ => Bool.false_ne_true
  · intro entry member identity named
    obtain rfl := Option.some.inj named
    obtain ⟨pair, inside, rfl⟩ := List.mem_map.mp member
    rw [(each pair inside).1]
    exact mem_identities_foldl_place distinct listed (held ▸ List.mem_map_of_mem inside)

/-- They change nothing in it. -/
theorem Replaced.foldl_place {own : List Dict} (replaced : Replaced existing data own) (distinct : (identities existing).Nodup)
    (traced : ∀ entry ∈ existing ++ data, Traced entry) :
    own.foldl place (data.foldl place existing) = data.foldl place existing := by
  have listed : ∀ entry ∈ existing ++ data, Listed entry := fun entry member => (traced entry member).listed
  have tracedAll := replaced.traced distinct traced
  have nothingNew := replaced.fresh distinct listed
  obtain ⟨pairs, held, rfl, each⟩ := replaced
  generalize result : data.foldl place existing = merged at each tracedAll nothingNew ⊢
  have apart : (identities merged).Nodup := result ▸ nodup_foldl_place distinct listed
  have whole (entry : Dict) (member : entry ∈ merged) :
      entry = combined (contributions (datasetIdentity entry) (existing ++ data)) :=
    eq_combined distinct listed (result ▸ member)
  rw [foldl_place_eq apart fun entry member => (tracedAll entry member).listed, nothingNew, List.append_nil]
  refine (List.map_congr_left fun entry member => ?_).trans (List.map_id merged)
  have own : contributions (datasetIdentity entry) (pairs.map Prod.snd) =
      (pairs.filter fun pair => datasetIdentity pair.1 = datasetIdentity entry).map Prod.snd := by
    rw [contributions, List.filter_map]
    refine congrArg (List.map Prod.snd) (List.filter_congr fun pair inside => ?_)
    simp [(each pair inside).1]
  have before : contributions (datasetIdentity entry) (existing ++ data) = contributions (datasetIdentity entry) existing ++
      (pairs.filter fun pair => datasetIdentity pair.1 = datasetIdentity entry).map Prod.fst := by
    rw [contributions_append, ← held]
    refine congrArg (fun later => contributions (datasetIdentity entry) existing ++ later) ?_
    rw [contributions, List.filter_map]
    rfl
  have tracedHere : ∀ other ∈ contributions (datasetIdentity entry) (existing ++ data), Traced other :=
    fun other inside => traced other (mem_contributions.mp inside).1
  have again := foldl_merged_combined tracedHere before fun pair inside => by
    obtain ⟨inPairs, same⟩ := List.mem_filter.mp inside
    obtain ⟨kept, unchanged | there⟩ := each pair inPairs
    · exact Or.inl unchanged
    · refine Or.inr ((whole pair.2 there).trans ?_)
      rw [kept, of_decide_eq_true same]
  rw [contributions_append, contributions_of_mem apart member, own]
  rw [← whole entry member] at again
  exact again

/-- Folding in place writes the merged list, and leaves the process's entries as they were or as entries of it. -/
theorem fold_spec (distinct : (identities existing).Nodup) (listed : ∀ entry ∈ existing ++ data, Listed entry) :
    ∃ folding, fold existing data = some folding ∧
      (fresh existing data = [] → folding.own = data) ∧
      folding.existingDs.mapM folding.read = some (data.foldl place existing) ∧
      Replaced existing data folding.own := by
  obtain ⟨last, run, entries⟩ := foldlM_add (indexed_start distinct) (fun entry member => listed entry (List.mem_append_left _ member))
    fun entry member => listed entry (List.mem_append_right _ member)
  rcases fold_agrees distinct (le_refl data.length) with ⟨folding, merging, folded, merged, agrees⟩ | ⟨-, failed⟩
  · rw [List.take_length, run] at merged
    obtain rfl := Option.some.inj merged
    have reads := List.mapM_eq_some_iff.mpr agrees.reads
    have length : folding.own.length = data.length := by simpa [identities] using congrArg List.length agrees.same
    have result : last.entries = data.foldl place existing := entries
    refine ⟨folding, folded, fun nothing => ?_, reads.trans (congrArg some result), data.zip folding.own,
      List.map_fst_zip length.ge, List.map_snd_zip length.le, fun pair member => ?_⟩
    · have size : folding.existingDs.length = existing.length := by
        rw [agrees.length, result, foldl_place_eq distinct listed, nothing, List.append_nil, List.length_map]
      refine List.ext_getElem? fun i => agrees.fresh i fun member => ?_
      obtain ⟨j, here⟩ := List.mem_iff_getElem?.mp member
      have inside := (List.getElem?_eq_some_iff.mp here).1
      have there := agrees.stored j (size ▸ inside)
      rw [here] at there
      cases there
    obtain ⟨i, here⟩ := List.mem_iff_getElem?.mp member
    rw [List.getElem?_zip_eq_some] at here
    obtain ⟨one, two⟩ := here
    have same := congrArg (fun list => list[i]?) agrees.same
    simp only [identities, List.getElem?_map, one, two, Option.map_some, Option.some.injEq] at same
    refine ⟨same, ?_⟩
    by_cases shared : .own i ∈ folding.existingDs
    · refine Or.inr ?_
      obtain ⟨j, listedAt⟩ := List.mem_iff_getElem?.mp shared
      have there := congrArg (fun list => list[j]?) agrees.reads
      simp only [List.getElem?_map, listedAt, Option.map_some] at there
      obtain ⟨entry, found, same⟩ := Option.map_eq_some_iff.mp there.symm
      obtain rfl : entry = pair.2 := Option.some.inj (same.trans two)
      exact result ▸ List.mem_of_getElem? found
    · exact Or.inl (Option.some.inj (two.symm.trans ((agrees.fresh i shared).trans one)))
  · rw [List.take_length, run] at failed
    cases failed

end Flushes

/-- What a file says that can be read. -/
def Says (existing : Value) (file : Detections) : Prop :=
  ∃ dict, existing.asDict = some dict ∧ dict.getD "datasets" (.list []) = .list (file.datasets.map Value.ofDict) ∧
    (dict.getD "runtime_info" (.dict [])).asDict = some file.info

theorem told_text (file : Detections) : Says file.text file := by
  obtain ⟨dict, read, datasets, stored⟩ := document_datasets (.list (file.datasets.map Value.ofDict)) file.info
  exact ⟨dict, read, datasets, stored⟩

theorem mergeOutputOwn_says {existing : Value} {file : Detections} (told : Says existing file)
    (distinct : (identities file.datasets).Nodup) {data : List Dict} (info : Dict)
    (listed : ∀ entry ∈ file.datasets ++ data, Listed entry) :
    ∃ own, mergeOutputOwn existing data info = some
        { file := Detections.text { datasets := data.foldl place file.datasets, info := mergeInfo file.info info }, data := own } ∧
      (fresh file.datasets data = [] → own = data) ∧ Replaced file.datasets data own := by
  obtain ⟨dict, read, datasets, stored⟩ := told
  obtain ⟨folding, folded, settled, reads, kept⟩ := fold_spec distinct listed
  refine ⟨folding.own, ?_, settled, kept⟩
  rw [mergeOutputOwn, read]
  simp only [Option.bind_eq_bind, Option.bind_some, mergeExistingOwn, datasets, entriesOf_ofDict, folded, reads, stored]
  rfl

section Info
variable {existing info : Dict} {key : String}

theorem mergeInfo_other (other : isGitKey key = false) : (mergeInfo existing info).get? key = (info.get? key).or (existing.get? key) := by
  rw [mergeInfo, Dict.get?_update]
  refine congrArg (fun stored => (info.get? key).or stored) ?_
  split
  · rw [Dict.get?, Keyed.find?_ofList_filter fun key => !isGitKey key]
    simp [other, Dict.get?]
  · rfl

/-- The second time nothing changes but the order of the keys. -/
theorem mergeInfo_again (key : String) :
    (mergeInfo (mergeInfo existing info) info).get? key = (mergeInfo existing info).get? key := by
  cases git : isGitKey key with
  | true =>
    rw [mergeInfo_git git]
    split
    · rename_i some_
      rw [mergeInfo_git git, if_pos some_]
    · rfl
  | false => rw [mergeInfo_other git, mergeInfo_other git, ← Option.or_assoc, Option.or_self]

end Info

/-- What a flush makes of a file: `reported` and `info` are what the process holds. -/
structure UnionOf (file : Detections) (reported : List Dict) (info : Dict) (output : Detections) : Prop where
  order : identities output.datasets = identities file.datasets ++ identities (fresh file.datasets reported)
  once : (identities output.datasets).Nodup
  all : ∀ entry ∈ reported, datasetIdentity entry ∈ identities output.datasets
  seenVia : ∀ entry ∈ output.datasets, via entry = vias (contributions (datasetIdentity entry) (file.datasets ++ reported)) ∧
    Traced entry
  fields : ∀ entry ∈ output.datasets, ∀ key ≠ "seen_via",
    entry.get? key = latest key (contributions (datasetIdentity entry) (file.datasets ++ reported))
  unreported : ∀ (i : Nat) (entry : Dict), file.datasets[i]? = some entry → datasetIdentity entry ∉ identities reported →
    output.datasets[i]? = some entry
  runtimeInfo : ∀ key, isGitKey key = false → output.info.get? key = (info.get? key).or (file.info.get? key)
  git : ∀ key, isGitKey key = true → output.info.get? key =
    if (info.items.any fun entry => isGitKey entry.1) = true then info.get? key else file.info.get? key

theorem unionOf {file : Detections} (distinct : (identities file.datasets).Nodup) {data : List Dict} (info : Dict)
    (traced : ∀ entry ∈ file.datasets ++ data, Traced entry) :
    UnionOf file data info { datasets := data.foldl place file.datasets, info := mergeInfo file.info info } := by
  have listed : ∀ entry ∈ file.datasets ++ data, Listed entry := fun entry member => (traced entry member).listed
  have among (identity : Identity) : ∀ other ∈ contributions identity (file.datasets ++ data), Traced other :=
    fun other inside => traced other (mem_contributions.mp inside).1
  refine { order := identities_foldl_place distinct listed
           once := nodup_foldl_place distinct listed
           all := fun entry member => mem_identities_foldl_place distinct listed member
           seenVia := fun entry member => ?_
           fields := fun entry member key different => ?_
           unreported := fun i entry here alone => ?_
           runtimeInfo := fun key other => mergeInfo_other other
           git := fun key git => mergeInfo_git git }
  · have whole := eq_combined distinct listed member
    constructor
    · rw [← via_combined fun other inside => (among _ other inside).listed, ← whole]
    · exact whole ▸ traced_combined (among _)
  · have whole := eq_combined distinct listed member
    rw [← get?_combined different, ← whole]
  · have inside : entry ∈ file.datasets := List.mem_of_getElem? here
    have place := (List.getElem?_eq_some_iff.mp here).1
    have nobody : contributions (datasetIdentity entry) data = [] := by
      by_contra some_
      exact alone (contributions_ne_nil.mp some_)
    dsimp only
    rw [foldl_place_eq distinct listed, List.getElem?_map, List.getElem?_append_left place, here, Option.map_some,
      contributions_append, contributions_of_mem distinct inside, nobody]
    rfl

theorem Replaced.self (existing data : List Dict) : Replaced existing data data := by
  refine ⟨data.map fun entry => (entry, entry), ?_, ?_, fun pair member => ?_⟩
  · rw [List.map_map]
    exact List.map_id data
  · rw [List.map_map]
    exact List.map_id data
  · obtain ⟨entry, -, rfl⟩ := List.mem_map.mp member
    exact ⟨rfl, Or.inl rfl⟩

/-- A flush, and the next one of a process that has detected nothing more, whether it holds its entries as they were or as
the flush has left them. -/
theorem merge_union {existing : Value} {file : Detections} (told : Says existing file)
    (distinct : (identities file.datasets).Nodup) {data : List Dict} (info : Dict)
    (traced : ∀ entry ∈ file.datasets ++ data, Traced entry) :
    ∃ output own, mergeOutputOwn existing data info = some { file := output.text, data := own } ∧ UnionOf file data info output ∧
      ∀ held, held = own ∨ held = data → ∃ again : Detections,
        mergeOutputOwn output.text held info = some { file := again.text, data := held } ∧
          again.datasets = output.datasets ∧ ∀ key, again.info.get? key = output.info.get? key := by
  have listed : ∀ entry ∈ file.datasets ++ data, Listed entry := fun entry member => (traced entry member).listed
  obtain ⟨own, written, -, replaced⟩ := mergeOutputOwn_says told distinct info listed
  let output : Detections := { datasets := data.foldl place file.datasets, info := mergeInfo file.info info }
  have apart : (identities output.datasets).Nodup := nodup_foldl_place distinct listed
  refine ⟨output, own, written, unionOf distinct info traced, fun held either => ?_⟩
  have changed : Replaced file.datasets data held := by
    rcases either with rfl | rfl
    · exact replaced
    · exact Replaced.self file.datasets held
  have still : ∀ entry ∈ output.datasets ++ held, Listed entry :=
    fun entry member => (changed.traced distinct traced entry member).listed
  obtain ⟨later, again, settled, -⟩ := mergeOutputOwn_says (told_text output) apart info still
  obtain rfl := settled (changed.fresh distinct listed)
  exact ⟨_, again, changed.foldl_place distinct traced, mergeInfo_again⟩

theorem traced_of {entry : Dict} {items : List Value} (stored : entry.getD "seen_via" (.list []) = .list items)
    (once : items.Pairwise fun earlier later => later.eq earlier = false) (equal : ∀ value ∈ items, value.eq value = true) :
    Traced entry := by
  have seen : via entry = items := by rw [via, stored]
  exact ⟨⟨items, stored⟩, seen ▸ once, seen ▸ equal⟩

def imdb (fields : List (String × Value)) : Dict := Keyed.ofList (("dataset_name", .str "imdb") :: fields)

/-- The file knows one split; the process has loaded it again, and another split twice. -/
def known : Detections where
  datasets := [imdb [("split", .str "train"), ("seen_via", .list [.str "pandas"])]]
  info := ∅

def loaded : List Dict :=
  [imdb [("split", .str "test"), ("seen_via", .list [.str "datasets"])],
    imdb [("split", .str "train"), ("batch_size", .int 8), ("seen_via", .list [.str "datasets", .str "pandas"])],
    imdb [("split", .str "test"), ("batch_size", .int 4)]]

theorem merge_union_on_example : ∃ output own,
    mergeOutputOwn known.text loaded ∅ = some { file := output.text, data := own } ∧ UnionOf known loaded ∅ output ∧
      ∀ held, held = own ∨ held = loaded → ∃ again : Detections,
        mergeOutputOwn output.text held ∅ = some { file := again.text, data := held } ∧
          again.datasets = output.datasets ∧ ∀ key, again.info.get? key = output.info.get? key := by
  refine merge_union (told_text known) (by decide +kernel) ∅ fun entry member => ?_
  simp only [known, loaded, List.cons_append, List.nil_append, List.mem_cons, List.not_mem_nil, or_false] at member
  rcases member with rfl | rfl | rfl | rfl
  · exact traced_of rfl (by decide +kernel) (by decide +kernel)
  · exact traced_of rfl (by decide +kernel) (by decide +kernel)
  · exact traced_of rfl (by decide +kernel) (by decide +kernel)
  · exact traced_of rfl (by decide +kernel) (by decide +kernel)

/-- What led to a dataset is reported twice, and stays so. -/
def seenTwice : Dict := imdb [("seen_via", .list [.str "datasets", .str "datasets"])]

/-- A process that has recorded something after its checkout. -/
def checkedOut : Dict := Keyed.ofList [("git_commit", .str "4f2a"), ("framework", .str "PyTorch")]

/-- The second flush of the latter moves its git keys to the end. -/
theorem seen_twice_kept :
    ((mergeOutputOwn (.dict []) [seenTwice] ∅).map Output.file = some (Detections.text { datasets := [seenTwice], info := ∅ }) ∧
      ¬(via seenTwice).Pairwise fun earlier later => later.eq earlier = false) ∧
    ((mergeOutputOwn (.dict []) [] checkedOut).bind fun first => mergeOutputOwn first.file first.data checkedOut).map Output.file ≠
      (mergeOutputOwn (.dict []) [] checkedOut).map Output.file := by
  decide +kernel

end AibomWebhook.DetectionUnion
