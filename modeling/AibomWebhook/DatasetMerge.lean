import AibomWebhook.DatasetFiles
import AibomWebhook.Library.FirstSeen
import AibomWebhook.Library.JsonValue

/-! The dataset files that `mergeDatasets` makes one of: the first entry of an identity
stays, the first value of a key stays, and the keys of a checkout stay together. -/

namespace AibomWebhook.DatasetMerge
open Aibomdata DatasetFiles FirstSeen GoEncoding GoText Objects PostprocessData SortedMap

/-- Whether a key is one of a checkout. -/
def isGit (key : String) : Bool := hasPrefix "git_" key

def hasGit (file : DatasetFile) : Bool := file.runtimeInfo.items.any fun entry => isGit entry.1

/-- The value that the first of some files has for a key. -/
def firstValue (files : List DatasetFile) (key : String) : Option (String × String) :=
  files.findSome? fun file => file.runtimeInfo.find? key

/-- The value of a key of the only checkout that is reported. -/
def gitValue (files : List DatasetFile) (key : String) : Option (String × String) :=
  (files.find? hasGit).bind fun file => file.runtimeInfo.find? key

def valueOf (files : List DatasetFile) (key : String) : Option (String × String) :=
  if isGit key then gitValue files key else firstValue files key

section Merge
variable (codec : GoJson)

/-- The files that some texts are read as; a text that is none is passed by. -/
def files (texts : List String) : List DatasetFile :=
  texts.filterMap fun raw => if raw = "" then none else codec.unmarshalDatasets raw

def entries (files : List DatasetFile) : List String := files.flatMap DatasetFile.datasets

/-- What `mergeDatasets` does with one file. -/
def absorb (state : MergeState) (file : DatasetFile) : MergeState :=
  mergeRuntimeInfo (file.datasets.foldl (mergeEntry codec) state) file.runtimeInfo

def start : MergeState := { merged := noFile, seen := [], gitTaken := false }

/-- Some files merged into one. -/
def merged (files : List DatasetFile) : DatasetFile := (files.foldl (absorb codec) start).merged

def render (file : DatasetFile) : String :=
  if file.datasets.isEmpty && file.runtimeInfo.items.isEmpty then "{}" else (codec.marshalDatasets file).getD "{}"

theorem mergeDatasets_eq (texts : List String) : mergeDatasets codec texts = render codec (merged codec (files codec texts)) := by
  have fold {step : MergeState → String → MergeState} (steps : ∀ state raw, step state raw =
      ((if raw = "" then none else codec.unmarshalDatasets raw).map (absorb codec state)).getD state) (state : MergeState) :
      texts.foldl step state = (files codec texts).foldl (absorb codec) state := by
    induction texts generalizing state with
    | nil => rfl
    | cons raw rest ih =>
      rw [List.foldl_cons, steps, files, List.filterMap_cons, ih]
      cases (if raw = "" then none else codec.unmarshalDatasets raw) with
      | none => rfl
      | some file => rfl
  rw [render, merged, ← fold fun state raw => ?_]
  · rfl
  · by_cases empty : raw = ""
    · rw [if_pos empty, if_pos empty]
      rfl
    · rw [if_neg empty, if_neg empty]
      cases codec.unmarshalDatasets raw with
      | none => rfl
      | some file => rfl

/-- What is known when some files were absorbed. -/
structure Absorbed (files : List DatasetFile) (state : MergeState) : Prop where
  datasets : state.merged.datasets = firsts (datasetIdentity codec) (entries files)
  seen : ∀ key, key ∈ state.seen ↔ key ∈ (entries files).filterMap (datasetIdentity codec)
  values : ∀ key, state.merged.runtimeInfo.find? key = valueOf files key
  taken : state.gitTaken = files.any hasGit

variable {codec}

/-- Entries are added in the manner of `firstsAfter`. -/
theorem foldl_mergeEntry (list : List String) (state : MergeState) :
    (list.foldl (mergeEntry codec) state).merged.datasets =
        state.merged.datasets ++ firstsAfter (datasetIdentity codec) state.seen list ∧
      (∀ key, key ∈ (list.foldl (mergeEntry codec) state).seen ↔
        key ∈ list.filterMap (datasetIdentity codec) ∨ key ∈ state.seen) ∧
      (list.foldl (mergeEntry codec) state).merged.runtimeInfo = state.merged.runtimeInfo ∧
      (list.foldl (mergeEntry codec) state).gitTaken = state.gitTaken := by
  induction list generalizing state with
  | nil => exact ⟨(List.append_nil _).symm, fun key => by simp, rfl, rfl⟩
  | cons entry rest ih =>
    obtain ⟨datasets, seen, info, taken⟩ := ih (mergeEntry codec state entry)
    rw [List.foldl_cons, datasets, info, taken]
    cases named : datasetIdentity codec entry with
    | none =>
      have step : mergeEntry codec state entry =
          { state with merged := { state.merged with datasets := state.merged.datasets ++ [entry] } } := by
        rw [mergeEntry, named]
      rw [step] at seen ⊢
      refine ⟨?_, fun key => ?_, rfl, rfl⟩
      · rw [firstsAfter_none named, List.append_assoc, List.singleton_append]
      · rw [seen, List.filterMap_cons_none named]
    | some k =>
      by_cases before : k ∈ state.seen
      · have step : mergeEntry codec state entry = state := by
          simp only [mergeEntry, named, if_pos before]
        rw [step] at seen ⊢
        refine ⟨by rw [firstsAfter_seen named before], fun key => ?_, rfl, rfl⟩
        rw [seen, List.filterMap_cons_some named, List.mem_cons]
        constructor
        · rintro (found | old)
          · exact Or.inl (Or.inr found)
          · exact Or.inr old
        · rintro ((rfl | found) | old)
          · exact Or.inr before
          · exact Or.inl found
          · exact Or.inr old
      · have step : mergeEntry codec state entry =
            { state with merged := { state.merged with datasets := state.merged.datasets ++ [entry] }
                         seen := k :: state.seen } := by
          simp only [mergeEntry, named, if_neg before]
        rw [step] at seen ⊢
        refine ⟨?_, fun key => ?_, rfl, rfl⟩
        · rw [firstsAfter_fresh named before, List.append_assoc, List.singleton_append]
        · rw [seen, List.filterMap_cons_some named, List.mem_cons, List.mem_cons, or_left_comm, or_assoc]

/-- What is done with one key of a file. -/
def put (taken : Bool) (now : StringMap) (entry : String × String) : StringMap :=
  if isGit entry.1 then (if taken then now else now.put entry)
  else if (now.find? entry.1).isSome then now
  else now.put entry

theorem find?_put (taken : Bool) (now : StringMap) (entry : String × String) (key : String) :
    (put taken now entry).find? key =
      if entry.1 = key then
        if isGit key then (if taken then now.find? key else some entry) else (now.find? key).or (some entry)
      else now.find? key := by
  unfold put
  by_cases here : entry.1 = key
  · subst here
    rw [if_pos rfl]
    by_cases git : isGit entry.1 = true
    · rw [if_pos git, if_pos git]
      by_cases is_taken : taken = true
      · rw [if_pos is_taken, if_pos is_taken]
      · rw [if_neg is_taken, if_neg is_taken, Keyed.find?_put_self]
    · rw [if_neg git, if_neg git]
      cases present : now.find? entry.1 with
      | none => rw [Option.isSome_none, if_neg Bool.false_ne_true, Keyed.find?_put_self, Option.none_or]
      | some old => rw [Option.isSome_some, if_pos rfl, present, Option.some_or]
  · rw [if_neg here]
    split
    · split
      · rfl
      · exact Keyed.find?_put_of_ne here now
    · split
      · rfl
      · exact Keyed.find?_put_of_ne here now

theorem find?_foldl_put (taken : Bool) {items : List (String × String)} (distinct : (items.map Prod.fst).Nodup)
    (now : StringMap) (key : String) :
    (items.foldl (put taken) now).find? key =
      if isGit key then
        if taken then now.find? key else (items.find? fun entry => entry.1 = key).or (now.find? key)
      else (now.find? key).or (items.find? fun entry => entry.1 = key) := by
  induction items generalizing now with
  | nil => simp
  | cons entry rest ih =>
    rw [List.map_cons, List.nodup_cons] at distinct
    rw [List.foldl_cons, ih distinct.2, find?_put]
    by_cases here : entry.1 = key
    · have others : rest.find? (fun other => other.1 = key) = none := by
        rw [List.find?_eq_none]
        intro other member same
        exact distinct.1 (List.mem_map.mpr ⟨other, member, (of_decide_eq_true same).trans here.symm⟩)
      rw [if_pos here, others, List.find?_cons_of_pos (by simp [here])]
      split
      · split <;> simp
      · simp
    · rw [if_neg here, List.find?_cons_of_neg (by simp [here])]

/-- One key of a file's values is merged. -/
theorem find?_mergeRuntimeInfo (state : MergeState) (info : StringMap) (key : String) :
    (mergeRuntimeInfo state info).merged.runtimeInfo.find? key =
      if isGit key then
        if state.gitTaken then state.merged.runtimeInfo.find? key
        else (info.find? key).or (state.merged.runtimeInfo.find? key)
      else (state.merged.runtimeInfo.find? key).or (info.find? key) :=
  find?_foldl_put state.gitTaken info.distinct state.merged.runtimeInfo key

theorem absorbed_start : Absorbed codec [] start :=
  ⟨rfl, fun key => by simp [start, entries], fun key => by simp [start, noFile, valueOf, gitValue, firstValue], rfl⟩

theorem hasGit_of_find? {file : DatasetFile} {key : String} {entry : String × String}
    (found : file.runtimeInfo.find? key = some entry) (git : isGit key = true) : hasGit file = true := by
  obtain ⟨member, rfl⟩ := Keyed.find?_some found
  exact List.any_eq_true.mpr ⟨entry, member, git⟩

theorem find?_of_not_hasGit {file : DatasetFile} {key : String} (without : hasGit file = false) (git : isGit key = true) :
    file.runtimeInfo.find? key = none := by
  cases found : file.runtimeInfo.find? key with
  | none => rfl
  | some entry => exact absurd (hasGit_of_find? found git) (by simp [without])

theorem gitValue_append (front back : List DatasetFile) (key : String) :
    gitValue (front ++ back) key = if front.any hasGit then gitValue front key else gitValue back key := by
  rw [gitValue, List.find?_append]
  cases found : front.find? hasGit with
  | none =>
    have none_ : front.any hasGit = false := by
      rw [List.any_eq_false]
      exact List.find?_eq_none.mp found
    rw [none_, if_neg Bool.false_ne_true, Option.none_or]
    rfl
  | some file =>
    have some_ : front.any hasGit = true :=
      List.any_eq_true.mpr ⟨file, List.mem_of_find?_eq_some found, List.find?_some found⟩
    rw [some_, if_pos rfl, Option.some_or, gitValue, found]

theorem gitValue_singleton (file : DatasetFile) {key : String} (git : isGit key = true) :
    gitValue [file] key = file.runtimeInfo.find? key := by
  rw [gitValue]
  cases has : hasGit file with
  | true => rw [List.find?_cons_of_pos has]; rfl
  | false => rw [List.find?_cons_of_neg (by simp [has]), find?_of_not_hasGit has git]; rfl

theorem firstValue_append (front back : List DatasetFile) (key : String) :
    firstValue (front ++ back) key = (firstValue front key).or (firstValue back key) := List.findSome?_append

theorem firstValue_singleton (file : DatasetFile) (key : String) : firstValue [file] key = file.runtimeInfo.find? key := by
  rw [firstValue, List.findSome?_cons]
  cases file.runtimeInfo.find? key <;> rfl

theorem gitValue_none {list : List DatasetFile} (without : list.any hasGit = false) (key : String) :
    gitValue list key = none := by
  have nothing : list.find? hasGit = none := List.find?_eq_none.mpr (List.any_eq_false.mp without)
  rw [gitValue, nothing]
  rfl

/-- The step: one more file is absorbed. -/
theorem Absorbed.absorb {before : List DatasetFile} {state : MergeState} (known : Absorbed codec before state)
    (file : DatasetFile) : Absorbed codec (before ++ [file]) (absorb codec state file) := by
  obtain ⟨datasets, seen, info, taken⟩ := @foldl_mergeEntry codec file.datasets state
  have all : entries (before ++ [file]) = entries before ++ file.datasets := by simp [entries]
  have values (key : String) : (DatasetMerge.absorb codec state file).merged.runtimeInfo.find? key =
      if isGit key then
        if state.gitTaken then state.merged.runtimeInfo.find? key
        else (file.runtimeInfo.find? key).or (state.merged.runtimeInfo.find? key)
      else (state.merged.runtimeInfo.find? key).or (file.runtimeInfo.find? key) := by
    rw [DatasetMerge.absorb, find?_mergeRuntimeInfo, info, taken]
  constructor
  · have unchanged : (DatasetMerge.absorb codec state file).merged.datasets =
        (file.datasets.foldl (mergeEntry codec) state).merged.datasets := rfl
    rw [unchanged, datasets, known.datasets, all, firsts_append]
    exact congrArg _ (firstsAfter_congr known.seen file.datasets)
  · intro key
    have unchanged : (DatasetMerge.absorb codec state file).seen =
        (file.datasets.foldl (mergeEntry codec) state).seen := rfl
    rw [unchanged, seen, known.seen, all, List.filterMap_append, List.mem_append, or_comm]
  · intro key
    rw [values, known.values, known.taken]
    unfold valueOf
    split
    · rename_i git
      rw [gitValue_append, gitValue_singleton file git]
      split
      · rfl
      · rename_i without
        rw [gitValue_none (by simpa using without), Option.or_none]
    · rw [firstValue_append, firstValue_singleton]
  · have unchanged : (DatasetMerge.absorb codec state file).gitTaken =
        ((file.datasets.foldl (mergeEntry codec) state).gitTaken || hasGit file) := rfl
    rw [unchanged, taken, known.taken, List.any_append]
    simp

/-- The run: the induction is on the files from the last one. -/
theorem absorbed_foldl (list : List DatasetFile) : Absorbed codec list (list.foldl (DatasetMerge.absorb codec) start) := by
  induction list using List.reverseRecOn with
  | nil => exact absorbed_start
  | append_singleton before file ih =>
    rw [List.foldl_append]
    exact ih.absorb file

theorem datasets_merged (list : List DatasetFile) :
    (merged codec list).datasets = firsts (datasetIdentity codec) (entries list) := (absorbed_foldl list).datasets

theorem find?_merged (list : List DatasetFile) (key : String) :
    (merged codec list).runtimeInfo.find? key = valueOf list key := (absorbed_foldl list).values key

end Merge

/-! With `encoding/json`. -/

section Json
variable (visit : Visit) (containers : List ContainerInfo → String) (time : Time → String)

theorem find?_visit (file : DatasetFile) (key : String) :
    (visit.file file).runtimeInfo.find? key = file.runtimeInfo.find? key := find?_of_perm (visit.perm file.runtimeInfo) key

theorem hasGit_visit (file : DatasetFile) : hasGit (visit.file file) = hasGit file := by
  rw [Bool.eq_iff_iff, hasGit, hasGit, List.any_eq_true, List.any_eq_true]
  exact exists_congr fun entry => and_congr_left fun _ => (visit.perm file.runtimeInfo).mem_iff

theorem readable_visit {file : DatasetFile} (readable : Readable file) : Readable (visit.file file) :=
  ⟨readable.datasets, fun entry member => readable.runtimeInfo entry ((visit.perm _).mem_iff.mp member)⟩

/-- The files that some texts are, before their maps are gone through. -/
def plainFiles (texts : List String) : List DatasetFile :=
  texts.filterMap fun raw => if raw = "" then none else (read raw).bind decodeFile

theorem files_eq (texts : List String) : files (goJson visit containers time) texts = (plainFiles texts).map visit.file := by
  rw [files, plainFiles, List.map_filterMap]
  refine congrArg (fun test => List.filterMap test texts) (funext fun raw => ?_)
  split <;> rfl

theorem plainFiles_readable {texts : List String} : ∀ file ∈ plainFiles texts, Readable file := by
  intro file member
  obtain ⟨raw, _, found⟩ := List.mem_filterMap.mp member
  split at found
  · cases found
  · obtain ⟨parsed, here, decoded⟩ := Option.bind_eq_some_iff.mp found
    exact readable_of_read here decoded

theorem entries_visit (list : List DatasetFile) : entries (list.map visit.file) = entries list := by
  rw [entries, entries, List.flatMap_map]
  rfl

theorem valueOf_visit (list : List DatasetFile) (key : String) : valueOf (list.map visit.file) key = valueOf list key := by
  have first : firstValue (list.map visit.file) key = firstValue list key := by
    rw [firstValue, firstValue, List.findSome?_map]
    exact congrArg (fun test => List.findSome? test list) (funext fun file => find?_visit visit file key)
  have checkout : gitValue (list.map visit.file) key = gitValue list key := by
    have same : hasGit ∘ visit.file = hasGit := funext (hasGit_visit visit)
    rw [gitValue, gitValue, List.find?_map, same]
    cases list.find? hasGit with
    | none => rfl
    | some file => exact find?_visit visit file key
  rw [valueOf, valueOf, first, checkout]

theorem find?_of_valueOf {list : List DatasetFile} {key : String} {entry : String × String}
    (found : valueOf list key = some entry) : ∃ file ∈ list, file.runtimeInfo.find? key = some entry := by
  unfold valueOf at found
  split at found
  · obtain ⟨file, first, here⟩ := Option.bind_eq_some_iff.mp found
    exact ⟨file, List.mem_of_find?_eq_some first, here⟩
  · exact List.exists_of_findSome?_eq_some found

theorem entries_readable {list : List DatasetFile} (readable : ∀ file ∈ list, Readable file) :
    ∀ entry ∈ entries list, Entry entry := by
  intro entry member
  obtain ⟨file, inside, here⟩ := List.mem_flatMap.mp member
  exact (readable file inside).datasets entry here

theorem merged_readable (codec : GoJson) {list : List DatasetFile} (readable : ∀ file ∈ list, Readable file) :
    Readable (merged codec list) := by
  constructor
  · intro entry member
    rw [datasets_merged] at member
    exact entries_readable readable entry (firstsAfter_subset [] _ entry member)
  · intro entry member
    have found := Keyed.mem_items_iff.mp member
    rw [find?_merged] at found
    obtain ⟨file, inside, here⟩ := find?_of_valueOf found
    exact (readable file inside).runtimeInfo entry (Keyed.find?_some here).1

/-- A written file depends only on its entries as they are written and on the value of each key. -/
theorem marshalDatasets_congr {first second : DatasetFile} (one : Readable first) (other : Readable second)
    (datasets : first.datasets.map compactText = second.datasets.map compactText)
    (values : ∀ key, first.runtimeInfo.find? key = second.runtimeInfo.find? key) :
    marshalDatasets first = marshalDatasets second := by
  obtain ⟨raws, read_, texts, sound⟩ := entries_read one.datasets
  obtain ⟨others, otherRead, otherTexts, otherSound⟩ := entries_read other.datasets
  have again {raw : JsonText.Raw} (fine : raw.legal = true ∧ raw.depth + 2 ≤ maxNestingDepth) :
      read (compact raw).text = some (compact raw) :=
    JsonText.parse_text (compact_legal fine.1) (by rw [depth_compact]; exact Nat.le_trans (Nat.le_add_right _ 2) fine.2)
  have same : raws.map compact = others.map compact := by
    have written := congrArg (List.map read) (texts.symm.trans (datasets.trans otherTexts))
    rw [List.map_map, List.map_map] at written
    have left : raws.map (read ∘ fun raw => (compact raw).text) = (raws.map compact).map some := by
      rw [List.map_map]
      exact List.map_congr_left fun raw member => again (sound raw member)
    have right : others.map (read ∘ fun raw => (compact raw).text) = (others.map compact).map some := by
      rw [List.map_map]
      exact List.map_congr_left fun raw member => again (otherSound raw member)
    rw [left, right] at written
    exact (List.map_inj_right fun _ _ => Option.some.inj).mp written
  have tree (members : List (List JsonText.Glyph × JsonText.Raw)) : fileTree raws members = fileTree others members := by
    have length : raws.isEmpty = others.isEmpty := by
      rw [← List.isEmpty_map (f := compact), same, List.isEmpty_map]
    rw [fileTree, fileTree, same, length]
  rw [marshalDatasets, marshalDatasets, read_, otherRead, sorted_congr values]
  cases (sorted second.runtimeInfo).mapM fun entry => (read entry.2).map fun raw =>
      (JsonText.escape entry.1.toList, raw) with
  | none => rfl
  | some members => exact congrArg (fun raw => some (JsonText.Raw.text raw)) (tree members)

theorem render_congr {first second : DatasetFile} (one : Readable first) (other : Readable second)
    (datasets : first.datasets.map compactText = second.datasets.map compactText)
    (values : ∀ key, first.runtimeInfo.find? key = second.runtimeInfo.find? key) :
    render (goJson visit containers time) first = render (goJson visit containers time) second := by
  have entries : first.datasets.isEmpty = second.datasets.isEmpty := by
    rw [← List.isEmpty_map (f := compactText), datasets, List.isEmpty_map]
  have infos : first.runtimeInfo.items.isEmpty = second.runtimeInfo.items.isEmpty := by
    rw [← (sorted_perm first.runtimeInfo).isEmpty_eq, sorted_congr values, (sorted_perm second.runtimeInfo).isEmpty_eq]
  have written : (goJson visit containers time).marshalDatasets first = (goJson visit containers time).marshalDatasets second :=
    marshalDatasets_congr one other datasets values
  rw [render, render, entries, infos, written]

theorem normal_empty {file : DatasetFile} (datasets : file.datasets = []) (infos : file.runtimeInfo.items = []) :
    normal file = noFile := by
  have nothing : sorted file.runtimeInfo = [] := by
    rw [sorted, infos]
    rfl
  rw [normal, datasets, nothing]
  rfl

theorem read_braces : read "{}" = some (.object []) := by
  have braces : "{}" = (JsonText.Raw.object []).text := by decide
  rw [braces]
  exact JsonText.parse_text rfl (Nat.le_of_ble_eq_true rfl)

theorem read_empty : read "" = none := by
  simp [DatasetFiles.read, JsonText.parse, JsonText.value, JsonText.skip]

/-- What is written is read again. -/
theorem read_render {file : DatasetFile} (readable : Readable file) :
    (read (render (goJson visit containers time) file)).bind decodeFile = some (normal file) := by
  obtain ⟨text, written, again⟩ := read_marshalDatasets readable
  have marshal : (goJson visit containers time).marshalDatasets file = some text := written
  unfold render
  split
  · rename_i empty
    rw [Bool.and_eq_true, List.isEmpty_iff, List.isEmpty_iff] at empty
    rw [normal_empty empty.1 empty.2, read_braces]
    rfl
  · rw [marshal, Option.getD_some]
    exact again

/-- What some texts are merged into. -/
def mergedOf (texts : List String) : DatasetFile := merged (goJson visit containers time) (plainFiles texts)

theorem mergedOf_readable (texts : List String) : Readable (mergedOf visit containers time texts) :=
  merged_readable _ plainFiles_readable

/-- The order in which maps are gone through does not matter. -/
theorem mergeDatasets_visit (other : Visit) (texts : List String) :
    mergeDatasets (goJson visit containers time) texts =
      render (goJson other containers time) (mergedOf other containers time texts) := by
  rw [mergeDatasets_eq, files_eq]
  have readable : ∀ file ∈ (plainFiles texts).map visit.file, Readable file := by
    rw [List.forall_mem_map]
    exact fun file member => readable_visit visit (plainFiles_readable file member)
  refine render_congr other containers time (merged_readable _ readable) (mergedOf_readable other containers time texts) ?_
    fun key => ?_
  · rw [mergedOf, datasets_merged, datasets_merged, entries_visit]
    rfl
  · rw [mergedOf, find?_merged, find?_merged, valueOf_visit]

theorem mergeDatasets_eq_render (texts : List String) : mergeDatasets (goJson visit containers time) texts =
    render (goJson visit containers time) (mergedOf visit containers time texts) :=
  mergeDatasets_visit visit containers time visit texts

/-- The merged file is read again. -/
theorem read_mergeDatasets (texts : List String) :
    (read (mergeDatasets (goJson visit containers time) texts)).bind decodeFile =
      some (normal (mergedOf visit containers time texts)) := by
  rw [mergeDatasets_eq_render]
  exact read_render visit containers time (mergedOf_readable visit containers time texts)

theorem find?_normal (file : DatasetFile) (key : String) :
    (normal file).runtimeInfo.find? key = file.runtimeInfo.find? key := by
  have items : (Keyed.ofList (sorted file.runtimeInfo) : StringMap).items = sorted file.runtimeInfo :=
    Keyed.items_putAll (by simpa using nodup_sorted file.runtimeInfo)
  exact find?_of_perm (by rw [normal, items]; exact sorted_perm file.runtimeInfo) key

theorem plainFiles_singleton {text : String} {file : DatasetFile} (found : (read text).bind decodeFile = some file) :
    plainFiles [text] = [file] := by
  have nonempty : text ≠ "" := by
    rintro rfl
    rw [read_empty] at found
    cases found
  rw [plainFiles, List.filterMap_cons, if_neg nonempty, found]
  rfl

theorem plainFiles_append (front back : List String) : plainFiles (front ++ back) = plainFiles front ++ plainFiles back :=
  List.filterMap_append

theorem hasGit_normal (texts : List String) :
    hasGit (normal (mergedOf visit containers time texts)) = (plainFiles texts).any hasGit := by
  have values (key : String) : (normal (mergedOf visit containers time texts)).runtimeInfo.find? key =
      valueOf (plainFiles texts) key := by rw [find?_normal, mergedOf, find?_merged]
  rw [Bool.eq_iff_iff]
  constructor
  · intro has
    obtain ⟨entry, member, git⟩ := List.any_eq_true.mp has
    have found := Keyed.mem_items_iff.mp member
    rw [values] at found
    obtain ⟨file, inside, here⟩ := find?_of_valueOf found
    exact List.any_eq_true.mpr ⟨file, inside, hasGit_of_find? here git⟩
  · intro some_
    cases first : (plainFiles texts).find? hasGit with
    | none =>
      obtain ⟨file, inside, has⟩ := List.any_eq_true.mp some_
      exact absurd has (List.find?_eq_none.mp first file inside)
    | some file =>
      have has : hasGit file = true := @List.find?_some _ hasGit _ _ first
      obtain ⟨entry, member, git⟩ := List.any_eq_true.mp has
      have found := Keyed.mem_items_iff.mp member
      refine @hasGit_of_find? _ entry.1 entry ?_ git
      rw [values, valueOf, if_pos git, gitValue, first]
      exact found

theorem plainFiles_two (xs ys : List String) :
    plainFiles [mergeDatasets (goJson visit containers time) xs, mergeDatasets (goJson visit containers time) ys] =
      [normal (mergedOf visit containers time xs)] ++ [normal (mergedOf visit containers time ys)] := by
  rw [← List.singleton_append, plainFiles_append, plainFiles_singleton (read_mergeDatasets visit containers time xs),
    plainFiles_singleton (read_mergeDatasets visit containers time ys)]

theorem valueOf_normal (texts : List String) (key : String) :
    (normal (mergedOf visit containers time texts)).runtimeInfo.find? key = valueOf (plainFiles texts) key := by
  rw [find?_normal, mergedOf, find?_merged]

theorem valueOf_two (xs ys : List String) (key : String) :
    valueOf ([normal (mergedOf visit containers time xs)] ++ [normal (mergedOf visit containers time ys)]) key =
      valueOf (plainFiles xs ++ plainFiles ys) key := by
  have one := valueOf_normal visit containers time xs key
  have other := valueOf_normal visit containers time ys key
  unfold valueOf at one other ⊢
  split
  · rename_i git
    rw [if_pos git] at one other
    rw [gitValue_append, gitValue_append, gitValue_singleton _ git, gitValue_singleton _ git, List.any_cons, List.any_nil,
      Bool.or_false, hasGit_normal, one, other]
  · rename_i plain
    rw [if_neg plain] at one other
    rw [firstValue_append, firstValue_append, firstValue_singleton, firstValue_singleton, one, other]

/-- Entries that are chosen and written, and then chosen once more. -/
theorem firsts_compactText {front back : List String} (fronts : ∀ entry ∈ front, Entry entry)
    (backs : ∀ entry ∈ back, Entry entry) :
    firsts (datasetIdentity (goJson visit containers time))
        ((firsts (datasetIdentity (goJson visit containers time)) front).map compactText ++
          (firsts (datasetIdentity (goJson visit containers time)) back).map compactText) =
      (firsts (datasetIdentity (goJson visit containers time)) (front ++ back)).map compactText := by
  have kept : ∀ entry ∈ firsts (datasetIdentity (goJson visit containers time)) front ++
      firsts (datasetIdentity (goJson visit containers time)) back,
      datasetIdentity (goJson visit containers time) (compactText entry) =
        datasetIdentity (goJson visit containers time) entry := by
    intro entry member
    refine datasetIdentity_compactText visit containers time ?_
    rcases List.mem_append.mp member with first | second
    · exact fronts entry (firstsAfter_subset [] front entry first)
    · exact backs entry (firstsAfter_subset [] back entry second)
  rw [← List.map_append, firsts, firstsAfter_map [] kept, ← firsts, firsts_append_firsts]

theorem map_compactText_twice {list : List String} (readable : ∀ entry ∈ list, Entry entry) :
    (list.map compactText).map compactText = list.map compactText := by
  rw [List.map_map]
  exact List.map_congr_left fun entry member => compactText_compactText (readable entry member)

theorem entries_append (front back : List DatasetFile) : entries (front ++ back) = entries front ++ entries back :=
  List.flatMap_append

/-- Merging two merged files merges all of the files. -/
theorem mergeDatasets_append (xs ys : List String) : mergeDatasets (goJson visit containers time) (xs ++ ys) =
    mergeDatasets (goJson visit containers time)
      [mergeDatasets (goJson visit containers time) xs, mergeDatasets (goJson visit containers time) ys] := by
  rw [mergeDatasets_eq_render, mergeDatasets_eq_render _ _ _ [_, _]]
  refine render_congr visit containers time (mergedOf_readable visit containers time _)
    (mergedOf_readable visit containers time _) ?_ fun key => ?_
  · have fronts : ∀ entry ∈ entries (plainFiles xs), Entry entry := entries_readable plainFiles_readable
    have backs : ∀ entry ∈ entries (plainFiles ys), Entry entry := entries_readable plainFiles_readable
    have all : ∀ entry ∈ firsts (datasetIdentity (goJson visit containers time))
        (entries (plainFiles xs) ++ entries (plainFiles ys)), Entry entry := by
      intro entry member
      rcases List.mem_append.mp (firstsAfter_subset [] _ entry member) with first | second
      · exact fronts entry first
      · exact backs entry second
    have two : entries ([normal (mergedOf visit containers time xs)] ++ [normal (mergedOf visit containers time ys)]) =
        (firsts (datasetIdentity (goJson visit containers time)) (entries (plainFiles xs))).map compactText ++
          (firsts (datasetIdentity (goJson visit containers time)) (entries (plainFiles ys))).map compactText := by
      rw [← datasets_merged, ← datasets_merged]
      simp [entries, normal, mergedOf]
    rw [mergedOf, mergedOf, datasets_merged, datasets_merged, plainFiles_two, plainFiles_append, entries_append, two,
      firsts_compactText visit containers time fronts backs, map_compactText_twice all]
  · rw [mergedOf, mergedOf, find?_merged, find?_merged, plainFiles_two, plainFiles_append, valueOf_two]

/-- Files that were merged already add nothing to the values. -/
theorem valueOf_append_subset {front back : List DatasetFile} (inside : ∀ file ∈ back, file ∈ front) (key : String) :
    valueOf (front ++ back) key = valueOf front key := by
  unfold valueOf
  split
  · rw [gitValue_append]
    split
    · rfl
    · rename_i without
      have none_ : front.any hasGit = false := by simpa using without
      have later : back.any hasGit = false :=
        List.any_eq_false.mpr fun file member => List.any_eq_false.mp none_ file (inside file member)
      rw [gitValue_none none_, gitValue_none later]
  · rw [firstValue_append]
    cases found : firstValue front key with
    | some entry => rfl
    | none =>
      have later : firstValue back key = none :=
        List.findSome?_eq_none_iff.mpr fun file member => List.findSome?_eq_none_iff.mp found file (inside file member)
      rw [later]
      rfl

theorem plainFiles_subset {texts more : List String} (inside : ∀ text ∈ more, text ∈ texts) :
    ∀ file ∈ plainFiles more, file ∈ plainFiles texts := by
  intro file member
  obtain ⟨text, present, found⟩ := List.mem_filterMap.mp member
  exact List.mem_filterMap.mpr ⟨text, inside text present, found⟩

/-- Texts that were merged already only add their entries without an identity. -/
theorem datasets_append_subset {xs zs : List String} (inside : ∀ z ∈ zs, z ∈ xs) :
    (mergedOf visit containers time (xs ++ zs)).datasets = (mergedOf visit containers time xs).datasets ++
      (entries (plainFiles zs)).filter fun entry => (datasetIdentity (goJson visit containers time) entry).isNone := by
  have known : ∀ entry ∈ entries (plainFiles zs), ∀ key,
      datasetIdentity (goJson visit containers time) entry = some key →
        key ∈ (entries (plainFiles xs)).filterMap (datasetIdentity (goJson visit containers time)) := by
    intro entry member key named
    obtain ⟨file, present, here⟩ := List.mem_flatMap.mp member
    exact List.mem_filterMap.mpr ⟨entry, List.mem_flatMap.mpr ⟨file, plainFiles_subset inside file present, here⟩, named⟩
  rw [mergedOf, mergedOf, datasets_merged, datasets_merged, plainFiles_append, entries_append, firsts_append,
    firstsAfter_of_seen known]

end Json

end AibomWebhook.DatasetMerge
