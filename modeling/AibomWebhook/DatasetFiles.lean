import AibomWebhook.Library.GoEncoding
import AibomWebhook.PostprocessData

/-! How the watcher reads and writes JSON with encoding/json: the dataset files of
`mergeDatasets`, their entries, and payloads as raw messages. A file that was written is
read again. -/

namespace AibomWebhook.DatasetFiles
open Aibomdata GoEncoding JsonText Objects PostprocessData SortedMap

/-- Deeper texts are refused. -/
def maxNestingDepth : Nat := 10000

def read (text : String) : Option Raw := parse maxNestingDepth text

/-- A letter as names of fields are compared: of the others only two fold to an ASCII letter. -/
def foldRune (c : Char) : Char :=
  if 'a' ≤ c ∧ c ≤ 'z' then c.toUpper else if c = '\u017F' then 'S' else if c = '\u212A' then 'K' else c

def isField (field key : String) : Bool := field.toList.map foldRune = key.toList.map foldRune

/-- The values of a map as texts. -/
def textEntries (members : List (String × Any)) : List (String × String) :=
  members.map fun member => (member.1, (encode member.2).text)

/-- One member of a dataset file is decoded; the white space of an entry is not kept. -/
def decodeField (file : DatasetFile) (member : List Glyph × Raw) : Option DatasetFile :=
  if isField "datasets" (name member.1) then
    match member.2 with
    | .null => some { file with datasets := [] }
    | .array items => some { file with datasets := items.map Raw.text }
    | _ => none
  else if isField "runtime_info" (name member.1) then
    match decode member.2 with
    | some .null => some { file with runtimeInfo := ∅ }
    | some (.object found) => some { file with runtimeInfo := Keyed.putAll (textEntries found) file.runtimeInfo }
    | _ => none
  else some file

def noFile : DatasetFile := { datasets := [], runtimeInfo := ∅ }

def decodeFile : Raw → Option DatasetFile
  | .null => some noFile
  | .object members => members.foldlM decodeField noFile
  | _ => none

/-- The tree of a dataset file; what is empty is omitted. -/
def fileTree (entries : List Raw) (members : List (List Glyph × Raw)) : Raw :=
  .object ((if entries.isEmpty then [] else [(escape "datasets".toList, .array (entries.map compact))]) ++
    (if members.isEmpty then [] else [(escape "runtime_info".toList, .object members)]))

def marshalDatasets (file : DatasetFile) : Option String :=
  match file.datasets.mapM read,
    (sorted file.runtimeInfo).mapM (fun entry => (read entry.2).map fun raw => (escape entry.1.toList, raw)) with
  | some entries, some members => some (fileTree entries members).text
  | _, _ => none

def unmarshalObject (text : String) : Option StringMap :=
  match (read text).bind decode with
  | some .null => some ∅
  | some (.object members) => some (Keyed.ofList (textEntries members))
  | _ => none

def marshalValues (values : List (Option String)) : Option String :=
  (values.mapM fun value => match value with
    | none => some Raw.null
    | some text => read text).map fun raws => (Raw.array raws).text

def marshalRaw (messages : List String) : Option String :=
  (messages.mapM read).map fun raws => (Raw.array (raws.map compact)).text

def marshalMap (map : StringMap) : String :=
  (encode (.object ((sorted map).map fun entry => (entry.1, .text entry.2)))).text

/-- The order in which a map is gone through, which Go leaves open. -/
structure Visit where
  order : StringMap → StringMap
  perm : ∀ map, (order map).items.Perm map.items

def Visit.file (visit : Visit) (file : DatasetFile) : DatasetFile :=
  { file with runtimeInfo := visit.order file.runtimeInfo }

/-- The package `encoding/json`; how containers and times are written is left open. -/
def goJson (visit : Visit) (marshalContainers : List ContainerInfo → String) (formatTime : Time → String) : GoJson where
  marshalRaw := marshalRaw
  marshalMap := marshalMap
  unmarshalDatasets := fun text => ((read text).bind decodeFile).map visit.file
  unmarshalObject := unmarshalObject
  marshalValues := marshalValues
  marshalDatasets := marshalDatasets
  marshalContainers := marshalContainers
  formatTime := formatTime

/-! What is read can be written. -/

/-- A text that was read from inside a dataset file. -/
def Entry (text : String) : Prop := ∃ raw : Raw, raw.legal = true ∧ raw.depth + 2 ≤ maxNestingDepth ∧ text = raw.text

/-- A text that was decoded and encoded there. -/
def Info (text : String) : Prop :=
  ∃ value : Any, Canonical value ∧ (encode value).depth + 2 ≤ maxNestingDepth ∧ text = (encode value).text

structure Readable (file : DatasetFile) : Prop where
  datasets : ∀ entry ∈ file.datasets, Entry entry
  runtimeInfo : ∀ entry ∈ file.runtimeInfo.items, Info entry.2

theorem Info.entry {text : String} (info : Info text) : Entry text := by
  obtain ⟨value, canonical, shallow, rfl⟩ := info
  exact ⟨encode value, encode_legal canonical, shallow, rfl⟩

theorem Entry.read {text : String} (entry : Entry text) :
    ∃ raw, DatasetFiles.read text = some raw ∧ raw.legal = true ∧ raw.depth + 2 ≤ maxNestingDepth ∧ text = raw.text := by
  obtain ⟨raw, legal, shallow, rfl⟩ := entry
  exact ⟨raw, parse_text legal (Nat.le_trans (Nat.le_add_right _ 2) shallow), legal, shallow, rfl⟩

theorem readable_noFile : Readable noFile :=
  ⟨fun _ member => absurd member List.not_mem_nil, fun _ member => absurd member List.not_mem_nil⟩

theorem decodeField_readable {file changed : DatasetFile} {member : List Glyph × Raw} (readable : Readable file)
    (legal : member.2.legal = true) (shallow : member.2.depth + 1 ≤ maxNestingDepth)
    (read : decodeField file member = some changed) : Readable changed := by
  obtain ⟨key, raw⟩ := member
  unfold decodeField at read
  split at read
  · split at read
    · obtain rfl := Option.some.inj read
      exact ⟨fun entry member => absurd member List.not_mem_nil, readable.runtimeInfo⟩
    · rename_i items array
      obtain rfl := Option.some.inj read
      dsimp only at array legal shallow
      subst array
      refine ⟨fun entry member => ?_, readable.runtimeInfo⟩
      obtain ⟨item, inside, rfl⟩ := List.mem_map.mp member
      have below := depthItems_le_iff.mp (Nat.le_refl _) item inside
      simp only [Raw.depth] at shallow
      exact ⟨item, legalItems_iff.mp legal item inside, by omega, rfl⟩
    · cases read
  · split at read
    · split at read
      · obtain rfl := Option.some.inj read
        exact ⟨readable.datasets, fun entry member => absurd member List.not_mem_nil⟩
      · rename_i found decoded
        obtain rfl := Option.some.inj read
        refine ⟨readable.datasets, fun entry member => ?_⟩
        rcases Keyed.mem_putAll member with new | old
        · obtain ⟨source, inside, rfl⟩ := List.mem_map.mp new
          have below := depth_encode decoded (Nat.le_refl _)
          cases canonical_of_decode decoded with
          | object _ each =>
            have inner := depthMembers_le_iff.mp (Nat.le_refl _) (escape source.1.toList, encode source.2)
              (encodeMembers_eq_map found ▸ List.mem_map_of_mem
                (f := fun member : String × Any => (escape member.1.toList, encode member.2)) inside)
            simp only [encode, Raw.depth] at below
            dsimp only at inner shallow below
            exact ⟨source.2, each source inside, by omega, rfl⟩
        · exact readable.runtimeInfo entry old
      · cases read
    · obtain rfl := Option.some.inj read
      exact readable

theorem foldlM_readable {members : List (List Glyph × Raw)} {file changed : DatasetFile} (readable : Readable file)
    (legal : ∀ member ∈ members, member.2.legal = true)
    (shallow : ∀ member ∈ members, member.2.depth + 1 ≤ maxNestingDepth)
    (read : members.foldlM decodeField file = some changed) : Readable changed := by
  induction members generalizing file with
  | nil =>
    obtain rfl := Option.some.inj read
    exact readable
  | cons member rest ih =>
    rw [List.foldlM_cons] at read
    obtain ⟨next, here, later⟩ := Option.bind_eq_some_iff.mp read
    exact ih (decodeField_readable readable (legal member List.mem_cons_self) (shallow member List.mem_cons_self) here)
      (fun other inside => legal other (List.mem_cons_of_mem member inside))
      (fun other inside => shallow other (List.mem_cons_of_mem member inside)) later

theorem readable_of_read {text : String} {raw : Raw} {file : DatasetFile} (parsed : read text = some raw)
    (decoded : decodeFile raw = some file) : Readable file := by
  have sound := parse_sound parsed
  unfold decodeFile at decoded
  split at decoded
  · obtain rfl := Option.some.inj decoded
    exact readable_noFile
  · rename_i members
    have below := depthMembers_le_iff.mp (Nat.le_sub_one_of_lt sound.shallow)
    refine foldlM_readable readable_noFile (fun member inside => (legalMembers_iff.mp sound.legal member inside).2) ?_ decoded
    intro member inside
    have shallow := sound.shallow
    simp only [Raw.depth] at shallow
    have inner := depthMembers_le_iff.mp (Nat.le_refl _) member inside
    omega
  · cases decoded

/-! What is written is read again. -/

/-- An entry as it is written. -/
def compactText (entry : String) : String :=
  match read entry with
  | some raw => (compact raw).text
  | none => entry

/-- A file that was written and read again. -/
def normal (file : DatasetFile) : DatasetFile :=
  { datasets := file.datasets.map compactText, runtimeInfo := Keyed.ofList (sorted file.runtimeInfo) }

theorem entries_read {entries : List String} (readable : ∀ entry ∈ entries, Entry entry) :
    ∃ raws : List Raw, entries.mapM read = some raws ∧ entries.map compactText = raws.map (fun raw => (compact raw).text) ∧
      ∀ raw ∈ raws, raw.legal = true ∧ raw.depth + 2 ≤ maxNestingDepth := by
  induction entries with
  | nil => exact ⟨[], rfl, rfl, fun raw member => absurd member List.not_mem_nil⟩
  | cons entry rest ih =>
    obtain ⟨raw, parsed, legal, shallow, _⟩ := (readable entry List.mem_cons_self).read
    obtain ⟨raws, all, texts, each⟩ := ih fun other member => readable other (List.mem_cons_of_mem entry member)
    have here : compactText entry = (compact raw).text := by rw [compactText, parsed]
    refine ⟨raw :: raws, ?_, by rw [List.map_cons, List.map_cons, here, texts], ?_⟩
    · rw [List.mapM_cons, parsed, all]
      rfl
    · rw [List.forall_mem_cons]
      exact ⟨⟨legal, shallow⟩, each⟩

theorem infos_read {entries : List (String × String)} (readable : ∀ entry ∈ entries, Info entry.2) :
    ∃ values : List (String × Any),
      entries.mapM (fun entry => (read entry.2).map fun raw => (escape entry.1.toList, raw)) = some (encodeMembers values) ∧
      textEntries values = entries ∧
      ∀ value ∈ values, Canonical value.2 ∧ (encode value.2).depth + 2 ≤ maxNestingDepth := by
  induction entries with
  | nil => exact ⟨[], rfl, rfl, fun raw member => absurd member List.not_mem_nil⟩
  | cons entry rest ih =>
    obtain ⟨key, text⟩ := entry
    obtain ⟨value, canonical, shallow, written⟩ := readable (key, text) List.mem_cons_self
    obtain ⟨values, all, texts, each⟩ := ih fun other member => readable other (List.mem_cons_of_mem _ member)
    dsimp only at written
    have parsed : read text = some (encode value) := by
      rw [written]
      exact parse_text (encode_legal canonical) (Nat.le_trans (Nat.le_add_right _ 2) shallow)
    refine ⟨(key, value) :: values, ?_, ?_, ?_⟩
    · rw [List.mapM_cons, all]
      dsimp only
      rw [parsed]
      rfl
    · rw [textEntries, List.map_cons, written]
      exact congrArg _ texts
    · rw [List.forall_mem_cons]
      exact ⟨⟨canonical, shallow⟩, each⟩

theorem fileTree_legal {raws : List Raw} {values : List (String × Any)} (entries : ∀ raw ∈ raws, raw.legal = true)
    (infos : ∀ value ∈ values, Canonical value.2) : (fileTree raws (encodeMembers values)).legal = true := by
  rw [fileTree, Raw.legal, legalMembers_iff]
  intro member present
  rcases List.mem_append.mp present with first | second
  · split at first
    · exact absurd first List.not_mem_nil
    · obtain rfl := List.mem_singleton.mp first
      refine ⟨escape_legal _, ?_⟩
      rw [Raw.legal, legalItems_iff, List.forall_mem_map]
      exact fun raw inside => compact_legal (entries raw inside)
  · split at second
    · exact absurd second List.not_mem_nil
    · obtain rfl := List.mem_singleton.mp second
      refine ⟨escape_legal _, ?_⟩
      rw [Raw.legal, legalMembers_iff, encodeMembers_eq_map, List.forall_mem_map]
      exact fun value inside => ⟨escape_legal _, encode_legal (infos value inside)⟩

theorem fileTree_shallow {raws : List Raw} {values : List (String × Any)}
    (entries : ∀ raw ∈ raws, raw.depth + 2 ≤ maxNestingDepth)
    (infos : ∀ value ∈ values, (encode value.2).depth + 2 ≤ maxNestingDepth) :
    (fileTree raws (encodeMembers values)).depth ≤ maxNestingDepth := by
  have outer : depthMembers ((if raws.isEmpty then [] else [(escape "datasets".toList, .array (raws.map compact))]) ++
      (if (encodeMembers values).isEmpty then []
        else [(escape "runtime_info".toList, .object (encodeMembers values))])) ≤ maxNestingDepth - 1 := by
    rw [depthMembers_le_iff]
    intro member present
    rcases List.mem_append.mp present with first | second
    · split at first
      · exact absurd first List.not_mem_nil
      · obtain rfl := List.mem_singleton.mp first
        have inner : depthItems (raws.map compact) ≤ maxNestingDepth - 2 := by
          rw [depthItems_le_iff, List.forall_mem_map]
          intro raw inside
          rw [depth_compact]
          exact Nat.le_sub_of_add_le (entries raw inside)
        simp only [Raw.depth, maxNestingDepth] at inner ⊢
        omega
    · split at second
      · exact absurd second List.not_mem_nil
      · obtain rfl := List.mem_singleton.mp second
        have inner : depthMembers (encodeMembers values) ≤ maxNestingDepth - 2 := by
          rw [depthMembers_le_iff, encodeMembers_eq_map, List.forall_mem_map]
          exact fun value inside => Nat.le_sub_of_add_le (infos value inside)
        simp only [Raw.depth, maxNestingDepth] at inner ⊢
        omega
  simp only [fileTree, Raw.depth, maxNestingDepth] at outer ⊢
  omega

theorem decodeField_datasets (file : DatasetFile) (items : List Raw) :
    decodeField file (escape "datasets".toList, .array items) = some { file with datasets := items.map Raw.text } := by
  have named : isField "datasets" (name (escape "datasets".toList)) = true := by
    rw [name_escape]
    decide
  rw [decodeField, if_pos named]

theorem decodeField_runtimeInfo (file : DatasetFile) {values : List (String × Any)} (canonical : Canonical (.object values)) :
    decodeField file (escape "runtime_info".toList, .object (encodeMembers values)) =
      some { file with runtimeInfo := Keyed.putAll (textEntries values) file.runtimeInfo } := by
  have other : ¬ isField "datasets" (name (escape "runtime_info".toList)) = true := by
    rw [name_escape]
    decide
  have named : isField "runtime_info" (name (escape "runtime_info".toList)) = true := by
    rw [name_escape]
    decide
  have decoded : decode (.object (encodeMembers values)) = some (.object values) := decode_encode canonical
  rw [decodeField, if_neg other, if_pos named]
  dsimp only
  rw [decoded]

theorem decodeFile_fileTree (raws : List Raw) {values : List (String × Any)} (canonical : Canonical (.object values)) :
    decodeFile (fileTree raws (encodeMembers values)) =
      some { datasets := raws.map fun raw => (compact raw).text, runtimeInfo := Keyed.ofList (textEntries values) } := by
  have infos : decodeFile (fileTree raws (encodeMembers values)) =
      ((if raws.isEmpty then [] else [(escape "datasets".toList, .array (raws.map compact))]).foldlM decodeField noFile).bind
        fun file => some { file with runtimeInfo := Keyed.putAll (textEntries values) file.runtimeInfo } := by
    rw [fileTree, decodeFile, List.foldlM_append]
    refine congrArg _ (funext fun file => ?_)
    cases values with
    | nil => rfl
    | cons value rest =>
      rw [encodeMembers_eq_map, List.map_cons, List.isEmpty_cons, if_neg Bool.false_ne_true, ← List.map_cons
        (f := fun member : String × Any => (escape member.1.toList, encode member.2)), ← encodeMembers_eq_map,
        List.foldlM_cons, decodeField_runtimeInfo file canonical]
      rfl
  rw [infos]
  cases raws with
  | nil => rfl
  | cons raw rest =>
    rw [List.isEmpty_cons, if_neg Bool.false_ne_true, List.foldlM_cons, decodeField_datasets, List.map_map]
    rfl

/-- A file that can be written is read again, with its entries as they are written. -/
theorem read_marshalDatasets {file : DatasetFile} (readable : Readable file) :
    ∃ text, marshalDatasets file = some text ∧ (read text).bind decodeFile = some (normal file) := by
  obtain ⟨raws, entries, compacted, sound⟩ := entries_read readable.datasets
  obtain ⟨values, infos, texts, canonical⟩ :=
    infos_read fun entry member => readable.runtimeInfo entry ((sorted_perm file.runtimeInfo).mem_iff.mp member)
  have ordered : values.Pairwise fun first second => first.1 < second.1 := by
    have keys := ordered_sorted file.runtimeInfo
    rw [← texts, textEntries, List.pairwise_map] at keys
    exact keys
  have object : Canonical (.object values) := .object ordered fun value member => (canonical value member).1
  have parsed : read (fileTree raws (encodeMembers values)).text = some (fileTree raws (encodeMembers values)) :=
    parse_text (fileTree_legal (fun raw member => (sound raw member).1) fun value member => (canonical value member).1)
      (fileTree_shallow (fun raw member => (sound raw member).2) fun value member => (canonical value member).2)
  refine ⟨(fileTree raws (encodeMembers values)).text, ?_, ?_⟩
  · rw [marshalDatasets, entries, infos]
  · rw [parsed, Option.bind_some, decodeFile_fileTree raws object, normal, compacted, texts]

/-! Entries as they are written. -/

theorem Entry.compactText {text : String} (entry : Entry text) : Entry (DatasetFiles.compactText text) := by
  obtain ⟨raw, parsed, legal, shallow, _⟩ := entry.read
  rw [DatasetFiles.compactText, parsed]
  exact ⟨compact raw, compact_legal legal, by rw [depth_compact]; exact shallow, rfl⟩

theorem Entry.read_compactText {text : String} {raw : Raw} (entry : Entry text) (parsed : DatasetFiles.read text = some raw) :
    DatasetFiles.read (DatasetFiles.compactText text) = some (compact raw) := by
  obtain ⟨again, same, legal, shallow, _⟩ := entry.read
  obtain rfl := Option.some.inj (parsed.symm.trans same)
  rw [DatasetFiles.compactText, parsed]
  exact parse_text (compact_legal legal) (by rw [depth_compact]; exact Nat.le_trans (Nat.le_add_right _ 2) shallow)

theorem compactText_compactText {text : String} (entry : Entry text) :
    compactText (compactText text) = compactText text := by
  obtain ⟨raw, parsed, _⟩ := entry.read
  have again := entry.read_compactText parsed
  rw [compactText, again, compactText, parsed]
  dsimp only
  rw [compact_compact]

theorem datasetIdentity_compactText (visit : Visit) (containers : List ContainerInfo → String) (time : Time → String)
    {text : String} (entry : Entry text) : datasetIdentity (goJson visit containers time) (compactText text) =
      datasetIdentity (goJson visit containers time) text := by
  obtain ⟨raw, parsed, _⟩ := entry.read
  have again := entry.read_compactText parsed
  have same : unmarshalObject (compactText text) = unmarshalObject text := by
    rw [unmarshalObject, unmarshalObject, again, parsed, Option.bind_some, Option.bind_some, decode_compact]
  simp only [datasetIdentity, goJson, same]

theorem Readable.normal {file : DatasetFile} (readable : Readable file) : Readable (DatasetFiles.normal file) := by
  constructor
  · intro entry member
    obtain ⟨source, inside, rfl⟩ := List.mem_map.mp member
    exact (readable.datasets source inside).compactText
  · intro entry member
    exact readable.runtimeInfo entry ((sorted_perm file.runtimeInfo).mem_iff.mp (Keyed.mem_ofList member))

end AibomWebhook.DatasetFiles
