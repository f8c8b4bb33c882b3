import AibomWebhook.DatasetMerge
import AibomWebhook.PayloadIsolation
import AibomWebhook.Library.GoExactness

/-! `mergeDatasets` is a fold in which the first one wins: of the entries of an identity,
of the values of a key, and of the checkouts as a whole. -/

namespace AibomWebhook.FirstWins
open Aibomdata DatasetFiles DatasetMerge FirstSeen GoEncoding JsonText Objects PostprocessData

/-- The entries that are the first ones of their identity, and the ones that have none. -/
def kept (codec : GoJson) (list : List String) : List String :=
  (list.zipIdx.filter fun (entry, i) => (datasetIdentity codec entry).isNone ||
    (list.take i).all fun earlier => datasetIdentity codec earlier ≠ datasetIdentity codec entry).map Prod.fst

/-- What a merged file holds; texts that are no dataset files count for nothing. -/
structure HoldsFirst (codec : GoJson) (texts : List String) (file : DatasetFile) : Prop where
  datasets : file.datasets.map meaning = (kept codec (entries (files codec texts))).map meaning
  values : ∀ key, isGit key = false → file.runtimeInfo.find? key = firstValue (files codec texts) key
  checkout : ∀ key, isGit key = true → file.runtimeInfo.find? key = gitValue (files codec texts) key

/-! What the identity of an entry is. -/

/-- The members that an entry is decoded to; null has none, and what is no object is not decoded. -/
def fieldsOf (entry : String) : Option (List (String × Any)) :=
  match (read entry).bind decode with
  | some .null => some []
  | some (.object members) => some members
  | _ => none

/-- A field that is missing counts as null. -/
def field (members : List (String × Any)) (key : String) : Any :=
  ((members.find? fun member => member.1 = key).map Prod.snd).getD .null

theorem fieldsOf_sound {entry : String} {members : List (String × Any)} (found : fieldsOf entry = some members) :
    unmarshalObject entry = some (Keyed.ofList (textEntries members)) ∧
      members.Pairwise (fun first second => first.1 < second.1) ∧
      ∀ member ∈ members, Canonical member.2 ∧ (encode member.2).depth ≤ maxNestingDepth := by
  unfold fieldsOf at found
  unfold unmarshalObject
  cases value : (read entry).bind decode with
  | none =>
    rw [value] at found
    cases found
  | some value_ =>
    rw [value] at found
    cases value_ with
    | null =>
      obtain rfl := Option.some.inj found
      exact ⟨rfl, List.Pairwise.nil, fun member inside => absurd inside List.not_mem_nil⟩
    | object list =>
      obtain rfl := Option.some.inj found
      obtain ⟨raw, parsed, decoded⟩ := Option.bind_eq_some_iff.mp value
      have shallow := depth_encode decoded (parse_sound parsed).shallow
      cases canonical_of_decode decoded with
      | object ordered each =>
        refine ⟨rfl, ordered, fun member inside => ⟨each member inside, ?_⟩⟩
        have inner := depthMembers_le_iff.mp (Nat.le_refl _) (escape member.1.toList, encode member.2)
          (encodeMembers_eq_map list ▸ List.mem_map_of_mem inside)
        simp only [encode, Raw.depth] at shallow
        dsimp only at inner
        omega
    | bool | number | text | array => cases found

theorem find?_textEntries {members : List (String × Any)}
    (ordered : members.Pairwise fun first second => first.1 < second.1) (key : String) :
    ((Keyed.ofList (textEntries members) : StringMap).find? key).map Prod.snd =
      (members.find? fun member => member.1 = key).map fun member => (encode member.2).text := by
  have distinct : ((textEntries members).map Prod.fst).Nodup := by
    rw [textEntries, List.map_map, List.Nodup, List.pairwise_map]
    exact ordered.imp fun below => ne_of_lt below
  have items : (Keyed.ofList (textEntries members) : StringMap).items = textEntries members :=
    Keyed.items_putAll (by simpa using distinct)
  rw [Keyed.find?, items, textEntries, List.find?_map, Option.map_map]
  rfl

section Identity
variable (visit : Visit) (containers : List ContainerInfo → String) (time : Time → String)

theorem marshalValues_eq (values : List (Option String)) : marshalValues values =
    (values.mapM fun value : Option String => value.elim (some Raw.null) read).map fun raws => (Raw.array raws).text := by
  refine congrArg (fun write : Option String → Option Raw => (values.mapM write).map fun raws => (Raw.array raws).text)
    (funext fun value => ?_)
  cases value with
  | none => rfl
  | some text => rfl

/-- The identity is the array of the nine fields, as they are written. -/
theorem datasetIdentity_eq {entry : String} {members : List (String × Any)} (found : fieldsOf entry = some members) :
    datasetIdentity (goJson visit containers time) entry =
      some (Raw.array (datasetIdentityKeys.map fun key => encode (field members key))).text := by
  obtain ⟨decoded, ordered, each⟩ := fieldsOf_sound found
  have unmarshalled : (goJson visit containers time).unmarshalObject entry = some (Keyed.ofList (textEntries members)) := decoded
  have written (key : String) : (((members.find? fun member => member.1 = key).map fun member =>
      (encode member.2).text).elim (some Raw.null) read) = some (encode (field members key)) := by
    rw [field]
    cases found : members.find? fun member => member.1 = key with
    | none => rfl
    | some member =>
      obtain ⟨canonical, shallow⟩ := each member (List.mem_of_find?_eq_some found)
      exact parse_text (encode_legal canonical) shallow
  have raws : (datasetIdentityKeys.map fun key =>
      ((Keyed.ofList (textEntries members) : StringMap).find? key).map Prod.snd).mapM (fun value : Option String =>
        value.elim (some Raw.null) read) = some (datasetIdentityKeys.map fun key => encode (field members key)) := by
    rw [List.mapM_eq_some_iff, List.map_map, List.map_map]
    refine List.map_congr_left fun key _ => ?_
    simp only [Function.comp_apply, find?_textEntries ordered]
    exact written key
  rw [datasetIdentity, unmarshalled]
  exact (marshalValues_eq _).trans (congrArg (Option.map fun raws => (Raw.array raws).text) raws)

theorem canonical_field {entry : String} {members : List (String × Any)} (found : fieldsOf entry = some members)
    (key : String) : Canonical (field members key) := by
  rw [field]
  cases here : members.find? fun member => member.1 = key with
  | none => exact .null
  | some member => exact ((fieldsOf_sound found).2.2 member (List.mem_of_find?_eq_some here)).1

/-- Two objects have one identity exactly when they agree in the nine fields, however they are written. -/
theorem datasetIdentity_eq_iff {first second : String} {members others : List (String × Any)}
    (one : fieldsOf first = some members) (other : fieldsOf second = some others) :
    datasetIdentity (goJson visit containers time) first = datasetIdentity (goJson visit containers time) second ↔
      ∀ key ∈ datasetIdentityKeys, field members key = field others key := by
  have legal {entry : String} {found : List (String × Any)} (here : fieldsOf entry = some found) :
      (Raw.array (datasetIdentityKeys.map fun key => encode (field found key))).legal = true := by
    rw [Raw.legal, legalItems_iff, List.forall_mem_map]
    exact fun key _ => encode_legal (canonical_field here key)
  rw [datasetIdentity_eq visit containers time one, datasetIdentity_eq visit containers time other]
  constructor
  · intro same key member
    have texts := congrArg (fun text => tree text) (Option.some.inj same)
    rw [tree_of_parse (parse_text (legal one) (Nat.le_refl _)), tree_of_parse (parse_text (legal other) (Nat.le_refl _)),
      Option.some.injEq, Raw.array.injEq, List.map_inj_left] at texts
    have values := congrArg decode (texts key member)
    rw [decode_encode (canonical_field one key), decode_encode (canonical_field other key)] at values
    exact Option.some.inj values
  · intro same
    have values : (datasetIdentityKeys.map fun key => encode (field members key)) =
        datasetIdentityKeys.map fun key => encode (field others key) :=
      List.map_congr_left fun key member => congrArg encode (same key member)
    rw [values]

end Identity

theorem kept_eq_firsts (codec : GoJson) (list : List String) : kept codec list = firsts (datasetIdentity codec) list :=
  (firsts_eq_filter list).symm

theorem meaning_compactText {text : String} (entry : Entry text) : meaning (compactText text) = meaning text := by
  obtain ⟨raw, parsed, _⟩ := entry.read
  rw [meaning_of_parse (entry.read_compactText parsed), meaning_of_parse parsed, meaning_compact]

theorem map_meaning_compactText {list : List String} (readable : ∀ entry ∈ list, Entry entry) :
    (list.map compactText).map meaning = list.map meaning := by
  rw [List.map_map]
  exact List.map_congr_left fun entry member => meaning_compactText (readable entry member)

section Statement
variable (visit : Visit) (containers : List ContainerInfo → String) (time : Time → String)

theorem unmarshal_mergeDatasets (texts : List String) :
    (goJson visit containers time).unmarshalDatasets (mergeDatasets (goJson visit containers time) texts) =
      some (visit.file (normal (mergedOf visit containers time texts))) := by
  have read_ := read_mergeDatasets visit containers time texts
  exact congrArg (Option.map visit.file) read_

theorem datasets_readable (texts : List String) :
    ∀ entry ∈ (mergedOf visit containers time texts).datasets, Entry entry :=
  (mergedOf_readable visit containers time texts).datasets

theorem firstWins (texts : List String) : HoldsFirst (goJson visit containers time) texts
    (visit.file (normal (mergedOf visit containers time texts))) := by
  have values (key : String) : (visit.file (normal (mergedOf visit containers time texts))).runtimeInfo.find? key =
      valueOf (files (goJson visit containers time) texts) key := by
    rw [find?_visit, valueOf_normal, files_eq, valueOf_visit]
  constructor
  · have entries_ : entries (files (goJson visit containers time) texts) = entries (plainFiles texts) := by
      rw [files_eq, entries_visit]
    have datasets : (visit.file (normal (mergedOf visit containers time texts))).datasets =
        (mergedOf visit containers time texts).datasets.map compactText := rfl
    rw [datasets, map_meaning_compactText (datasets_readable visit containers time texts), kept_eq_firsts, entries_,
      mergedOf, datasets_merged]
  · intro key plain
    rw [values, valueOf, if_neg (by simp [plain])]
  · intro key git
    rw [values, valueOf, if_pos git]

/-- Whatever the texts are and however maps are gone through, the first one wins; so merged files can be merged
again, and texts that were merged already only repeat their entries without an identity. -/
theorem merge_first_wins :
    (∀ texts, ∃ file,
      (goJson visit containers time).unmarshalDatasets (mergeDatasets (goJson visit containers time) texts) = some file ∧
        HoldsFirst (goJson visit containers time) texts file) ∧
    (∀ other texts, mergeDatasets (goJson other containers time) texts = mergeDatasets (goJson visit containers time) texts) ∧
    (∀ xs ys, mergeDatasets (goJson visit containers time) (xs ++ ys) =
      mergeDatasets (goJson visit containers time)
        [mergeDatasets (goJson visit containers time) xs, mergeDatasets (goJson visit containers time) ys]) ∧
    ∀ xs zs, (∀ z ∈ zs, z ∈ xs) → ∃ before after,
      (goJson visit containers time).unmarshalDatasets (mergeDatasets (goJson visit containers time) xs) = some before ∧
      (goJson visit containers time).unmarshalDatasets (mergeDatasets (goJson visit containers time) (xs ++ zs)) = some after ∧
      after.datasets.map meaning = before.datasets.map meaning ++
        ((entries (files (goJson visit containers time) zs)).filter fun entry =>
          (datasetIdentity (goJson visit containers time) entry).isNone).map meaning ∧
      ∀ key, after.runtimeInfo.find? key = before.runtimeInfo.find? key := by
  refine ⟨fun texts => ⟨_, unmarshal_mergeDatasets visit containers time texts, firstWins visit containers time texts⟩,
    fun other texts => ?_, mergeDatasets_append visit containers time, fun xs zs inside => ?_⟩
  · rw [mergeDatasets_visit other containers time visit, mergeDatasets_eq_render]
  · refine ⟨_, _, unmarshal_mergeDatasets visit containers time xs, unmarshal_mergeDatasets visit containers time (xs ++ zs),
      ?_, fun key => ?_⟩
    · have before : (visit.file (normal (mergedOf visit containers time xs))).datasets =
          (mergedOf visit containers time xs).datasets.map compactText := rfl
      have after : (visit.file (normal (mergedOf visit containers time (xs ++ zs)))).datasets =
          (mergedOf visit containers time (xs ++ zs)).datasets.map compactText := rfl
      rw [before, after, map_meaning_compactText (datasets_readable visit containers time xs),
        map_meaning_compactText (datasets_readable visit containers time (xs ++ zs)),
        datasets_append_subset visit containers time inside, List.map_append, files_eq, entries_visit]
    · rw [find?_visit, find?_visit, valueOf_normal, valueOf_normal, plainFiles_append,
        valueOf_append_subset (plainFiles_subset inside)]

end Statement

/-! Two pods that have loaded one data set, each in its own checkout. -/

def firstPod : String :=
  "\x7b\"datasets\": [\x7b\"path\": \"a.csv\"\x7d], \"runtime_info\": \x7b\"git_commit\": \"aa\"\x7d\x7d"

def secondPod : String := "\x7b\"datasets\": [\x7b\"split\":null,\"path\":\"a.csv\"\x7d], " ++
  "\"runtime_info\": \x7b\"git_commit\": \"bb\", \"git_dirty\": true\x7d\x7d"

theorem pods_merged : (kept PayloadIsolation.exampleJson (entries (files PayloadIsolation.exampleJson [firstPod, secondPod]))).length = 1 ∧
    gitValue (files PayloadIsolation.exampleJson [firstPod, secondPod]) "git_dirty" = none := by
  decide +kernel

theorem merge_first_wins_on_pods : ∃ file,
    PayloadIsolation.exampleJson.unmarshalDatasets (mergeDatasets PayloadIsolation.exampleJson [firstPod, secondPod]) = some file ∧
    file.datasets.length = 1 ∧ file.runtimeInfo.find? "git_dirty" = none := by
  obtain ⟨file, read, holds⟩ := (merge_first_wins PayloadIsolation.exampleVisit (fun _ => "[]") fun _ => "").1 [firstPod, secondPod]
  refine ⟨file, read, ?_, ?_⟩
  · have length := congrArg List.length holds.datasets
    rw [List.length_map, List.length_map] at length
    exact length.trans pods_merged.1
  · exact (holds.checkout "git_dirty" (by decide)).trans pods_merged.2

end AibomWebhook.FirstWins
