import AibomWebhook.FirstWins
import AibomWebhook.Library.PyJson

/-! What one dataset file loses when it is merged alone: its entries nothing, its values
what a variable of type any cannot hold. -/

namespace AibomWebhook.ExactMerge
open Aibomdata DatasetFiles DatasetMerge FirstWins GoEncoding JsonText Objects PostprocessData SortedMap

/-- The tree of a file as runtime_detector.py writes it: the data sets, and the values if there are any. -/
def document (entries : List Raw) (info : List (List Glyph × Raw)) : Raw :=
  .object ([(PyJson.glyphs "datasets", .array entries)] ++
    if info.isEmpty then [] else [(PyJson.glyphs "runtime_info", .object info)])

/-- A well-formed file, of which the values are dictionaries at every level. -/
structure DetectorFile where
  text : String
  entries : List Raw
  info : List (List Glyph × Raw)
  written : tree text = some (document entries info)
  distinct : Distinct (.object info)

/-- The values in a text, none if it has none. -/
def infoOf (text : String) : Value := ((meaning text).bind (·.member "runtime_info")).getD (.object fun _ => none)

/-- The entries in a text. -/
def entriesOf (text : String) : List Value := ((meaning text).bind (·.member "datasets")).elim [] Value.items

/-- What is merged has the values of the file, and those of its entries that are not repeated. -/
structure Preserved (codec : GoJson) (file : DetectorFile) : Prop where
  runtimeInfo : infoOf (mergeDatasets codec [file.text]) = infoOf file.text
  datasets : (entriesOf (mergeDatasets codec [file.text])).map some =
    (kept codec (file.entries.map Raw.text)).map meaning

/-! The two members of a file. -/

/-- The members of a file, by whichever way their names are written. -/
structure Named (datasets info : List Glyph) : Prop where
  datasets : units datasets = "datasets".toList.flatMap utf16
  info : units info = "runtime_info".toList.flatMap utf16

theorem named_escape : Named (escape "datasets".toList) (escape "runtime_info".toList) :=
  ⟨units_escape _, units_escape _⟩

theorem named_glyphs : Named (PyJson.glyphs "datasets") (PyJson.glyphs "runtime_info") := by
  constructor <;> decide

theorem names_differ : "datasets".toList.flatMap utf16 ≠ "runtime_info".toList.flatMap utf16 := by decide

section Members
variable {datasets info : List Glyph} {front members : List (List Glyph × Raw)} {raws : List Raw} {text : String}

/-- The tree of a file that may have no data sets, or no values. -/
def rendered (info : List Glyph) (front members : List (List Glyph × Raw)) : Raw :=
  .object (front ++ if members.isEmpty then [] else [(info, .object members)])

theorem infoOf_eq (named : Named datasets info) (first : front = [(datasets, .array raws)] ∨ front = [] ∧ raws = [])
    (found : meaning text = some (rendered info front members).meaning) : infoOf text = (Raw.object members).meaning := by
  have back : meaningMembers (if members.isEmpty then [] else [(info, .object members)]) ("runtime_info".toList.flatMap utf16) =
      if members.isEmpty then none else some (Raw.object members).meaning := by
    split
    · rfl
    · rw [meaningMembers, if_pos named.info]
      rfl
  have none_ : meaningMembers front ("runtime_info".toList.flatMap utf16) = none := by
    rcases first with rfl | ⟨rfl, _⟩
    · rw [meaningMembers, if_neg (named.datasets ▸ names_differ)]
      rfl
    · rfl
  rw [infoOf, found, Option.bind_some, rendered, Raw.meaning, Value.member, meaningMembers_append, back, none_]
  cases members with
  | nil => rfl
  | cons member rest => rfl

theorem entriesOf_eq (named : Named datasets info) (first : front = [(datasets, .array raws)] ∨ front = [] ∧ raws = [])
    (found : meaning text = some (rendered info front members).meaning) : entriesOf text = raws.map Raw.meaning := by
  have back : meaningMembers (if members.isEmpty then [] else [(info, .object members)]) ("datasets".toList.flatMap utf16) = none := by
    split
    · rfl
    · rw [meaningMembers, if_neg (named.info ▸ names_differ.symm)]
      rfl
  rw [entriesOf, found, Option.bind_some, rendered, Raw.meaning, Value.member, meaningMembers_append, back, Option.none_or]
  rcases first with rfl | ⟨rfl, rfl⟩
  · rw [meaningMembers, if_pos named.datasets]
    simp only [meaningMembers, Option.none_or, Option.elim_some, Raw.meaning, Value.items, meaningItems_eq_map]
  · rfl

end Members

theorem DetectorFile.meaning_text (file : DetectorFile) :
    meaning file.text = some (document file.entries file.info).meaning := by
  rw [meaning, file.written, Option.map_some]

theorem DetectorFile.infoOf_text (file : DetectorFile) : infoOf file.text = (Raw.object file.info).meaning :=
  infoOf_eq named_glyphs (Or.inl rfl) file.meaning_text

theorem DetectorFile.apart (file : DetectorFile) : (file.info.map fun member => units member.1).Nodup := by
  cases file.distinct with
  | object apart _ => exact apart

/-- A text that is read as one that is printed so is read as that tree. -/
theorem tree_eq_of_text {text : String} {raw : Raw} (legal : raw.legal = true)
    (same : (tree text).map Raw.text = some raw.text) : tree text = some raw := by
  obtain ⟨found, read, texts⟩ := Option.map_eq_some_iff.mp same
  have again := congrArg tree texts
  rw [tree_of_parse (parse_text (parse_sound read).legal (Nat.le_refl _)), tree_of_parse (parse_text legal (Nat.le_refl _)),
    Option.some.injEq] at again
  rw [read, again]

/-! What is written. -/

section Render
variable (visit : Visit) (containers : List ContainerInfo → String) (time : Time → String)

/-- The values that a file is written with are those that were decoded. -/
theorem textEntries_inj {values others : List (String × Any)} (one : ∀ value ∈ values, Canonical value.2)
    (other : ∀ value ∈ others, Canonical value.2) (same : textEntries values = textEntries others) : values = others := by
  induction values generalizing others with
  | nil =>
    cases others with
    | nil => rfl
    | cons value rest => cases same
  | cons value rest ih =>
    cases others with
    | nil => cases same
    | cons value_ rest_ =>
      rw [List.forall_mem_cons] at one other
      rw [textEntries, textEntries, List.map_cons, List.map_cons, List.cons.injEq, Prod.mk.injEq] at same
      obtain ⟨⟨names, texts⟩, later⟩ := same
      have trees : encode value.2 = encode value_.2 := by
        have reads := congrArg tree texts
        rw [tree_of_parse (parse_text (encode_legal one.1) (Nat.le_refl _)),
          tree_of_parse (parse_text (encode_legal other.1) (Nat.le_refl _))] at reads
        exact Option.some.inj reads
      have values_ : value.2 = value_.2 := by
        have decoded := congrArg decode trees
        rw [decode_encode one.1, decode_encode other.1] at decoded
        exact Option.some.inj decoded
      rw [ih one.2 other.2 later, Prod.ext names values_]

theorem render_eq {file : DatasetFile} {raws : List Raw} {members : List (List Glyph × Raw)}
    (entries : file.datasets.mapM read = some raws)
    (infos : (sorted file.runtimeInfo).mapM (fun entry => (read entry.2).map fun raw => (escape entry.1.toList, raw)) =
      some members) : render (goJson visit containers time) file = (fileTree raws members).text := by
  have written : (goJson visit containers time).marshalDatasets file = some (fileTree raws members).text := by
    have marshal : marshalDatasets file = some (fileTree raws members).text := by rw [marshalDatasets, entries, infos]
    exact marshal
  rw [render, written, Option.getD_some]
  split
  · rename_i empty
    rw [Bool.and_eq_true, List.isEmpty_iff, List.isEmpty_iff] at empty
    have nothing : sorted file.runtimeInfo = [] := by
      rw [sorted, empty.2]
      rfl
    rw [empty.1] at entries
    rw [nothing] at infos
    obtain rfl := Option.some.inj entries
    obtain rfl := Option.some.inj infos
    decide
  · rfl

theorem map_meaning {list : List String} {raws : List Raw} (entries : list.mapM read = some raws) :
    (raws.map Raw.meaning).map some = list.map meaning := by
  have reads := List.mapM_eq_some_iff.mp entries
  have each : list.map meaning = (list.map read).map (Option.map Raw.meaning) := by
    rw [List.map_map]
    refine List.map_congr_left fun text inside => ?_
    have present : read text ∈ raws.map some := reads ▸ List.mem_map_of_mem inside
    obtain ⟨raw, _, same⟩ := List.mem_map.mp present
    rw [Function.comp_apply, ← same, Option.map_some, meaning_of_parse same.symm]
  rw [each, reads, List.map_map, List.map_map]
  rfl

/-- A file that is written has the meanings of its entries, and those of its values. -/
theorem meaning_render {file : DatasetFile} (readable : Readable file) :
    (entriesOf (render (goJson visit containers time) file)).map some = file.datasets.map meaning ∧
      ∃ values, (∀ value ∈ values, Canonical value.2) ∧ textEntries values = sorted file.runtimeInfo ∧
        infoOf (render (goJson visit containers time) file) = (Raw.object (encodeMembers values)).meaning := by
  obtain ⟨raws, entries, _, sound⟩ := entries_read readable.datasets
  obtain ⟨values, infos, texts, canonical⟩ :=
    infos_read fun entry member => readable.runtimeInfo entry ((sorted_perm file.runtimeInfo).mem_iff.mp member)
  have found := render_eq visit containers time entries infos
  have legal : (fileTree raws (encodeMembers values)).legal = true :=
    fileTree_legal (fun raw member => (sound raw member).1) fun value member => (canonical value member).1
  have means : meaning (render (goJson visit containers time) file) =
      some (rendered (escape "runtime_info".toList)
        (if raws.isEmpty then [] else [(escape "datasets".toList, .array (raws.map compact))]) (encodeMembers values)).meaning := by
    rw [found, JsonText.meaning_text legal]
    rfl
  have first : (if raws.isEmpty then [] else [(escape "datasets".toList, Raw.array (raws.map compact))]) =
      [(escape "datasets".toList, .array (raws.map compact))] ∨
      (if raws.isEmpty then [] else [(escape "datasets".toList, Raw.array (raws.map compact))]) = [] ∧ raws.map compact = [] := by
    cases raws with
    | nil => exact Or.inr ⟨rfl, rfl⟩
    | cons raw rest => exact Or.inl rfl
  refine ⟨?_, values, fun value member => (canonical value member).1, texts, infoOf_eq named_escape first means⟩
  have kept_ : (raws.map compact).map Raw.meaning = raws.map Raw.meaning := by
    rw [List.map_map]
    exact List.map_congr_left fun raw _ => meaning_compact raw
  rw [entriesOf_eq named_escape first means, kept_, map_meaning entries]

end Render

/-! What is read. -/

theorem DetectorFile.read_text (file : DetectorFile) : DatasetFiles.read file.text =
    if (document file.entries file.info).depth ≤ maxNestingDepth then some (document file.entries file.info) else none := by
  split
  · rename_i shallow
    exact parse_deeper file.written shallow
  · rename_i deep
    cases parsed : DatasetFiles.read file.text with
    | none => rfl
    | some raw =>
      have same := tree_of_parse parsed
      rw [file.written] at same
      obtain rfl := Option.some.inj same
      exact absurd (parse_sound parsed).shallow deep

/-- What a file is decoded to, with values that were decoded. -/
def decodedFile (entries : List Raw) (found : List (String × Any)) : DatasetFile :=
  { datasets := entries.map Raw.text, runtimeInfo := Keyed.ofList (textEntries (sorted (Keyed.ofList found))) }

theorem decodeFile_document (entries : List Raw) (info : List (List Glyph × Raw)) :
    decodeFile (document entries info) = (decodeMembers info).map (decodedFile entries) := by
  have datasets : isField "datasets" (name (PyJson.glyphs "datasets")) = true := by decide
  have other : isField "datasets" (name (PyJson.glyphs "runtime_info")) = false := by decide
  have values : isField "runtime_info" (name (PyJson.glyphs "runtime_info")) = true := by decide
  have first : decodeField noFile (PyJson.glyphs "datasets", .array entries) =
      some { noFile with datasets := entries.map Raw.text } := by
    rw [decodeField, if_pos datasets]
  rw [document, decodeFile, List.cons_append, List.foldlM_cons, first, Option.bind_eq_bind, Option.bind_some, List.nil_append]
  cases info with
  | nil => rfl
  | cons member rest =>
    rw [List.isEmpty_cons, if_neg Bool.false_ne_true, List.foldlM_cons, decodeField, if_neg (by rw [other]; decide),
      if_pos values]
    dsimp only
    rw [decode]
    cases decodeMembers (member :: rest) with
    | none => rfl
    | some found => rfl

section Statement
variable (visit : Visit) (containers : List ContainerInfo → String) (time : Time → String) (file : DetectorFile)

theorem valueOf_singleton (file : DatasetFile) (key : String) : valueOf [file] key = file.runtimeInfo.find? key := by
  unfold valueOf
  split
  · rename_i git
    exact gitValue_singleton file git
  · exact firstValue_singleton file key

theorem plainFiles_unread {text : String} (unread : (DatasetFiles.read text).bind decodeFile = none) :
    plainFiles [text] = [] := by
  rw [plainFiles, List.filterMap_cons, unread, ite_self]
  rfl

/-- A file that cannot be read is lost as a whole. -/
theorem lost (unread : plainFiles [file.text] = []) (preserved : Preserved (goJson visit containers time) file) :
    file.entries = [] ∧ file.info = [] := by
  have out : mergeDatasets (goJson visit containers time) [file.text] = render (goJson visit containers time) noFile := by
    rw [mergeDatasets_eq_render, mergedOf, unread]
    rfl
  obtain ⟨entries, values, _, texts, info⟩ := meaning_render visit containers time readable_noFile
  have nothing : values = [] := List.map_eq_nil_iff.mp texts
  constructor
  · have datasets := preserved.datasets
    rw [out, entries, kept_eq_firsts] at datasets
    have none_ := List.map_eq_nil_iff.mp datasets.symm
    cases here : file.entries with
    | nil => rfl
    | cons entry rest =>
      rw [here, List.map_cons, FirstSeen.firsts] at none_
      cases named : datasetIdentity (goJson visit containers time) entry.text with
      | none =>
        rw [FirstSeen.firstsAfter_none named] at none_
        cases none_
      | some k =>
        rw [FirstSeen.firstsAfter_fresh named List.not_mem_nil] at none_
        cases none_
  · have runtimeInfo := preserved.runtimeInfo
    rw [out, info, file.infoOf_text, nothing, Raw.meaning, Raw.meaning, Value.object.injEq] at runtimeInfo
    cases here : file.info with
    | nil => rfl
    | cons member rest =>
      have inside : member ∈ file.info := here ▸ List.mem_cons_self
      have found := (congrFun runtimeInfo (units member.1)).trans (meaningMembers_of_mem file.apart inside)
      cases found

/-- A file that is read is merged with itself only. -/
theorem merged_alone {found : List (String × Any)} (decoded : decodeMembers file.info = some found)
    (plain : plainFiles [file.text] = [decodedFile file.entries found]) :
    infoOf (mergeDatasets (goJson visit containers time) [file.text]) =
        (encode (.object (sorted (Keyed.ofList found)))).meaning ∧
      (entriesOf (mergeDatasets (goJson visit containers time) [file.text])).map some =
        (kept (goJson visit containers time) (file.entries.map Raw.text)).map meaning := by
  obtain ⟨datasets, values, canonical, texts, info⟩ :=
    meaning_render visit containers time (mergedOf_readable visit containers time [file.text])
  rw [mergeDatasets_eq_render, info, datasets]
  constructor
  · have read_ : sorted (mergedOf visit containers time [file.text]).runtimeInfo =
        sorted (decodedFile file.entries found).runtimeInfo := by
      refine sorted_congr fun key => ?_
      rw [mergedOf, find?_merged, plain, valueOf_singleton]
    have ordered : (textEntries (sorted (Keyed.ofList found))).Pairwise fun first second => first.1 < second.1 :=
      List.pairwise_map.mpr (ordered_sorted _)
    rw [read_, decodedFile, sorted_ofList ordered] at texts
    have whole : decode (.object file.info) = some (.object (sorted (Keyed.ofList found))) := by
      rw [decode, decoded, Option.map_some]
    cases canonical_of_decode whole with
    | object _ each => rw [textEntries_inj canonical each texts, encode]
  · have own : DatasetMerge.entries [decodedFile file.entries found] = file.entries.map Raw.text := List.append_nil _
    rw [mergedOf, datasets_merged, plain, own, kept_eq_firsts]

theorem preserved_iff_recoded (shallow : (document file.entries file.info).depth ≤ maxNestingDepth) :
    Preserved (goJson visit containers time) file ↔ recoded (.object file.info) = some (Raw.object file.info).meaning := by
  have read_ := file.read_text
  rw [if_pos shallow] at read_
  cases decoded : decodeMembers file.info with
  | some found =>
    have plain : plainFiles [file.text] = [decodedFile file.entries found] :=
      plainFiles_singleton (by rw [read_, Option.bind_some, decodeFile_document, decoded, Option.map_some])
    obtain ⟨info, datasets⟩ := merged_alone visit containers time file decoded plain
    have whole : recoded (.object file.info) = some (encode (.object (sorted (Keyed.ofList found)))).meaning := by
      rw [recoded, decode, decoded, Option.map_some, Option.map_some]
    rw [whole, Option.some.injEq, ← info, ← file.infoOf_text]
    exact ⟨Preserved.runtimeInfo, fun same => ⟨same, datasets⟩⟩
  | none =>
    have unread : plainFiles [file.text] = [] :=
      plainFiles_unread (by rw [read_, Option.bind_some, decodeFile_document, decoded, Option.map_none])
    have nothing : recoded (.object file.info) = none := by
      rw [recoded, decode, decoded]
      rfl
    rw [nothing]
    refine iff_of_false (fun preserved => ?_) (by simp)
    rw [(lost visit containers time file unread preserved).2] at decoded
    cases decoded

/-- Everything is preserved exactly when the file is not nested too deep and a variable of
type any can hold its values. -/
theorem preserved_iff : Preserved (goJson visit containers time) file ↔
    (document file.entries file.info).depth ≤ maxNestingDepth ∧ Exact (.object file.info) := by
  by_cases shallow : (document file.entries file.info).depth ≤ maxNestingDepth
  · rw [and_iff_right shallow, preserved_iff_recoded visit containers time file shallow, recoded_iff file.distinct]
  · have read_ := file.read_text
    rw [if_neg shallow] at read_
    have unread : plainFiles [file.text] = [] := plainFiles_unread (by rw [read_, Option.bind_none])
    refine iff_of_false (fun preserved => ?_) fun both => shallow both.1
    obtain ⟨entries, info⟩ := lost visit containers time file unread preserved
    refine shallow ?_
    rw [entries, info]
    decide

end Statement

/-- Integers below 2 ^ 53 can be held, however they are written. -/
theorem exact_integer {literal : Literal} {z : Int} (integer : literal.value = z) (small : z.natAbs < 2 ^ 53) :
    Exact (.number literal) := by
  obtain ⟨f, written⟩ := Float64.exists_written_intCast small
  exact .number f (written.trans integer.symm)

/-! Files with a seed, below 2 ^ 53 and one above. -/

def seeds (seed : Int) : List (List Glyph × Raw) := [(PyJson.glyphs "random_seed", .number (PyJson.integer seed))]

theorem seeds_legal (seed : Int) : (document [] (seeds seed)).legal = true := by
  have one : (document [] (seeds seed)) = PyJson.object [("datasets", .array []), ("runtime_info",
      PyJson.object [("random_seed", .number (PyJson.integer seed))])] := rfl
  rw [one]
  refine PyJson.object_legal ?_
  rw [List.forall_mem_cons, List.forall_mem_singleton]
  exact ⟨rfl, PyJson.object_legal (List.forall_mem_singleton.mpr (PyJson.integer_legal seed))⟩

def withSeed (seed : Int) (text : String) (read : (tree text).map Raw.text = some (document [] (seeds seed)).text) :
    DetectorFile where
  text := text
  entries := []
  info := seeds seed
  written := tree_eq_of_text (seeds_legal seed) read
  distinct := .object (List.nodup_singleton _) (List.forall_mem_singleton.mpr (.number _))

def smallText : String :=
  "\x7b\n  \"datasets\": [],\n  \"runtime_info\": \x7b\n    \"random_seed\": 42\n  \x7d\n\x7d"

def largeText : String :=
  "\x7b\n  \"datasets\": [],\n  \"runtime_info\": \x7b\n    \"random_seed\": 9007199254740993\n  \x7d\n\x7d"

theorem smallText_read : (tree smallText).map Raw.text = some (document [] (seeds 42)).text := by decide +kernel

theorem largeText_read : (tree largeText).map Raw.text = some (document [] (seeds 9007199254740993)).text := by decide +kernel

theorem preserved_iff_on_smallSeed : Preserved PayloadIsolation.exampleJson (withSeed 42 smallText smallText_read) :=
  (preserved_iff PayloadIsolation.exampleVisit (fun _ => "[]") (fun _ => "") (withSeed 42 smallText smallText_read)).mpr
    ⟨by decide, .object (List.forall_mem_singleton.mpr ⟨"random_seed".toList, by decide⟩)
      (List.forall_mem_singleton.mpr (@exact_integer _ 42 (by decide) (by decide)))⟩

theorem seed_rounded : (PyJson.integer 9007199254740993).float.map Float64.written = some 9007199254740992 := by
  decide +kernel

theorem seed_changed :
    ¬ Preserved PayloadIsolation.exampleJson (withSeed 9007199254740993 largeText largeText_read) := by
  intro preserved
  have held := (preserved_iff_recoded PayloadIsolation.exampleVisit (fun _ => "[]") (fun _ => "")
    (withSeed 9007199254740993 largeText largeText_read) (by decide)).mp preserved
  cases (recoded_iff (withSeed 9007199254740993 largeText largeText_read).distinct).mp held with
  | object _ each =>
    cases each _ List.mem_cons_self with
    | number f written =>
      obtain ⟨g, read, same⟩ := Float64.written_ofDecimal written
      have rounded := seed_rounded
      rw [Literal.float, read, Option.map_some, same, Option.some.injEq] at rounded
      revert rounded
      decide

end AibomWebhook.ExactMerge
