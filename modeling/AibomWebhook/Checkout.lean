import AibomWebhook.GitUrl
import AibomWebhook.Library.PyText
import AibomWebhook.Objects

/-! Where the code of a workload comes from (postprocess.py, `merge_provenance` and the
`source_code` of `compile_aibom`): the annotations and three ways of detection are merged,
a lower one filling what a higher one leaves out. -/

namespace AibomWebhook.Checkout
open Objects

inductive Field where
  | gitCommit
  | gitRepository
  | gitBranch
  | gitDirty
  deriving DecidableEq

@[reducible] def Value : Field → Type
  | .gitDirty => Bool
  | _ => String

abbrev Fields := (field : Field) → Option (Value field)

structure Provenance where
  fields : Fields
  detectedVia : Option String := none

/-! Comparable forms. -/

/-- `re.sub(r"^[a-z][a-z0-9+.-]*://", "", text)`. -/
def stripScheme (text : List Char) : List Char :=
  let scheme := text.takeWhile fun c => c.isLower || c.isDigit || c = '+' || c = '.' || c = '-'
  match scheme, text.drop scheme.length with
  | first :: _, ':' :: '/' :: '/' :: rest => if first.isLower then rest else text
  | _, _ => text

/-- `re.sub(r"^[^@/]*@", "", text)`. -/
def stripUserinfo (text : List Char) : List Char :=
  match text.dropWhile fun c => c ≠ '@' && c ≠ '/' with
  | '@' :: rest => rest
  | _ => text

/-- `text.replace(":", "/", 1)`. -/
def colonToSlash (text : List Char) : List Char :=
  let host := text.takeWhile (· ≠ ':')
  match text.drop host.length with
  | _ :: path => host ++ '/' :: path
  | [] => text

/-- `re.sub(r"(\.git)?/*$", "", text)`, for a text that does not end in a line break. -/
def dropDotGit (text : List Char) : List Char :=
  let base := text.rdropWhile (· = '/')
  if ".git".toList <:+ base then base.take (base.length - 4) else base

section Merge
variable (lower nfkc : List Char → List Char)

def redactGitUrl (url : String) : String := String.ofList (GitUrl.redactGitUrl nfkc url.toList)

def normalizeRepo (url : String) : List Char :=
  let u := lower (PyText.strip (redactGitUrl nfkc url)).toList
  let rest := stripUserinfo (stripScheme u)
  dropDotGit (if "://".toList <:+: u then rest else colonToSlash rest)

def sameCommit (a b : String) : Bool := lower b.toList <+: lower a.toList || lower a.toList <+: lower b.toList

def sameRepository (a b : String) : Bool := normalizeRepo lower nfkc a = normalizeRepo lower nfkc b

/-- The two have different texts, none of them empty. -/
def differ (same : String → String → Bool) : Option String → Option String → Bool
  | some a, some b => a ≠ "" && b ≠ "" && !same a b
  | _, _ => false

def conflict (primary fallback : Fields) : Bool :=
  differ (sameCommit lower) (primary .gitCommit) (fallback .gitCommit) ||
    differ (sameRepository lower nfkc) (primary .gitRepository) (fallback .gitRepository)

def mergeProvenance : Option Provenance → Option Provenance → Option Provenance
  | none, fallback => fallback
  | some primary, none => some primary
  | some primary, some fallback =>
    if conflict lower nfkc primary.fields fallback.fields then some primary
    else some { primary with fields := fun field => (primary.fields field).or (fallback.fields field) }

/-- The text of a field that is there and not empty. -/
def named (value : Option String) : Option String := value.filter (· ≠ "")

def complete (fields : Fields) : Bool :=
  (named (fields .gitCommit)).isSome && (named (fields .gitRepository)).isSome

/-- The image is looked up only while the commit or the repository is unknown. -/
def detectedProvenance (runtime clone image : Option Provenance) : Option Provenance :=
  let detected := mergeProvenance lower nfkc runtime clone
  if (detected.map fun found => complete found.fields) = some true then detected
  else mergeProvenance lower nfkc detected image

def annotationOf (annotations : StringMap) (name : String) : Option String := (annotations.find? name).map Prod.snd

def annotatedFields (annotations : StringMap) : Fields
  | .gitCommit => named (annotationOf annotations "git-commit")
  | .gitRepository => named (annotationOf annotations "git-repository")
  | .gitBranch => named (annotationOf annotations "git-branch")
  | .gitDirty => none

/-- The empty dictionary counts as none. -/
def annotated (annotations : StringMap) : Option Provenance :=
  let fields := annotatedFields annotations
  if (fields .gitCommit).isNone && (fields .gitRepository).isNone && (fields .gitBranch).isNone then none
  else some { fields }

structure SourceCode where
  gitRepository : Option String
  gitCommit : Option String
  gitBranch : Option String
  declaredVia : Option String
  dirty : Option Bool

def declaredVia (annotated detected : Option Provenance) : Option String :=
  if annotated.isSome then some "annotation"
  else detected.bind fun found =>
    if (named (found.fields .gitCommit)).isSome || (named (found.fields .gitRepository)).isSome then found.detectedVia
    else none

def sourceCode (annotations : StringMap) (runtime clone image : Option Provenance) : SourceCode :=
  let detected := detectedProvenance lower nfkc runtime clone image
  let prov := mergeProvenance lower nfkc (annotated annotations) detected
  { gitRepository := (prov.bind fun found => found.fields .gitRepository).map (redactGitUrl nfkc)
    gitCommit := prov.bind fun found => found.fields .gitCommit
    gitBranch := prov.bind fun found => found.fields .gitBranch
    declaredVia := declaredVia (annotated annotations) detected
    dirty := prov.bind fun found => found.fields .gitDirty }

end Merge

/-! The same, with each value knowing where it is from. -/

/-- The highest rank first. -/
inductive Source where
  | annotations
  | runtime
  | clone
  | image
  deriving DecidableEq

def Source.rank : Source → Nat
  | .annotations => 0
  | .runtime => 1
  | .clone => 2
  | .image => 3

theorem Source.rank_injective {first second : Source} (same : first.rank = second.rank) : first = second := by
  cases first <;> cases second <;> simp_all [Source.rank]

abbrev Traced := (field : Field) → Option (Source × Value field)

def single (source : Source) (fields : Fields) : Traced := fun field => (fields field).map (Prod.mk source)

def erase (traced : Traced) : Fields := fun field => (traced field).map Prod.snd

def join (primary fallback : Traced) : Traced := fun field => (primary field).or (fallback field)

section Trace
variable (lower nfkc : List Char → List Char)

def mergeTraced : Option Traced → Option Traced → Option Traced
  | none, fallback => fallback
  | some primary, none => some primary
  | some primary, some fallback =>
    if conflict lower nfkc (erase primary) (erase fallback) then some primary else some (join primary fallback)

def trace (source : Source) (found : Option Provenance) : Option Traced :=
  found.map fun provenance => single source provenance.fields

def detectedTraced (runtime clone image : Option Provenance) : Option Traced :=
  let detected := mergeTraced lower nfkc (trace .runtime runtime) (trace .clone clone)
  if (detected.map fun found => complete (erase found)) = some true then detected
  else mergeTraced lower nfkc detected (trace .image image)

def reportTraced (annotations : StringMap) (runtime clone image : Option Provenance) : Option Traced :=
  mergeTraced lower nfkc (trace .annotations (annotated annotations)) (detectedTraced lower nfkc runtime clone image)

/-- What is reported, with its sources. -/
def report (annotations : StringMap) (runtime clone image : Option Provenance) : Traced :=
  (reportTraced lower nfkc annotations runtime clone image).getD fun _ => none

theorem erase_single (source : Source) (fields : Fields) : erase (single source fields) = fields := by
  funext field
  rw [erase, single, Option.map_map]
  exact Option.map_id'

theorem erase_join (primary fallback : Traced) :
    erase (join primary fallback) = fun field => (erase primary field).or (erase fallback field) := by
  funext field
  simp only [erase, join]
  cases primary field <;> rfl

theorem erase_mergeTraced {primary fallback : Option Provenance} {first second : Option Traced}
    (one : first.map erase = primary.map Provenance.fields) (two : second.map erase = fallback.map Provenance.fields) :
    (mergeTraced lower nfkc first second).map erase =
      (mergeProvenance lower nfkc primary fallback).map Provenance.fields := by
  cases primary with
  | none =>
    obtain rfl : first = none := Option.map_eq_none_iff.mp one
    exact two
  | some p =>
    obtain ⟨t, rfl, here⟩ := Option.map_eq_some_iff.mp one
    cases fallback with
    | none =>
      obtain rfl : second = none := Option.map_eq_none_iff.mp two
      exact one
    | some f =>
      obtain ⟨u, rfl, there⟩ := Option.map_eq_some_iff.mp two
      simp only [mergeTraced, mergeProvenance, here, there]
      split
      · exact one
      · rw [Option.map_some, Option.map_some, erase_join, here, there]

theorem erase_trace (source : Source) (found : Option Provenance) :
    (trace source found).map erase = found.map Provenance.fields := by
  rw [trace, Option.map_map]
  exact Option.map_congr fun provenance _ => erase_single source provenance.fields

theorem erase_detectedTraced (runtime clone image : Option Provenance) :
    (detectedTraced lower nfkc runtime clone image).map erase =
      (detectedProvenance lower nfkc runtime clone image).map Provenance.fields := by
  have first := erase_mergeTraced lower nfkc (erase_trace .runtime runtime) (erase_trace .clone clone)
  have known : ((mergeTraced lower nfkc (trace .runtime runtime) (trace .clone clone)).map fun found => complete (erase found)) =
      (mergeProvenance lower nfkc runtime clone).map fun found => complete found.fields := by
    have both := congrArg (Option.map complete) first
    rwa [Option.map_map, Option.map_map] at both
  simp only [detectedTraced, detectedProvenance, known]
  split
  · exact first
  · exact erase_mergeTraced lower nfkc first (erase_trace .image image)

/-- What is reported is what the code reports. -/
theorem erase_report (annotations : StringMap) (runtime clone image : Option Provenance) (field : Field) :
    erase (report lower nfkc annotations runtime clone image) field =
      (mergeProvenance lower nfkc (annotated annotations) (detectedProvenance lower nfkc runtime clone image)).bind
        fun found => found.fields field := by
  have same := erase_mergeTraced lower nfkc (erase_trace .annotations (annotated annotations))
    (erase_detectedTraced lower nfkc runtime clone image)
  rw [report, reportTraced]
  generalize mergeProvenance lower nfkc (annotated annotations) (detectedProvenance lower nfkc runtime clone image) = prov at *
  cases traced : mergeTraced lower nfkc (trace .annotations (annotated annotations))
      (detectedTraced lower nfkc runtime clone image) with
  | none =>
    rw [traced] at same
    obtain rfl : prov = none := Option.map_eq_none_iff.mp same.symm
    rfl
  | some t =>
    rw [traced] at same
    obtain ⟨found, rfl, fields⟩ := Option.map_eq_some_iff.mp same.symm
    rw [Option.getD_some, Option.bind_some, fields]

end Trace

/-! What the report should be. -/

section Property
variable (lower nfkc : List Char → List Char)

/-- A source that some field is from. -/
def Contributes (traced : Traced) (source : Source) : Prop := ∃ field value, traced field = some (source, value)

/-- Two that may describe one checkout. -/
structure Agree (first second : Fields) : Prop where
  commits : ∀ a b, named (first .gitCommit) = some a → named (second .gitCommit) = some b →
    lower a.toList <+: lower b.toList ∨ lower b.toList <+: lower a.toList
  repositories : ∀ a b, named (first .gitRepository) = some a → named (second .gitRepository) = some b →
    normalizeRepo lower nfkc a = normalizeRepo lower nfkc b

/-- What each source says. -/
def records (annotations : StringMap) (runtime clone image : Option Provenance) : Source → Option Fields
  | .annotations => (annotated annotations).map Provenance.fields
  | .runtime => runtime.map Provenance.fields
  | .clone => clone.map Provenance.fields
  | .image => image.map Provenance.fields

/-- The fields of `source_code` with their sources. -/
structure Reports (code : SourceCode) (traced : Traced) : Prop where
  commit : code.gitCommit = erase traced .gitCommit
  repository : code.gitRepository = (erase traced .gitRepository).map (redactGitUrl nfkc)
  branch : code.gitBranch = erase traced .gitBranch
  dirty : code.dirty = erase traced .gitDirty

structure NeverMixes (said : Source → Option Fields) (traced : Traced) : Prop where
  agreement : ∀ first second one other, Contributes traced first → Contributes traced second →
    said first = some one → said second = some other → Agree lower nfkc one other
  highest : ∀ source, Contributes traced source → (∀ other, Contributes traced other → source.rank ≤ other.rank) →
    ∀ fields field value, said source = some fields → fields field = some value → traced field = some (source, value)
  dirty : ∀ source value, traced .gitDirty = some (source, value) → ∃ found fields runtime commit,
    traced .gitCommit = some found ∧ said .runtime = some fields ∧ named (fields .gitCommit) = some runtime ∧
      named (some found.2) = some commit ∧ sameCommit lower commit runtime = true

/-- An abbreviated or empty commit that both extend, each in its own way, or an empty repository. -/
inductive Splits (between first second : Fields) : Prop where
  | commits (d a b : String) (here : between .gitCommit = some d) (one : named (first .gitCommit) = some a)
      (other : named (second .gitCommit) = some b) (left : d = "" ∨ lower d.toList <+: lower a.toList)
      (right : d = "" ∨ lower d.toList <+: lower b.toList) (different : sameCommit lower a b = false)
  | repositories (a b : String) (here : between .gitRepository = some "") (one : named (first .gitRepository) = some a)
      (other : named (second .gitRepository) = some b) (different : sameRepository lower nfkc a b = false)

/-- No detection tier stands between two contributing sources without telling them apart, and the runtime tier has no
dirty flag without a commit. -/
structure Unsplit (said : Source → Option Fields) (traced : Traced) : Prop where
  between : ∀ first second middle one other fields, Contributes traced first → Contributes traced second →
    said first = some one → said second = some other → said middle = some fields → ¬ Splits lower nfkc fields one other
  dirty : Contributes traced .runtime → ∀ fields, said .runtime = some fields → fields .gitDirty ≠ none →
    named (fields .gitCommit) ≠ none

end Property

/-! What merging keeps. -/

section Keep
variable {lower nfkc : List Char → List Char} {said : Source → Option Fields} {primary fallback traced : Traced}

/-- Every value is its source's own, and what a source has is reported from it or from a higher one. -/
structure Backed (said : Source → Option Fields) (traced : Traced) : Prop where
  own : ∀ field source value, traced field = some (source, value) →
    ∃ fields, said source = some fields ∧ fields field = some value
  ranked : ∀ source, Contributes traced source → ∀ fields field value, said source = some fields →
    fields field = some value → ∃ other found, traced field = some (other, found) ∧ other.rank ≤ source.rank

/-- The two fields that tell checkouts apart. -/
inductive Mark where
  | commit
  | repository

def Mark.of (fields : Fields) : Mark → Option String
  | .commit => fields .gitCommit
  | .repository => fields .gitRepository

def Mark.reported (traced : Traced) : Mark → Option (Source × String)
  | .commit => traced .gitCommit
  | .repository => traced .gitRepository

def Mark.same (lower nfkc : List Char → List Char) : Mark → String → String → Bool
  | .commit => sameCommit lower
  | .repository => sameRepository lower nfkc

/-- The marks of every source were compared with those that are reported, unless they are empty. -/
def Near (lower nfkc : List Char → List Char) (said : Source → Option Fields) (traced : Traced) : Prop :=
  ∀ (mark : Mark) source, Contributes traced source → ∀ fields a, said source = some fields →
    named (mark.of fields) = some a → ∃ other d, mark.reported traced = some (other, d) ∧
      (d = "" ∨ mark.same lower nfkc d a = true)

theorem reported_single (mark : Mark) (source : Source) (fields : Fields) :
    mark.reported (single source fields) = (mark.of fields).map (Prod.mk source) := by
  cases mark <;> rfl

theorem reported_join (mark : Mark) (primary fallback : Traced) :
    mark.reported (join primary fallback) = (mark.reported primary).or (mark.reported fallback) := by
  cases mark <;> rfl

theorem of_erase (mark : Mark) (traced : Traced) : mark.of (erase traced) = (mark.reported traced).map Prod.snd := by
  cases mark <;> rfl

theorem same_refl (mark : Mark) (a : String) : mark.same lower nfkc a a = true := by
  cases mark with
  | commit => simp [Mark.same, sameCommit]
  | repository => simp [Mark.same, sameRepository]

theorem same_comm (mark : Mark) (a b : String) : mark.same lower nfkc a b = mark.same lower nfkc b a := by
  cases mark with
  | commit => exact Bool.or_comm _ _
  | repository => exact decide_eq_decide.mpr eq_comm

theorem named_eq_some_iff {value : Option String} {text : String} : named value = some text ↔ value = some text ∧ text ≠ "" := by
  rw [named, Option.filter_eq_some_iff, decide_eq_true_eq]

theorem contributes_join {source : Source} (contributes : Contributes (join primary fallback) source) :
    Contributes primary source ∨ Contributes fallback source := by
  obtain ⟨field, value, here⟩ := contributes
  rcases Option.or_eq_some_iff.mp here with first | ⟨_, second⟩
  · exact Or.inl ⟨field, value, first⟩
  · exact Or.inr ⟨field, value, second⟩

theorem contributes_single {source other : Source} {fields : Fields} (contributes : Contributes (single source fields) other) :
    other = source := by
  obtain ⟨field, value, here⟩ := contributes
  obtain ⟨found, _, same⟩ := Option.map_eq_some_iff.mp here
  exact (congrArg Prod.fst same).symm

theorem backed_single {source : Source} {fields : Fields} (here : said source = some fields) :
    Backed said (single source fields) where
  own := by
    intro field other value found
    obtain ⟨same, present, pair⟩ := Option.map_eq_some_iff.mp found
    obtain ⟨rfl, rfl⟩ := Prod.mk.inj pair
    exact ⟨fields, here, present⟩
  ranked := by
    intro other contributes found field value saying present
    obtain rfl := contributes_single contributes
    obtain rfl : fields = found := Option.some.inj (here.symm.trans saying)
    exact ⟨other, value, by rw [single, present, Option.map_some], le_refl _⟩

theorem near_single {source : Source} {fields : Fields} (here : said source = some fields) :
    Near lower nfkc said (single source fields) := by
  intro mark other contributes found a saying name
  obtain rfl := contributes_single contributes
  obtain rfl : fields = found := Option.some.inj (here.symm.trans saying)
  refine ⟨other, a, ?_, Or.inr (same_refl mark a)⟩
  rw [reported_single, (named_eq_some_iff.mp name).1, Option.map_some]

theorem backed_join (first : Backed said primary) (second : Backed said fallback)
    (order : ∀ high low, Contributes primary high → Contributes fallback low → high.rank < low.rank) :
    Backed said (join primary fallback) where
  own := by
    intro field source value found
    rcases Option.or_eq_some_iff.mp found with here | ⟨_, here⟩
    · exact first.own field source value here
    · exact second.own field source value here
  ranked := by
    intro source contributes fields field value saying present
    rcases contributes_join contributes with inFirst | inSecond
    · obtain ⟨other, found, here, le⟩ := first.ranked source inFirst fields field value saying present
      exact ⟨other, found, by rw [join, here, Option.some_or], le⟩
    · obtain ⟨other, found, here, le⟩ := second.ranked source inSecond fields field value saying present
      cases higher : primary field with
      | none => exact ⟨other, found, by rw [join, higher, Option.none_or, here], le⟩
      | some pair =>
        have less := order pair.1 source ⟨field, pair.2, higher⟩ inSecond
        exact ⟨pair.1, pair.2, by rw [join, higher, Option.some_or], Nat.le_of_lt less⟩

theorem differ_eq_false_iff {same : String → String → Bool} {first second : Option String} :
    differ same first second = false ↔ ∀ a b, named first = some a → named second = some b → same a b = true := by
  cases first with
  | none => simp [differ, named]
  | some a =>
    cases second with
    | none => simp [differ, named]
    | some b =>
      by_cases emptyA : a = ""
      · simp [differ, named, emptyA]
      · by_cases emptyB : b = ""
        · simp [differ, named, emptyB]
        · simp [differ, named, emptyA, emptyB]

theorem conflict_eq_false_iff {first second : Fields} : conflict lower nfkc first second = false ↔
    ∀ (mark : Mark) a b, named (mark.of first) = some a → named (mark.of second) = some b →
      mark.same lower nfkc a b = true := by
  rw [conflict, Bool.or_eq_false_iff, differ_eq_false_iff, differ_eq_false_iff]
  constructor
  · rintro ⟨commits, repositories⟩ mark
    cases mark with
    | commit => exact commits
    | repository => exact repositories
  · intro every
    exact ⟨every .commit, every .repository⟩

theorem sameCommit_iff {a b : String} : sameCommit lower a b = true ↔
    lower a.toList <+: lower b.toList ∨ lower b.toList <+: lower a.toList := by
  rw [sameCommit, Bool.or_eq_true, decide_eq_true_eq, decide_eq_true_eq, or_comm]

theorem agree_iff_conflict {first second : Fields} : Agree lower nfkc first second ↔ conflict lower nfkc first second = false := by
  rw [conflict_eq_false_iff]
  constructor
  · intro agree mark a b one other
    cases mark with
    | commit => exact sameCommit_iff.mpr (agree.commits a b one other)
    | repository => exact decide_eq_true (agree.repositories a b one other)
  · intro every
    exact ⟨fun a b one other => sameCommit_iff.mp (every .commit a b one other),
      fun a b one other => of_decide_eq_true (every .repository a b one other)⟩

/-- A source is compared with what is reported so far. -/
theorem near_join {source : Source} {fields : Fields} (here : said source = some fields) (near : Near lower nfkc said primary)
    (accepted : conflict lower nfkc (erase primary) fields = false) :
    Near lower nfkc said (join primary (single source fields)) := by
  intro mark other contributes found a saying name
  rw [reported_join]
  rcases contributes_join contributes with inFirst | inSecond
  · obtain ⟨owner, d, reported, close⟩ := near mark other inFirst found a saying name
    exact ⟨owner, d, by rw [reported, Option.some_or], close⟩
  · obtain rfl := contributes_single inSecond
    obtain rfl : fields = found := Option.some.inj (here.symm.trans saying)
    cases higher : mark.reported primary with
    | none =>
      refine ⟨other, a, ?_, Or.inr (same_refl mark a)⟩
      rw [Option.none_or, reported_single, (named_eq_some_iff.mp name).1, Option.map_some]
    | some pair =>
      refine ⟨pair.1, pair.2, Option.some_or, ?_⟩
      by_cases empty : pair.2 = ""
      · exact Or.inl empty
      · refine Or.inr (conflict_eq_false_iff.mp accepted mark pair.2 a (named_eq_some_iff.mpr ⟨?_, empty⟩) name)
        rw [of_erase, higher, Option.map_some]

end Keep

/-! The tiers, and then the annotations. -/

section Tiers
variable {lower nfkc : List Char → List Char} {said : Source → Option Fields}

/-- A merge of tiers down to some rank. -/
structure Kept (lower nfkc : List Char → List Char) (said : Source → Option Fields) (rank : Nat) (traced : Traced) : Prop where
  backed : Backed said traced
  near : Near lower nfkc said traced
  tiers : ∀ source, Contributes traced source → 1 ≤ source.rank ∧ source.rank < rank

theorem kept_mergeTraced {rank : Nat} {merged : Option Traced} {source : Source} {found : Option Provenance}
    (kept : ∀ traced, merged = some traced → Kept lower nfkc said rank traced) (tier : 1 ≤ source.rank)
    (next : source.rank = rank) (here : said source = found.map Provenance.fields) :
    ∀ traced, mergeTraced lower nfkc merged (trace source found) = some traced → Kept lower nfkc said (rank + 1) traced := by
  intro traced result
  have wider (other : Traced) (before : Kept lower nfkc said rank other) : Kept lower nfkc said (rank + 1) other :=
    ⟨before.backed, before.near, fun owner contributes => by have bounds := before.tiers owner contributes; omega⟩
  have alone (provenance : Provenance) (saying : said source = some provenance.fields) (owner : Source)
      (contributes : Contributes (single source provenance.fields) owner) : 1 ≤ owner.rank ∧ owner.rank < rank + 1 := by
    obtain rfl := contributes_single contributes
    omega
  cases merged with
  | none =>
    obtain ⟨provenance, rfl, rfl⟩ := Option.map_eq_some_iff.mp result
    exact ⟨backed_single here, near_single here, alone provenance here⟩
  | some primary =>
    have before := kept primary rfl
    cases found with
    | none =>
      obtain rfl : primary = traced := Option.some.inj result
      exact wider primary before
    | some provenance =>
      simp only [trace, Option.map_some, mergeTraced] at result
      split at result
      · obtain rfl : primary = traced := Option.some.inj result
        exact wider primary before
      · rename_i accepted
        obtain rfl := Option.some.inj result
        rw [erase_single, Bool.not_eq_true] at accepted
        refine ⟨backed_join before.backed (backed_single here) fun high low inFirst inSecond => ?_,
          near_join here before.near accepted, fun owner contributes => ?_⟩
        · obtain rfl := contributes_single inSecond
          exact next.symm ▸ (before.tiers high inFirst).2
        · rcases contributes_join contributes with inFirst | inSecond
          · have bounds := before.tiers owner inFirst
            omega
          · exact alone provenance here owner inSecond

theorem kept_trace {source : Source} {found : Option Provenance} (tier : 1 ≤ source.rank)
    (here : said source = found.map Provenance.fields) :
    ∀ traced, trace source found = some traced → Kept lower nfkc said (source.rank + 1) traced := by
  intro traced result
  refine @kept_mergeTraced lower nfkc said source.rank none source found (fun other absent => ?_) tier rfl here traced result
  cases absent

theorem kept_detectedTraced (annotations : StringMap) (runtime clone image : Option Provenance) :
    ∀ traced, detectedTraced lower nfkc runtime clone image = some traced →
      Kept lower nfkc (records annotations runtime clone image) 4 traced := by
  intro traced result
  have first := @kept_trace lower nfkc (records annotations runtime clone image) .runtime runtime (by decide) rfl
  have second := @kept_mergeTraced lower nfkc _ 2 (trace .runtime runtime) .clone clone first (by decide) rfl rfl
  have third := @kept_mergeTraced lower nfkc _ 3 _ .image image second (by decide) rfl rfl
  simp only [detectedTraced] at result
  split at result
  · have before := second traced result
    exact ⟨before.backed, before.near, fun owner contributes => by have bounds := before.tiers owner contributes; omega⟩
  · exact third traced result

/-- What is reported is the annotations alone, the tiers alone, or both because they agree. -/
inductive ReportSpec (lower nfkc : List Char → List Char) (annotations : StringMap) (runtime clone image : Option Provenance) :
    Traced → Prop where
  | nothing : ReportSpec lower nfkc annotations runtime clone image fun _ => none
  | annotations (fields : Fields) (here : (annotated annotations).map Provenance.fields = some fields) :
      ReportSpec lower nfkc annotations runtime clone image (single .annotations fields)
  | tiers (detected : Traced) (absent : annotated annotations = none)
      (kept : Kept lower nfkc (records annotations runtime clone image) 4 detected) :
      ReportSpec lower nfkc annotations runtime clone image detected
  | both (fields : Fields) (detected : Traced) (here : (annotated annotations).map Provenance.fields = some fields)
      (kept : Kept lower nfkc (records annotations runtime clone image) 4 detected)
      (accepted : conflict lower nfkc fields (erase detected) = false) :
      ReportSpec lower nfkc annotations runtime clone image (join (single .annotations fields) detected)

theorem report_spec (annotations : StringMap) (runtime clone image : Option Provenance) :
    ReportSpec lower nfkc annotations runtime clone image (report lower nfkc annotations runtime clone image) := by
  have kept := @kept_detectedTraced lower nfkc annotations runtime clone image
  rw [report, reportTraced]
  generalize detectedTraced lower nfkc runtime clone image = detected at kept ⊢
  cases absent : annotated annotations with
  | none =>
    cases detected with
    | none => exact .nothing
    | some traced => exact .tiers traced absent (kept traced rfl)
  | some provenance =>
    have here : (annotated annotations).map Provenance.fields = some provenance.fields := by rw [absent, Option.map_some]
    cases detected with
    | none => exact .annotations provenance.fields here
    | some traced =>
      simp only [trace, Option.map_some, mergeTraced, erase_single]
      split
      · exact .annotations provenance.fields here
      · rename_i accepted
        exact .both provenance.fields traced here (kept traced rfl) (Bool.not_eq_true _ ▸ accepted)

variable {annotations : StringMap} {runtime clone image : Option Provenance} {traced : Traced}

theorem backed_report (spec : ReportSpec lower nfkc annotations runtime clone image traced) :
    Backed (records annotations runtime clone image) traced := by
  cases spec with
  | nothing =>
    refine ⟨fun field source value found => (by cases found), fun source contributes => ?_⟩
    obtain ⟨field, value, found⟩ := contributes
    cases found
  | annotations fields here =>
    have saying : records annotations runtime clone image .annotations = some fields := here
    exact backed_single saying
  | tiers _ _ kept => exact kept.backed
  | both fields detected here kept _ =>
    have saying : records annotations runtime clone image .annotations = some fields := here
    refine backed_join (backed_single saying) kept.backed fun high low inFirst inSecond => ?_
    obtain rfl := contributes_single inFirst
    exact (kept.tiers low inSecond).1

/-- The marks of two sources are the same, or both were only compared with that of a third one, which may be empty. -/
def Compared (lower nfkc : List Char → List Char) (said : Source → Option Fields) (mark : Mark) (a b : String) : Prop :=
  mark.same lower nfkc a b = true ∨ ∃ middle fields d, said middle = some fields ∧ mark.of fields = some d ∧
    (d = "" ∨ mark.same lower nfkc d a = true) ∧ (d = "" ∨ mark.same lower nfkc d b = true)

theorem reported_own (backed : Backed said traced) {mark : Mark} {source : Source} {d : String}
    (reported : mark.reported traced = some (source, d)) : ∃ fields, said source = some fields ∧ mark.of fields = some d := by
  cases mark with
  | commit => exact backed.own .gitCommit source d reported
  | repository => exact backed.own .gitRepository source d reported

theorem near_compared (backed : Backed said traced) (near : Near lower nfkc said traced) {mark : Mark} {first second : Source}
    {one other : Fields} {a b : String} (inFirst : Contributes traced first) (inSecond : Contributes traced second)
    (here : said first = some one) (there : said second = some other) (left : named (mark.of one) = some a)
    (right : named (mark.of other) = some b) : Compared lower nfkc said mark a b := by
  obtain ⟨owner, d, reported, close⟩ := near mark first inFirst one a here left
  obtain ⟨otherOwner, e, again, near_⟩ := near mark second inSecond other b there right
  obtain ⟨rfl, rfl⟩ := Prod.mk.inj (Option.some.inj (reported.symm.trans again))
  obtain ⟨fields, saying, mine⟩ := reported_own backed reported
  exact Or.inr ⟨owner, fields, d, saying, mine, close, near_⟩

theorem Compared.symm {mark : Mark} {a b : String} (compared : Compared lower nfkc said mark a b) :
    Compared lower nfkc said mark b a := by
  rcases compared with same | ⟨middle, fields, d, saying, mine, left, right⟩
  · exact Or.inl (same_comm mark a b ▸ same)
  · exact Or.inr ⟨middle, fields, d, saying, mine, right, left⟩

/-- The annotations are compared with what the tiers come to. -/
theorem annotation_compared {fields : Fields} {detected : Traced} (kept : Kept lower nfkc said 4 detected)
    (accepted : conflict lower nfkc fields (erase detected) = false) {mark : Mark} {source : Source} {other : Fields}
    {a b : String} (inTiers : Contributes detected source) (there : said source = some other)
    (left : named (mark.of fields) = some a) (right : named (mark.of other) = some b) :
    Compared lower nfkc said mark a b := by
  obtain ⟨owner, d, reported, close⟩ := kept.near mark source inTiers other b there right
  obtain ⟨middle, saying, mine⟩ := reported_own kept.backed reported
  refine Or.inr ⟨owner, middle, d, saying, mine, ?_, close⟩
  by_cases empty : d = ""
  · exact Or.inl empty
  · have named_ : named (mark.of (erase detected)) = some d := by
      rw [named_eq_some_iff, of_erase, reported, Option.map_some]
      exact ⟨rfl, empty⟩
    rw [same_comm]
    exact Or.inr (conflict_eq_false_iff.mp accepted mark a d left named_)

theorem report_compared (spec : ReportSpec lower nfkc annotations runtime clone image traced) {mark : Mark}
    {first second : Source} {one other : Fields} {a b : String} (inFirst : Contributes traced first)
    (inSecond : Contributes traced second) (here : records annotations runtime clone image first = some one)
    (there : records annotations runtime clone image second = some other) (left : named (mark.of one) = some a)
    (right : named (mark.of other) = some b) :
    Compared lower nfkc (records annotations runtime clone image) mark a b := by
  cases spec with
  | nothing =>
    obtain ⟨field, value, found⟩ := inFirst
    cases found
  | annotations fields annotated_ =>
    have saying : records annotations runtime clone image .annotations = some fields := annotated_
    exact near_compared (backed_single saying) (near_single saying) inFirst inSecond here there left right
  | tiers _ _ kept => exact near_compared kept.backed kept.near inFirst inSecond here there left right
  | both fields detected saying kept accepted =>
    rcases contributes_join inFirst with annotation₁ | tier₁
    · obtain rfl := contributes_single annotation₁
      obtain rfl : fields = one := Option.some.inj (saying.symm.trans here)
      rcases contributes_join inSecond with annotation₂ | tier₂
      · obtain rfl := contributes_single annotation₂
        obtain rfl : fields = other := Option.some.inj (saying.symm.trans there)
        obtain rfl : a = b := Option.some.inj (left.symm.trans right)
        exact Or.inl (same_refl mark a)
      · exact annotation_compared kept accepted tier₂ there left right
    · rcases contributes_join inSecond with annotation₂ | tier₂
      · obtain rfl := contributes_single annotation₂
        obtain rfl : fields = other := Option.some.inj (saying.symm.trans there)
        exact (annotation_compared kept accepted tier₁ here right left).symm
      · exact near_compared kept.backed kept.near tier₁ tier₂ here there left right

/-- Commits that are not the same extend any that is the same as both. -/
theorem extends_of_same {d a b : String} (left : sameCommit lower d a = true) (right : sameCommit lower d b = true)
    (different : sameCommit lower a b = false) : lower d.toList <+: lower a.toList ∧ lower d.toList <+: lower b.toList := by
  rw [← Bool.not_eq_true, sameCommit_iff, not_or] at different
  rcases sameCommit_iff.mp left with first | first
  · rcases sameCommit_iff.mp right with second | second
    · exact ⟨first, second⟩
    · exact absurd (second.trans first) different.2
  · rcases sameCommit_iff.mp right with second | second
    · exact absurd (first.trans second) different.1
    · rcases List.prefix_or_prefix_of_prefix first second with one | other
      · exact absurd one different.1
      · exact absurd other different.2

/-- Marks that differ although both were compared with a third one are split by it. -/
theorem Compared.splits {mark : Mark} {a b : String} {one other : Fields} (compared : Compared lower nfkc said mark a b)
    (left : named (mark.of one) = some a) (right : named (mark.of other) = some b)
    (different : mark.same lower nfkc a b = false) :
    ∃ middle fields, said middle = some fields ∧ Splits lower nfkc fields one other := by
  obtain ⟨middle, fields, d, saying, mine, first, second⟩ := compared.resolve_left (Bool.eq_false_iff.mp different)
  refine ⟨middle, fields, saying, ?_⟩
  cases mark with
  | commit =>
    by_cases empty : d = ""
    · exact .commits d a b mine left right (Or.inl empty) (Or.inl empty) different
    · have both := extends_of_same (first.resolve_left empty) (second.resolve_left empty) different
      exact .commits d a b mine left right (Or.inr both.1) (Or.inr both.2) different
  | repository =>
    have empty : d = "" := by
      by_contra filled
      have same₁ : normalizeRepo lower nfkc d = normalizeRepo lower nfkc a :=
        of_decide_eq_true (first.resolve_left filled)
      have same₂ : normalizeRepo lower nfkc d = normalizeRepo lower nfkc b :=
        of_decide_eq_true (second.resolve_left filled)
      exact of_decide_eq_false different (same₁.symm.trans same₂)
    exact .repositories a b (empty ▸ mine) left right different

theorem not_agree_of_splits {middle one other : Fields} (splits : Splits lower nfkc middle one other) :
    ¬ Agree lower nfkc one other := by
  intro agree
  have every := conflict_eq_false_iff.mp (agree_iff_conflict.mp agree)
  cases splits with
  | commits d a b _ left right _ _ different => exact Bool.eq_false_iff.mp different (every .commit a b left right)
  | repositories a b _ left right different => exact Bool.eq_false_iff.mp different (every .repository a b left right)

end Tiers

/-! The theorem. -/

section Statement
variable {lower nfkc : List Char → List Char} {annotations : StringMap} {runtime clone image : Option Provenance}

theorem annotated_named {fields : Fields} (here : (annotated annotations).map Provenance.fields = some fields) :
    fields .gitDirty = none ∧ ∀ a, fields .gitCommit = some a → a ≠ "" := by
  obtain ⟨provenance, found, rfl⟩ := Option.map_eq_some_iff.mp here
  rw [annotated] at found
  split at found
  · cases found
  · obtain rfl := Option.some.inj found
    exact ⟨rfl, fun a commit => (named_eq_some_iff.mp commit).2⟩

/-- The commit that is reported with the runtime tier's dirty flag. -/
theorem dirty_commit {traced : Traced} (spec : ReportSpec lower nfkc annotations runtime clone image traced)
    (contributes : Contributes traced .runtime) {fields : Fields} (here : records annotations runtime clone image .runtime = some fields)
    {r : String} (name : named (fields .gitCommit) = some r) :
    ∃ found commit, traced .gitCommit = some found ∧ named (some found.2) = some commit ∧
      sameCommit lower commit r = true := by
  have first {detected : Traced} (kept : Kept lower nfkc (records annotations runtime clone image) 4 detected)
      (inside : Contributes detected .runtime) : detected .gitCommit = some (.runtime, r) := by
    obtain ⟨other, d, reported, above⟩ := kept.backed.ranked .runtime inside fields .gitCommit r here (named_eq_some_iff.mp name).1
    have tier := (kept.tiers other ⟨.gitCommit, d, reported⟩).1
    obtain rfl : other = .runtime := Source.rank_injective (Nat.le_antisymm above tier)
    obtain ⟨own, saying, mine⟩ := kept.backed.own .gitCommit .runtime d reported
    obtain rfl : fields = own := Option.some.inj (here.symm.trans saying)
    obtain rfl : d = r := Option.some.inj (mine.symm.trans (named_eq_some_iff.mp name).1)
    exact reported
  have filled : named (some r) = some r := named_eq_some_iff.mpr ⟨rfl, (named_eq_some_iff.mp name).2⟩
  cases spec with
  | nothing =>
    obtain ⟨field, value, found⟩ := contributes
    cases found
  | annotations own saying => cases contributes_single contributes
  | tiers _ _ kept => exact ⟨_, r, first kept contributes, filled, @same_refl lower nfkc .commit r⟩
  | both own detected saying kept accepted =>
    have inside : Contributes detected .runtime := by
      rcases contributes_join contributes with annotation_ | tier
      · cases contributes_single annotation_
      · exact tier
    have reported := first kept inside
    cases commit : own .gitCommit with
    | none =>
      refine ⟨(.runtime, r), r, ?_, filled, @same_refl lower nfkc .commit r⟩
      rw [join, single, commit, Option.map_none, Option.none_or, reported]
    | some a =>
      have named_ : named (Mark.of own .commit) = some a :=
        named_eq_some_iff.mpr ⟨commit, (annotated_named saying).2 a commit⟩
      refine ⟨(.annotations, a), a, ?_, named_eq_some_iff.mpr ⟨rfl, (named_eq_some_iff.mp named_).2⟩, ?_⟩
      · rw [join, single, commit, Option.map_some, Option.some_or]
      · refine conflict_eq_false_iff.mp accepted .commit a r named_ ?_
        rw [of_erase, Mark.reported, reported, Option.map_some]
        exact filled

theorem reports_report (lower nfkc : List Char → List Char) (annotations : StringMap)
    (runtime clone image : Option Provenance) :
    Reports nfkc (sourceCode lower nfkc annotations runtime clone image) (report lower nfkc annotations runtime clone image) :=
  ⟨(erase_report lower nfkc annotations runtime clone image .gitCommit).symm,
    congrArg (Option.map (redactGitUrl nfkc)) (erase_report lower nfkc annotations runtime clone image .gitRepository).symm,
    (erase_report lower nfkc annotations runtime clone image .gitBranch).symm,
    (erase_report lower nfkc annotations runtime clone image .gitDirty).symm⟩

/-- The report mixes no two checkouts exactly when no tier's abbreviated commit (or empty text) stands between two
contributing sources that differ, and the runtime tier has no dirty flag without a commit. -/
theorem never_mixes_iff (lower nfkc : List Char → List Char) (annotations : StringMap)
    (runtime clone image : Option Provenance) (cloneClean : ∀ found, clone = some found → found.fields .gitDirty = none)
    (imageClean : ∀ found, image = some found → found.fields .gitDirty = none) :
    Reports nfkc (sourceCode lower nfkc annotations runtime clone image) (report lower nfkc annotations runtime clone image) ∧
    (NeverMixes lower nfkc (records annotations runtime clone image) (report lower nfkc annotations runtime clone image) ↔
      Unsplit lower nfkc (records annotations runtime clone image) (report lower nfkc annotations runtime clone image)) := by
  refine ⟨reports_report lower nfkc annotations runtime clone image, ?_⟩
  have spec := @report_spec lower nfkc annotations runtime clone image
  generalize report lower nfkc annotations runtime clone image = traced at spec ⊢
  have backed := backed_report spec
  constructor
  · intro sound
    refine ⟨fun first second middle one other fields inFirst inSecond here there _ splits => ?_,
      fun contributes fields here dirty none_ => ?_⟩
    · exact not_agree_of_splits splits (sound.agreement first second one other inFirst inSecond here there)
    · obtain ⟨value, present⟩ := Option.ne_none_iff_exists'.mp dirty
      obtain ⟨owner, found, reported, _⟩ := backed.ranked .runtime contributes fields .gitDirty value here present
      obtain ⟨_, own, commit, _, _, saying, name, _⟩ := sound.dirty owner found reported
      obtain rfl : fields = own := Option.some.inj (here.symm.trans saying)
      exact Option.some_ne_none commit (name.symm.trans none_)
  · intro unsplit
    refine ⟨fun first second one other inFirst inSecond here there => ?_, ?_, fun source value reported => ?_⟩
    · rw [agree_iff_conflict, conflict_eq_false_iff]
      intro mark a b left right
      by_contra different
      have compared := report_compared spec inFirst inSecond here there left right
      obtain ⟨middle, fields, saying, splits⟩ := compared.splits left right (Bool.eq_false_iff.mpr different)
      exact unsplit.between first second middle one other fields inFirst inSecond here there saying splits
    · intro source contributes top fields field value here present
      obtain ⟨other, found, reported, above⟩ := backed.ranked source contributes fields field value here present
      obtain rfl : other = source := Source.rank_injective (Nat.le_antisymm above (top other ⟨field, found, reported⟩))
      obtain ⟨own, saying, mine⟩ := backed.own field other found reported
      obtain rfl : fields = own := Option.some.inj (here.symm.trans saying)
      rw [reported, Option.some.inj (mine.symm.trans present)]
    · obtain ⟨fields, here, dirty⟩ := backed.own .gitDirty source value reported
      have runtime_ : source = .runtime := by
        cases source with
        | annotations => rw [(annotated_named here).1] at dirty; cases dirty
        | runtime => rfl
        | clone =>
          obtain ⟨provenance, found, rfl⟩ := Option.map_eq_some_iff.mp here
          rw [cloneClean provenance found] at dirty
          cases dirty
        | image =>
          obtain ⟨provenance, found, rfl⟩ := Option.map_eq_some_iff.mp here
          rw [imageClean provenance found] at dirty
          cases dirty
      subst runtime_
      have contributes : Contributes traced .runtime := ⟨.gitDirty, value, reported⟩
      have some_ : fields .gitDirty ≠ none := by
        rw [dirty]
        exact Option.some_ne_none value
      obtain ⟨r, name⟩ := Option.ne_none_iff_exists'.mp (unsplit.dirty contributes fields here some_)
      obtain ⟨found, commit, reportedCommit, filled, same⟩ := dirty_commit spec contributes here name
      exact ⟨found, fields, r, commit, reportedCommit, here, name, filled, same⟩

/-! A commit in an annotation and another one in the clone command, which the runtime tier abbreviates alike. -/

def asciiLower (text : List Char) : List Char := text.map Char.toLower

def commitOnly (commit : String) : Fields
  | .gitCommit => some commit
  | _ => none

def exampleAnnotations : StringMap := Keyed.ofList [("git-commit", "abc1234567")]

def exampleRuntime : Option Provenance := some { fields := commitOnly "abc1234", detectedVia := some "git_directory" }

def exampleClone : Option Provenance :=
  some
    { fields := fun
        | .gitCommit => some "abc1234999"
        | .gitRepository => some "https://h/other"
        | _ => none
      detectedVia := some "cli_arg" }

theorem clone_mixed_with_annotation :
    ¬ NeverMixes asciiLower id (records exampleAnnotations exampleRuntime exampleClone none)
      (report asciiLower id exampleAnnotations exampleRuntime exampleClone none) := by
  intro sound
  have commit : report asciiLower id exampleAnnotations exampleRuntime exampleClone none .gitCommit =
      some (.annotations, "abc1234567") := by decide
  have repository : report asciiLower id exampleAnnotations exampleRuntime exampleClone none .gitRepository =
      some (.clone, "https://h/other") := by decide
  have agree := sound.agreement .annotations .clone _ _ ⟨_, _, commit⟩ ⟨_, _, repository⟩ rfl rfl
  have commits := agree.commits "abc1234567" "abc1234999" (by decide) (by decide)
  revert commits
  decide

theorem never_mixes_iff_on_example :
    NeverMixes asciiLower id (records exampleAnnotations exampleRuntime exampleClone none)
        (report asciiLower id exampleAnnotations exampleRuntime exampleClone none) ↔
      Unsplit asciiLower id (records exampleAnnotations exampleRuntime exampleClone none)
        (report asciiLower id exampleAnnotations exampleRuntime exampleClone none) := by
  refine (never_mixes_iff asciiLower id exampleAnnotations exampleRuntime exampleClone none (fun found here => ?_)
    fun found here => ?_).2
  · obtain rfl := Option.some.inj here
    rfl
  · cases here

end Statement

end AibomWebhook.Checkout
