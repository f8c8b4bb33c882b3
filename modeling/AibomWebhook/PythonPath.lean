import AibomWebhook.Library.EnvList
import AibomWebhook.PodValidity

/-! What a container reads from PYTHONPATH, and from its other variables, once it runs
with the environment that the admission patch gives it. -/

namespace AibomWebhook.PythonPath
open Aibomdata EnvList JsonPatch Kubernetes Objects PatchApplies PodJson PodPatch PodValidity Requests Webhook

/-! Environments of a pod's JSON. -/

def entryOf (json : Json) : Entry Json where
  name := textAt "name" json
  text := textAt "value" json
  source := json.member "valueFrom"

def containerEnvs (pod : Json) : List (List (Entry Json)) :=
  (((pod.member "spec").map (arrayAt "containers")).getD []).map fun container => (arrayAt "env" container).map entryOf

def sent (env : EnvVar) : Entry Json where
  name := env.name
  text := env.value
  source := env.valueFrom.map encodeEnvVarSource

theorem entryOf_encode (env : EnvVar) : entryOf (encodeEnvVar env) = sent env := by
  have text : textAt "value" (encodeEnvVar env) = env.value := by
    have member : (encodeEnvVar env).member "value" = textUnlessEmpty env.value := by
      unfold encodeEnvVar
      cases textUnlessEmpty env.value <;> rfl
    rw [textAt, member, textUnlessEmpty]
    split
    · rename_i empty
      exact empty.symm
    · rfl
  have source : (encodeEnvVar env).member "valueFrom" = env.valueFrom.map encodeEnvVarSource := by
    unfold encodeEnvVar
    cases env.valueFrom <;> rfl
  rw [entryOf, sent, text, source]
  rfl

theorem containerEnvs_encode (qt : Quantity → String) (pod : Pod) :
    containerEnvs (encodePod qt pod) = pod.spec.containers.map fun container => container.env.map sent := by
  have containers : ((encodePod qt pod).member "spec").map (arrayAt "containers") =
      some (pod.spec.containers.map (encodeContainer qt)) := rfl
  rw [containerEnvs, containers, Option.getD_some, List.map_map]
  refine List.map_congr_left fun container _ => ?_
  have env : arrayAt "env" (encodeContainer qt container) = container.env.map encodeEnvVar :=
    items_arrayUnlessEmpty encodeEnvVar container.env
  rw [Function.comp_apply, env, List.map_map]
  exact List.map_congr_left fun env _ => entryOf_encode env

/-! The property. -/

/-- The variables that a container has besides its entries, and the values of sources. -/
structure Surroundings where
  base : Env Char
  resolve : Json → Option String

def Surroundings.effective (around : Surroundings) (entries : List (Entry Json)) : Env Char :=
  evaluate id around.resolve around.base entries

def injectedNames : List String :=
  ["AIBOM_DATASET_DETECT", "AIBOM_DATASET_OUTPUT", "POD_NAME", "POD_NAMESPACE", "PYTHONPATH"]

/-- The hook directory in front of a path. -/
def hooked (path : List Char) : List Char :=
  if path = [] then "/aibom-hooks".toList else "/aibom-hooks:".toList ++ path

structure KeepsPath (around : Surroundings) (annotated : String) (before after : List (Entry Json)) : Prop where
  absent : (∀ entry ∈ before, entry.name ≠ "PYTHONPATH") →
    around.effective after "PYTHONPATH" = some (hooked annotated.toList)
  present : (∃ entry ∈ before, entry.name = "PYTHONPATH") → ∀ path, around.effective before "PYTHONPATH" = some path →
    around.effective after "PYTHONPATH" = some (hooked path)
  others : ∀ name, name ∉ injectedNames → around.effective after name = around.effective before name

/-- The patch of a pod applies and keeps the path of every container. -/
def PathKept (qt : Quantity → String) (m : Mutator) (pod : Pod) (requesterUsername : String)
    (around : Nat → Surroundings) : Prop :=
  ∀ patches, (m.mutate pod requesterUsername).Returns (.ok patches) →
    ∃ after, applyPatch (patches.map (PatchOperation.marshal qt)) (encodePod qt pod) = some after ∧
      ∀ i before, (containerEnvs (encodePod qt pod))[i]? = some before → ∃ env, (containerEnvs after)[i]? = some env ∧
        KeepsPath (around i) (GoMap.get imagePythonPathAnnotation pod.metadata.annotations) before env

/-! When it holds. -/

/-- The variables that every container gets. -/
def activation : List EnvVar :=
  [{ name := "AIBOM_DATASET_DETECT", value := "1" },
    { name := "AIBOM_DATASET_OUTPUT", value := "/tmp/aibom/dataset_detected.json" },
    downwardAPIEnv "POD_NAME" "metadata.name", downwardAPIEnv "POD_NAMESPACE" "metadata.namespace"]

def setsPath (env : EnvVar) : Bool := env.name = "PYTHONPATH"

/-- The environment with the first PYTHONPATH entry's value as a mark. -/
def marked (around : Surroundings) (env : List EnvVar) : Env (Option Char) :=
  let start : Env (Option Char) := translate (fun c => [some c])
    (around.effective ((env.takeWhile fun entry => !setsPath entry).map sent))
  evaluate some around.resolve (Function.update start "PYTHONPATH" (some [none]))
    ((env.dropWhile fun entry => !setsPath entry).tail.map sent)

/-- PYTHONPATH has the first entry's value once, with nothing or only hook directories in
front, and no other variable has anything of it. -/
structure CarriesFirst (around : Surroundings) (env : List EnvVar) : Prop where
  path : ∃ n later, marked around env "PYTHONPATH" =
    some ((List.replicate n "/aibom-hooks:".toList).flatten.map some ++ none :: List.map some later)
  others : ∀ name, name ∉ injectedNames → ∀ value, marked around env name = some value → none ∉ value

def Carried (around : Surroundings) (annotated : String) (env : List EnvVar) : Prop :=
  match env.find? setsPath with
  | none => expand id (around.effective ((env ++ activation).map sent)) annotated = annotated.toList
  | some entry =>
    around.effective (env.map sent) "PYTHONPATH" ≠ some [] ∧
      (entry.valueFrom = none → entry.value ≠ "" ∧ CarriesFirst around env)

section Containers
variable {around : Surroundings} {pod : Pod} {container : Container}

theorem activation_names {entry : Entry Json} (member : entry ∈ activation.map sent) :
    entry.name ∈ injectedNames ∧ entry.name ≠ "PYTHONPATH" := by
  obtain ⟨env, listed, rfl⟩ := List.mem_map.mp member
  simp only [activation, List.mem_cons, List.not_mem_nil, or_false] at listed
  rcases listed with rfl | rfl | rfl | rfl <;> decide

theorem effective_activation (entries : List (Entry Json)) {name : String}
    (kept : name ∉ injectedNames ∨ name = "PYTHONPATH") :
    around.effective (entries ++ activation.map sent) name = around.effective entries name := by
  rw [Surroundings.effective, evaluate_append]
  refine evaluate_of_ne fun entry member same => ?_
  obtain ⟨injected, other⟩ := activation_names member
  rcases kept with uninjected | path
  · exact uninjected (same ▸ injected)
  · exact other (same.trans path)

theorem annotation_path (env : Env Char) (annotated : String) :
    expand id env (if annotated ≠ "" then "/aibom-hooks" ++ ":" ++ annotated else "/aibom-hooks") =
      if annotated ≠ "" then "/aibom-hooks:".toList ++ expand id env annotated else "/aibom-hooks".toList := by
  have clean : '$' ∉ "/aibom-hooks:".toList := by decide
  split
  · have joined : "/aibom-hooks" ++ ":" ++ annotated = "/aibom-hooks:" ++ annotated := rfl
    rw [joined, expand_plain_append clean]
    simp [spell]
  · have plain : '$' ∉ "/aibom-hooks".toList := by decide
    rw [expand_plain plain]
    simp [spell]

def pathVar (text : String) : EnvVar where
  name := "PYTHONPATH"
  value := text

/-- A PYTHONPATH entry at the end. -/
theorem effective_appended (env : List EnvVar) {text : String} (filled : text ≠ "") :
    around.effective ((env ++ (activation ++ [pathVar text])).map sent) =
      Function.update (around.effective ((env ++ activation).map sent)) "PYTHONPATH"
        (some (expand id (around.effective ((env ++ activation).map sent)) text)) := by
  have last : (env ++ (activation ++ [pathVar text])).map sent =
      (env ++ activation).map sent ++ [sent (pathVar text)] := by
    simp only [List.map_append, List.append_assoc, List.map_cons, List.map_nil]
  have text_ : (sent (pathVar text)).text ≠ "" := filled
  rw [last, Surroundings.effective, evaluate_append_one]
  exact define_text text_

theorem appended_others (env : List EnvVar) {value : Option (List Char)} {name : String} (other : name ∉ injectedNames) :
    Function.update (around.effective ((env ++ activation).map sent)) "PYTHONPATH" value name =
      around.effective (env.map sent) name := by
  have notPath : name ≠ "PYTHONPATH" := fun same => other (same ▸ by decide)
  rw [Function.update_of_ne notPath, List.map_append]
  exact effective_activation _ (Or.inl other)

theorem mem_sent {env : List EnvVar} {name : String} :
    (∃ entry ∈ env.map sent, entry.name = name) ↔ ∃ entry ∈ env, entry.name = name := by
  simp [sent]

theorem hooked_ne (path : List Char) (filled : path ≠ []) : hooked path = "/aibom-hooks:".toList ++ path :=
  if_neg filled

/-- A container without a PYTHONPATH entry. -/
theorem keepsPath_absent (absent : container.env.find? setsPath = none) :
    KeepsPath around (GoMap.get imagePythonPathAnnotation pod.metadata.annotations) (container.env.map sent)
        ((instrumentContainer pod container).env.map sent) ↔
      Carried around (GoMap.get imagePythonPathAnnotation pod.metadata.annotations) container.env := by
  have missing : container.env.find? (fun env => env.name = "PYTHONPATH") = none := absent
  have none : ∀ entry ∈ container.env.map sent, entry.name ≠ "PYTHONPATH" := by
    intro entry member same
    obtain ⟨env, listed, named⟩ := mem_sent.mp ⟨entry, member, same⟩
    exact absurd (decide_eq_true named) (List.find?_eq_none.mp absent env listed)
  have kept : hookedEnv container = container.env := by
    unfold hookedEnv pythonPathReplace
    rw [missing]
    cases container.env.findIdx? (fun env => env.name = "PYTHONPATH") <;> rfl
  have after : (instrumentContainer pod container).env = container.env ++ (activation ++ [pathVar
      (if GoMap.get imagePythonPathAnnotation pod.metadata.annotations ≠ "" then
        "/aibom-hooks" ++ ":" ++ GoMap.get imagePythonPathAnnotation pod.metadata.annotations else "/aibom-hooks")]) := by
    simp only [instrumentContainer, kept, missing, detectorEnvVars]
    rfl
  rw [after]
  generalize GoMap.get imagePythonPathAnnotation pod.metadata.annotations = annotated
  have filled : (if annotated ≠ "" then "/aibom-hooks" ++ ":" ++ annotated else "/aibom-hooks") ≠ "" := by
    split
    · intro empty
      have length := congrArg String.length empty
      simp at length
    · decide
  have spelled : KeepsPath around annotated (container.env.map sent) ((container.env ++ (activation ++ [pathVar
      (if annotated ≠ "" then "/aibom-hooks" ++ ":" ++ annotated else "/aibom-hooks")])).map sent) ↔
      expand id (around.effective ((container.env ++ activation).map sent))
        (if annotated ≠ "" then "/aibom-hooks" ++ ":" ++ annotated else "/aibom-hooks") = hooked annotated.toList := by
    constructor
    · intro keeps
      have path := keeps.absent none
      rw [effective_appended _ filled, Function.update_self] at path
      exact Option.some.inj path
    · intro path
      constructor
      · intro _
        rw [effective_appended _ filled, Function.update_self, path]
      · intro present
        obtain ⟨entry, member, named⟩ := present
        exact absurd named (none entry member)
      · intro name other
        rw [effective_appended _ filled]
        exact appended_others _ other
  rw [spelled, Carried, absent, annotation_path]
  by_cases empty : annotated = ""
  · subst empty
    simp [hooked, expand, pieces]
  · have chars : annotated.toList ≠ [] := by simpa using empty
    rw [if_pos empty, hooked_ne _ chars]
    exact ⟨List.append_cancel_left, fun same => congrArg _ same⟩

theorem expand_hook {env : Env Char} {path : List Char} (known : env "PYTHONPATH" = some path) :
    expand id env "/aibom-hooks:$(PYTHONPATH)" = "/aibom-hooks:".toList ++ path := by
  have split : "/aibom-hooks:$(PYTHONPATH)" = "/aibom-hooks:" ++ ("$(" ++ "PYTHONPATH" ++ ")") := by decide
  have clean : '$' ∉ "/aibom-hooks:".toList := by decide
  have simple : pieces 0 ("$(" ++ "PYTHONPATH" ++ ")").toList = [.reference "PYTHONPATH"] := by decide
  rw [split, expand_reference clean simple known, spell, List.map_id]

/-- A container whose first PYTHONPATH entry has a source. -/
theorem keepsPath_sourced {entry : EnvVar} (first : container.env.find? setsPath = some entry)
    (sourced : entry.valueFrom.isSome = true) {annotated : String} :
    KeepsPath around annotated (container.env.map sent) ((instrumentContainer pod container).env.map sent) ↔
      Carried around annotated container.env := by
  have found : container.env.find? (fun env => env.name = "PYTHONPATH") = some entry := first
  have named : entry.name = "PYTHONPATH" := by simpa [setsPath] using List.find?_some first
  have present : ∃ entry ∈ container.env.map sent, entry.name = "PYTHONPATH" :=
    mem_sent.mpr ⟨entry, List.mem_of_find?_eq_some first, named⟩
  have after : (instrumentContainer pod container).env =
      container.env ++ (activation ++ [pathVar "/aibom-hooks:$(PYTHONPATH)"]) := by
    have kept : hookedEnv container = container.env := by
      unfold hookedEnv pythonPathReplace
      rw [found]
      cases container.env.findIdx? (fun env => env.name = "PYTHONPATH") <;> simp [sourced]
    simp only [instrumentContainer, kept, detectorEnvVars, found, sourced, if_true]
    rfl
  have filled : "/aibom-hooks:$(PYTHONPATH)" ≠ "" := by decide
  have same : around.effective ((container.env ++ activation).map sent) "PYTHONPATH" =
      around.effective (container.env.map sent) "PYTHONPATH" := by
    rw [List.map_append]
    exact effective_activation _ (Or.inr rfl)
  rw [after, Carried, first]
  constructor
  · intro keeps
    refine ⟨fun empty => ?_, fun unsourced => by simp [unsourced] at sourced⟩
    have path := keeps.present present [] empty
    rw [effective_appended _ filled, Function.update_self, expand_hook (same.trans empty)] at path
    revert path
    decide
  · rintro ⟨nonempty, _⟩
    constructor
    · intro absent
      obtain ⟨entry, member, named⟩ := present
      exact absurd named (absent entry member)
    · intro _ path known
      have chars : path ≠ [] := fun empty => nonempty (empty ▸ known)
      rw [effective_appended _ filled, Function.update_self, expand_hook (same.trans known), hooked_ne _ chars]
    · intro name other
      rw [effective_appended _ filled]
      exact appended_others _ other

/-! A container whose first PYTHONPATH entry is a text. -/

theorem cut_first {env : List EnvVar} {entry : EnvVar} (first : env.find? setsPath = some entry) :
    env = (env.takeWhile fun entry => !setsPath entry) ++
      entry :: (env.dropWhile fun entry => !setsPath entry).tail := by
  obtain ⟨sets, before, later, rfl, others⟩ := List.find?_eq_some_iff_append.mp first
  have stop : (!setsPath entry) = false := by simp [sets]
  rw [List.takeWhile_append_of_pos others, List.dropWhile_append_of_pos others, List.takeWhile_cons, List.dropWhile_cons]
  simp [stop]

/-- With a value for the mark the marked environment is the whole one. -/
theorem evaluate_marked (env : List EnvVar) {entry : Entry Json} (path : entry.name = "PYTHONPATH")
    (filled : entry.text ≠ "") :
    around.effective ((env.takeWhile fun entry => !setsPath entry).map sent ++
        entry :: (env.dropWhile fun entry => !setsPath entry).tail.map sent) =
      translate (fill (expand id (around.effective ((env.takeWhile fun entry => !setsPath entry).map sent)) entry.text))
        (marked around env) := by
  generalize before : around.effective ((env.takeWhile fun entry => !setsPath entry).map sent) = env
  have defined : define id around.resolve env entry =
      translate (fill (expand id env entry.text))
        (Function.update (translate (fun c => [some c]) env) "PYTHONPATH" (some [none])) := by
    rw [define_text filled, path]
    funext name
    by_cases here : name = "PYTHONPATH"
    · subst here
      simp [EnvList.translate, fill]
    · simp only [EnvList.translate, Function.update_of_ne here, Option.map_map]
      cases env name with
      | none => rfl
      | some value =>
        have back : (value.flatMap fun c => [some c]).flatMap (fill (expand id env entry.text)) = value := by
          rw [← List.map_eq_flatMap]
          exact fill_letters _ value
        exact congrArg some back.symm
  have letters : ∀ c, fill (expand id env entry.text) (some c) = [id c] := fun _ => rfl
  rw [marked, before, evaluate_translate letters, ← defined, Surroundings.effective, evaluate_append]
  exact congrArg (fun now => evaluate id around.resolve now _) before

theorem hookedEnv_literal {entry : EnvVar} (first : container.env.find? setsPath = some entry)
    (literal : entry.valueFrom = none) (filled : entry.value ≠ "") :
    hookedEnv container = (container.env.takeWhile fun entry => !setsPath entry) ++
      { entry with value := "/aibom-hooks:" ++ entry.value } ::
        (container.env.dropWhile fun entry => !setsPath entry).tail := by
  have found : container.env.find? (fun env => env.name = "PYTHONPATH") = some entry := first
  have cut := cut_first first
  have sets : decide (entry.name = "PYTHONPATH") = true := by
    have yes := List.find?_some first
    exact yes
  have unset : (container.env.takeWhile fun entry => !setsPath entry).findIdx? (fun env => env.name = "PYTHONPATH") = none := by
    rw [List.findIdx?_eq_none_iff]
    intro other member
    have passes := List.mem_takeWhile_imp member
    exact Bool.not_eq_true' _ ▸ passes
  generalize container.env.takeWhile (fun entry => !setsPath entry) = before at cut unset ⊢
  generalize (container.env.dropWhile fun entry => !setsPath entry).tail = later at cut ⊢
  have place : container.env.findIdx? (fun env => env.name = "PYTHONPATH") = some before.length := by
    rw [cut, List.findIdx?_append, unset, List.findIdx?_cons, sets]
    simp
  have entry_ : container.env[before.length]? = some entry := by
    rw [cut]
    simp
  have replaced : pythonPathReplace container = some (before.length, "/aibom-hooks:" ++ entry.value) := by
    simp only [pythonPathReplace, place, found, literal, Option.isSome_none, Bool.false_eq_true, if_false, if_pos filled]
  simp only [hookedEnv, replaced, modify_eq_set entry_]
  rw [cut]
  simp

/-- The mark stays defined. -/
theorem define_isSome {α : Type} {letter : Char → α} {env : Env α} {entry : Entry Json} {name : String}
    (known : (env name).isSome = true) : (define letter around.resolve env entry name).isSome = true := by
  cases value : entry.value letter around.resolve env with
  | none => simpa only [define, value] using known
  | some text =>
    simp only [define, value, Function.update_apply]
    split
    · rfl
    · exact known

theorem evaluate_isSome {α : Type} {letter : Char → α} {env : Env α} {entries : List (Entry Json)} {name : String}
    (known : (env name).isSome = true) : (evaluate letter around.resolve env entries name).isSome = true := by
  induction entries generalizing env with
  | nil => exact known
  | cons entry rest ih => exact ih (define_isSome known)

theorem marked_isSome (env : List EnvVar) : (marked around env "PYTHONPATH").isSome = true :=
  evaluate_isSome (by simp)

/-- The hook directory goes in front of the path exactly if it goes in front of the mark. -/
theorem filled_hooked_iff (value : List Char) (text : List (Option Char)) :
    text.flatMap (fill ("/aibom-hooks:".toList ++ value)) = hooked (text.flatMap (fill value)) ↔
      text.flatMap (fill value) ≠ [] ∧
        ∃ n later, text = (List.replicate n "/aibom-hooks:".toList).flatten.map some ++ none :: List.map some later := by
  have some_ : "/aibom-hooks:".toList ≠ [] := by decide
  by_cases empty : text.flatMap (fill value) = []
  · have lengths := length_longer "/aibom-hooks:".toList value text
    rw [empty]
    refine iff_of_false (fun same => ?_) fun both => both.1 rfl
    have thirteen : "/aibom-hooks:".toList.length = 13 := by decide
    have twelve : (hooked []).length = 12 := by decide
    rw [same, twelve, empty, thirteen, List.length_nil] at lengths
    omega
  · have fresh : '/' ∉ "aibom-hooks:".toList := by decide
    have cut : "/aibom-hooks:".toList = '/' :: "aibom-hooks:".toList := by decide
    rw [hooked_ne _ empty, fill_front_iff some_]
    constructor
    · rintro ⟨before, later, split, commute⟩
      rw [cut] at commute
      obtain ⟨n, repeated⟩ := (commute_iff fresh before).mp commute
      exact ⟨empty, n, later, by rw [split, repeated, cut]⟩
    · rintro ⟨_, n, later, split⟩
      have commute := (commute_iff fresh (List.replicate n "/aibom-hooks:".toList).flatten).mpr ⟨n, by rw [cut]⟩
      rw [← cut] at commute
      exact ⟨_, later, split, commute⟩

/-- The two environments are the marked one, with and without the hook directory at the marks. -/
theorem effective_literal {entry : EnvVar} (first : container.env.find? setsPath = some entry)
    (literal : entry.valueFrom = none) (filled : entry.value ≠ "") :
    ∃ value, around.effective (container.env.map sent) = translate (fill value) (marked around container.env) ∧
      ∀ name, name ∉ injectedNames ∨ name = "PYTHONPATH" →
        around.effective ((instrumentContainer pod container).env.map sent) name =
          translate (fill ("/aibom-hooks:".toList ++ value)) (marked around container.env) name := by
  have found : container.env.find? (fun env => env.name = "PYTHONPATH") = some entry := first
  have named : entry.name = "PYTHONPATH" := by simpa [setsPath] using List.find?_some first
  have after : (instrumentContainer pod container).env = hookedEnv container ++ activation := by
    simp only [instrumentContainer, detectorEnvVars, found, literal, Option.isSome_none, Bool.false_eq_true, if_false]
    rfl
  have longer : (sent { entry with value := "/aibom-hooks:" ++ entry.value }).text ≠ "" := by
    intro empty
    have length := congrArg String.length empty
    simp [sent] at length
  have clean : '$' ∉ "/aibom-hooks:".toList := by decide
  refine ⟨expand id (around.effective ((container.env.takeWhile fun entry => !setsPath entry).map sent)) entry.value, ?_, ?_⟩
  · have whole := @evaluate_marked around container.env (sent entry) named filled
    rw [← List.map_cons, ← List.map_append, ← cut_first first] at whole
    exact whole
  · intro name kept
    have whole := @evaluate_marked around container.env (sent { entry with value := "/aibom-hooks:" ++ entry.value })
      named longer
    have expanded := @expand_plain_append Char id (around.effective
      ((container.env.takeWhile fun entry => !setsPath entry).map sent)) _ clean entry.value
    rw [after, List.map_append, effective_activation _ kept, hookedEnv_literal first literal filled, List.map_append,
      List.map_cons, whole]
    simp only [sent, expanded, spell, List.map_id]

/-- A container whose first PYTHONPATH entry is a text that is sent. -/
theorem keepsPath_literal {entry : EnvVar} (first : container.env.find? setsPath = some entry)
    (literal : entry.valueFrom = none) (filled : entry.value ≠ "") {annotated : String} :
    KeepsPath around annotated (container.env.map sent) ((instrumentContainer pod container).env.map sent) ↔
      Carried around annotated container.env := by
  have named : entry.name = "PYTHONPATH" := by simpa [setsPath] using List.find?_some first
  have present : ∃ entry ∈ container.env.map sent, entry.name = "PYTHONPATH" :=
    mem_sent.mpr ⟨entry, List.mem_of_find?_eq_some first, named⟩
  obtain ⟨value, before, after⟩ := @effective_literal around pod container entry first literal filled
  obtain ⟨text, path⟩ := Option.isSome_iff_exists.mp (@marked_isSome around container.env)
  have some_ : "/aibom-hooks:".toList ≠ [] := by decide
  have known : around.effective (container.env.map sent) "PYTHONPATH" = some (text.flatMap (fill value)) := by
    rw [before, EnvList.translate, path, Option.map_some]
  have later : around.effective ((instrumentContainer pod container).env.map sent) "PYTHONPATH" =
      some (text.flatMap (fill ("/aibom-hooks:".toList ++ value))) := by
    rw [after _ (Or.inr rfl), EnvList.translate, path, Option.map_some]
  rw [Carried, first]
  constructor
  · intro keeps
    have same := keeps.present present _ known
    rw [later, Option.some.injEq, filled_hooked_iff] at same
    obtain ⟨nonempty, n, rest, shape⟩ := same
    refine ⟨fun empty => nonempty (Option.some.inj (known.symm.trans empty)), fun _ => ⟨filled, ?_, ?_⟩⟩
    · exact ⟨n, rest, by rw [path, shape]⟩
    · intro name other taken here
      have kept := keeps.others name other
      rw [after _ (Or.inl other), before, EnvList.translate, EnvList.translate, here, Option.map_some, Option.map_some,
        Option.some.injEq] at kept
      exact (fill_eq_iff some_ value taken).mp kept
  · rintro ⟨nonempty, carries⟩
    obtain ⟨_, ⟨n, rest, shape⟩, others⟩ := carries literal
    constructor
    · intro absent
      obtain ⟨entry, member, named⟩ := present
      exact absurd named (absent entry member)
    · intro _ shown same
      obtain rfl := Option.some.inj (known.symm.trans same)
      rw [later, (filled_hooked_iff value text).mpr]
      refine ⟨fun empty => nonempty (known.trans (congrArg some empty)), n, rest, ?_⟩
      exact Option.some.inj (path.symm.trans shape)
    · intro name other
      rw [after _ (Or.inl other), before, EnvList.translate, EnvList.translate]
      cases here : marked around container.env name with
      | none => rfl
      | some taken => exact congrArg some ((fill_eq_iff some_ value taken).mpr (others name other taken here))

/-- Of a container for which the patch applies. -/
theorem keepsPath_iff (set_ : emptyPythonPath container = false) :
    KeepsPath around (GoMap.get imagePythonPathAnnotation pod.metadata.annotations) (container.env.map sent)
        ((instrumentContainer pod container).env.map sent) ↔
      Carried around (GoMap.get imagePythonPathAnnotation pod.metadata.annotations) container.env := by
  cases first : container.env.find? setsPath with
  | none => exact keepsPath_absent first
  | some entry =>
    cases source : entry.valueFrom with
    | some _ => exact keepsPath_sourced first (by rw [source]; rfl)
    | none =>
      have found : container.env.find? (fun env => env.name = "PYTHONPATH") = some entry := first
      have filled : entry.value ≠ "" := by
        intro empty
        simp [emptyPythonPath, found, source, empty] at set_
      exact keepsPath_literal first source filled

theorem set_of_carried {annotated : String} (carried : Carried around annotated container.env) :
    emptyPythonPath container = false := by
  by_contra unset
  obtain ⟨entry, found, unsourced, empty⟩ := (emptyPythonPath_iff container).mp (by simpa using unset)
  have first : container.env.find? setsPath = some entry := found
  rw [Carried, first] at carried
  exact (carried.2 (by simpa using unsourced)).1 empty

end Containers

/-- The patch keeps the paths of an instrumented pod exactly when its containers carry them. -/
theorem path_kept_iff (qt : Quantity → String) (m : Mutator) (pod : Pod) (requesterUsername : String)
    (around : Nat → Surroundings) (instruments : m.shouldMutate pod requesterUsername = true)
    (detection : m.datasetDetection = true) :
    PathKept qt m pod requesterUsername around ↔
      ∀ i container, pod.spec.containers[i]? = some container →
        Carried (around i) (GoMap.get imagePythonPathAnnotation pod.metadata.annotations) container.env := by
  have envs (identitySecretName : String) (i : Nat) :
      (containerEnvs (encodePod qt (instrumented m pod identitySecretName)))[i]? =
        (pod.spec.containers[i]?).map fun container => (instrumentContainer pod container).env.map sent := by
    have containers : (instrumented m pod identitySecretName).spec.containers =
        pod.spec.containers.map (instrumentContainer pod) := by
      simp [instrumented, detection, Pod.spec]
    rw [containerEnvs_encode, containers, List.map_map, List.getElem?_map]
    rfl
  have before (i : Nat) : (containerEnvs (encodePod qt pod))[i]? =
      (pod.spec.containers[i]?).map fun container => container.env.map sent := by
    rw [containerEnvs_encode, List.getElem?_map]
  constructor
  · intro kept i container here
    obtain ⟨identitySecretName, identity⟩ :=
      Program.exists_returns (fun cluster request => perform "" 0 cluster request) (m.ensurePodWorkloadIdentity pod)
        Cluster.empty
    obtain ⟨after, applied, keeps⟩ := kept _ ((mutate_returns_accepted instruments _).mpr ⟨_, identity, rfl⟩)
    have set_ : ∀ other ∈ pod.spec.containers, emptyPythonPath other = false := by
      intro other member
      by_contra unset
      have failed : Fails qt (m.instrument pod identitySecretName) pod :=
        instrument_fails identitySecretName detection ⟨other, member, by simpa using unset⟩
      rw [Fails, applied] at failed
      exact absurd failed (by simp)
    have applies : Applies qt (m.instrument pod identitySecretName) pod (instrumented m pod identitySecretName) :=
      instrument_applies identitySecretName fun _ => set_
    obtain rfl := Option.some.inj (applied.symm.trans applies)
    obtain ⟨env, there, keeps⟩ := keeps i (container.env.map sent) (by rw [before, here, Option.map_some])
    rw [envs, here, Option.map_some] at there
    obtain rfl := Option.some.inj there
    exact (keepsPath_iff (set_ container (List.mem_of_getElem? here))).mp keeps
  · intro carried patches returned
    obtain ⟨identitySecretName, _, returned⟩ := (mutate_returns_accepted instruments _).mp returned
    obtain rfl := Except.ok.inj returned
    have set_ : ∀ container ∈ pod.spec.containers, emptyPythonPath container = false := by
      intro container member
      obtain ⟨i, here⟩ := List.getElem?_of_mem member
      exact set_of_carried (carried i container here)
    refine ⟨_, instrument_applies identitySecretName fun _ => set_, fun i env there => ?_⟩
    rw [before] at there
    obtain ⟨container, here, rfl⟩ := Option.map_eq_some_iff.mp there
    refine ⟨_, by rw [envs, here, Option.map_some], ?_⟩
    exact (keepsPath_iff (set_ container (List.mem_of_getElem? here))).mpr (carried i container here)

/-! A Job's pod in a namespace of defaults: its variables, and no sources. -/

def trainPod (env : List EnvVar) : Pod where
  metadata := { name := "train-0", ns := "team", ownerReferences := [
    { apiVersion := "batch/v1", kind := "Job", name := "train", uid := "job-1" }] }
  content := { spec := { containers := [{ name := "main", env := env }] } }

def home : Surroundings where
  base := fun name => if name = "HOME" then some "/root".toList else none
  resolve := fun _ => none

def duplicatedPod : Pod := trainPod [{ name := "PYTHONPATH", value := "/a" }, { name := "PYTHONPATH", value := "/b" }]

/-- The later of two entries counts, and the first one gets the hook directory. -/
theorem duplicate_loses_hooks : ¬ PathKept (fun _ => "1") detectingMutator
    (trainPod [{ name := "PYTHONPATH", value := "/a" }, { name := "PYTHONPATH", value := "/b" }]) "user" fun _ => home := by
  intro kept
  have instruments : detectingMutator.shouldMutate duplicatedPod "user" = true := by decide
  have refused : (detectingMutator.ensurePodWorkloadIdentity duplicatedPod).Returns "" := ⟨.error (.other "timeout"), rfl⟩
  obtain ⟨after, applied, keeps⟩ := kept _ ((mutate_returns_accepted instruments _).mpr ⟨"", refused, rfl⟩)
  have set_ : ∀ container ∈ duplicatedPod.spec.containers, emptyPythonPath container = false := by
    intro container member
    obtain rfl := List.mem_singleton.mp member
    rfl
  have applies : Applies (fun _ => "1") (detectingMutator.instrument duplicatedPod "") duplicatedPod
      (instrumented detectingMutator duplicatedPod "") := instrument_applies "" fun _ => set_
  obtain rfl := Option.some.inj (applied.symm.trans applies)
  have read : ((containerEnvs (encodePod (fun _ => "1") (instrumented detectingMutator duplicatedPod ""))).map fun env =>
      home.effective env "PYTHONPATH") = [some "/b".toList] := by
    rw [containerEnvs_encode]
    decide
  have shown : ((containerEnvs (encodePod (fun _ => "1") duplicatedPod)).map fun env => home.effective env "PYTHONPATH") =
      [some "/b".toList] := by decide
  have sets : ∃ before, (containerEnvs (encodePod (fun _ => "1") duplicatedPod))[0]? = some before ∧
      ∃ entry ∈ before, entry.name = "PYTHONPATH" := ⟨_, rfl, _, List.mem_cons_self, rfl⟩
  obtain ⟨before, here, present⟩ := sets
  obtain ⟨env, there, path⟩ := keeps 0 before here
  have first := congrArg (fun list => list[0]?) shown
  have second := congrArg (fun list => list[0]?) read
  simp only [List.getElem?_map, here, there, Option.map_some] at first second
  have hook := path.present present _ (Option.some.inj first)
  rw [Option.some.inj second] at hook
  revert hook
  decide

/-- A later entry that takes the first one's value in front of its own. -/
def extendedEnv : List EnvVar :=
  [{ name := "PYTHONPATH", value := "$(HOME)/lib" }, { name := "PYTHONPATH", value := "$(PYTHONPATH):/opt" }]

theorem extended_instrumented : detectingMutator.shouldMutate (trainPod extendedEnv) "user" = true := by
  decide

theorem extended_keeps_path :
    PathKept (fun _ => "1") detectingMutator (trainPod extendedEnv) "user" fun _ => home := by
  refine (path_kept_iff _ _ _ _ _ extended_instrumented rfl).mpr fun i container here => ?_
  obtain rfl : container = { name := "main", env := extendedEnv } := by
    cases i with
    | zero => exact (Option.some.inj here).symm
    | succ n => cases here
  refine ⟨by decide, fun _ => ⟨by decide, ⟨0, ":/opt".toList, by decide +kernel⟩, ?_⟩⟩
  intro name other value taken
  have notPath : name ≠ "PYTHONPATH" := fun same => other (same ▸ by decide)
  have later : ∀ entry ∈ [sent { name := "PYTHONPATH", value := "$(PYTHONPATH):/opt" }], entry.name ≠ name := by
    intro entry member
    obtain rfl := List.mem_singleton.mp member
    exact Ne.symm notPath
  have start : marked home extendedEnv name = translate (fun c => [some c]) home.base name :=
    (evaluate_of_ne later).trans (Function.update_of_ne notPath _ _)
  rw [start] at taken
  obtain ⟨text, _, rfl⟩ := Option.map_eq_some_iff.mp taken
  simp

end AibomWebhook.PythonPath
