import AibomWebhook.Mutator
import Mathlib.Data.List.InsertIdx

/-! The operations of the admission patch, one kind at a time: each is matched with
the edit of the pod that it stands for, in the pod's JSON. -/

namespace AibomWebhook.PodPatch
open Aibomdata GoText JsonPatch Kubernetes Objects PodJson Requests Webhook

section Paths

theorem pointer_volumes : pointer "/spec/volumes" = some ["spec", "volumes"] := by rfl

theorem pointer_initContainers : pointer "/spec/initContainers" = some ["spec", "initContainers"] := by
  rfl

theorem pointer_labels : pointer "/metadata/labels" = some ["metadata", "labels"] := by rfl

theorem pointer_annotations : pointer "/metadata/annotations" = some ["metadata", "annotations"] := by
  rfl

theorem pointer_container (i : Nat) : pointer (containerPath i) = some ["spec", "containers", i.repr] := by
  have base : pointer "/spec/containers" = some ["spec", "containers"] := by rfl
  have slash : "/spec/containers/" = "/spec/containers" ++ "/" := by decide
  have split : containerPath i = "/spec/containers" ++ "/" ++ i.repr := congrArg (· ++ i.repr) slash
  rw [split]
  exact pointer_index base i

/-- A further piece of a path is its last token. -/
theorem pointer_field {path field token : String} {tokens : List String} (parent : pointer path = some tokens)
    (named : field = "/" ++ token) (noSlash : '/' ∉ token.toList) (noTilde : '~' ∉ token.toList) :
    pointer (path ++ field) = some (tokens ++ [token]) := by
  rw [named, ← String.append_assoc]
  exact pointer_child parent noSlash noTilde

theorem pointer_env (i : Nat) :
    pointer (containerPath i ++ "/env") = some ["spec", "containers", i.repr, "env"] :=
  pointer_field (pointer_container i) (by decide) (by decide) (by decide)

theorem pointer_volumeMounts (i : Nat) :
    pointer (containerPath i ++ "/volumeMounts") = some ["spec", "containers", i.repr, "volumeMounts"] :=
  pointer_field (pointer_container i) (by decide) (by decide) (by decide)

theorem pointer_last {path : String} {tokens : List String} (parent : pointer path = some tokens) :
    pointer (path ++ "/-") = some (tokens ++ ["-"]) :=
  pointer_field parent (by decide) (by decide) (by decide)

end Paths

section Edits
variable (qt : Quantity → String)

/-- The pod with other values for its arrays. -/
def withSpec (pod : Pod) (spec : PodSpec) : Pod := { pod with content := { pod.content with spec := spec } }

theorem within_spec (pod : Pod) (edit : Json → Option Json) (rest : List String) :
    (encodePod qt pod).within edit ("spec" :: rest) =
      ((encodeSpec qt pod.spec).within edit rest).map fun changed =>
        .record [("metadata", some (encodeMetadata pod.metadata)), ("spec", some changed)] pod.content.others := by
  have listed : List.lookup "spec" [("metadata", some (encodeMetadata pod.metadata)),
      ("spec", some (encodeSpec qt pod.spec))] = some (some (encodeSpec qt pod.spec)) := rfl
  exact within_record listed edit rest

theorem spec_edit {pod : Pod} {spec : PodSpec} {edit : Json → Option Json} {rest : List String}
    (edited : (encodeSpec qt pod.spec).within edit rest = some (encodeSpec qt spec)) :
    (encodePod qt pod).within edit ("spec" :: rest) = some (encodePod qt (withSpec pod spec)) := by
  rw [within_spec, edited]
  rfl

theorem metadata_edit {pod : Pod} {metadata : ObjectMeta} {edit : Json → Option Json} {rest : List String}
    (edited : (encodeMetadata pod.metadata).within edit rest = some (encodeMetadata metadata)) :
    (encodePod qt pod).within edit ("metadata" :: rest) = some (encodePod qt { pod with metadata := metadata }) := by
  have listed : List.lookup "metadata" [("metadata", some (encodeMetadata pod.metadata)),
      ("spec", some (encodeSpec qt pod.spec))] = some (some (encodeMetadata pod.metadata)) := rfl
  exact (within_record listed edit rest).trans (by rw [edited]; rfl)

theorem arrayUnlessEmpty_of_ne {α : Type} {encode : α → Json} {items : List α} (filled : items ≠ []) :
    arrayUnlessEmpty encode items = some (.arr (items.map encode)) := by
  simp [arrayUnlessEmpty, filled]

theorem spec_addVolumes (spec : PodSpec) {volumes : List Volume} (filled : volumes ≠ []) :
    (encodeSpec qt spec).edge .add (some (.arr (volumes.map encodeVolume))) "volumes" =
      some (encodeSpec qt { spec with volumes := volumes }) := by
  rw [encodeSpec, add_record (by rfl), encodeSpec, arrayUnlessEmpty_of_ne filled]
  rfl

theorem spec_appendVolume {spec : PodSpec} (filled : spec.volumes ≠ []) (volume : Volume) :
    (encodeSpec qt spec).within (Json.edge .add (some (encodeVolume volume)) "-") ["volumes"] =
      some (encodeSpec qt { spec with volumes := spec.volumes ++ [volume] }) := by
  rw [encodeSpec, arrayUnlessEmpty_of_ne filled, within_record (by rfl)]
  simp only [Json.within, add_end, Option.map_some, encodeSpec,
    arrayUnlessEmpty_of_ne (List.append_ne_nil_of_left_ne_nil filled [volume]), List.map_append, List.map_cons,
    List.map_nil]
  rfl

theorem spec_addInitContainers (spec : PodSpec) {containers : List Container} (filled : containers ≠ []) :
    (encodeSpec qt spec).edge .add (some (.arr (containers.map (encodeContainer qt)))) "initContainers" =
      some (encodeSpec qt { spec with initContainers := containers }) := by
  rw [encodeSpec, add_record (by rfl), encodeSpec, arrayUnlessEmpty_of_ne filled]
  rfl

theorem spec_appendInitContainer {spec : PodSpec} (filled : spec.initContainers ≠ []) (container : Container) :
    (encodeSpec qt spec).within (Json.edge .add (some (encodeContainer qt container)) "-") ["initContainers"] =
      some (encodeSpec qt { spec with initContainers := spec.initContainers ++ [container] }) := by
  rw [encodeSpec, arrayUnlessEmpty_of_ne filled, within_record (by rfl)]
  simp only [Json.within, add_end, Option.map_some, encodeSpec,
    arrayUnlessEmpty_of_ne (List.append_ne_nil_of_left_ne_nil filled [container]), List.map_append, List.map_cons,
    List.map_nil]
  rfl

theorem within_container {spec : PodSpec} {done later : List Container} {container : Container}
    (at_ : spec.containers = done ++ container :: later) (edit : Json → Option Json) (rest : List String) :
    (encodeSpec qt spec).within edit ("containers" :: done.length.repr :: rest) =
      ((encodeContainer qt container).within edit rest).map fun changed =>
        .record [("volumes", arrayUnlessEmpty encodeVolume spec.volumes),
          ("initContainers", arrayUnlessEmpty (encodeContainer qt) spec.initContainers),
          ("containers", some (.arr ((spec.containers.map (encodeContainer qt)).set done.length changed)))]
          spec.others := by
  have here : (spec.containers.map (encodeContainer qt))[done.length]? = some (encodeContainer qt container) := by
    simp [at_]
  have listed : List.lookup "containers" [("volumes", arrayUnlessEmpty encodeVolume spec.volumes),
      ("initContainers", arrayUnlessEmpty (encodeContainer qt) spec.initContainers),
      ("containers", some (.arr (spec.containers.map (encodeContainer qt))))] =
      some (some (.arr (spec.containers.map (encodeContainer qt)))) := rfl
  rw [encodeSpec, within_record listed, within_arr here, Option.map_map]
  rfl

theorem container_edit {spec : PodSpec} {done later : List Container} {container changed : Container}
    (at_ : spec.containers = done ++ container :: later) {edit : Json → Option Json} {rest : List String}
    (edited : (encodeContainer qt container).within edit rest = some (encodeContainer qt changed)) :
    (encodeSpec qt spec).within edit ("containers" :: done.length.repr :: rest) =
      some (encodeSpec qt { spec with containers := done ++ changed :: later }) := by
  rw [within_container qt at_, edited]
  simp only [Option.map_some, at_, encodeSpec, List.map_append, List.map_cons]
  congr 6
  simp

theorem container_addEnv (container : Container) {env : List EnvVar} (filled : env ≠ []) :
    (encodeContainer qt container).edge .add (some (.arr (env.map encodeEnvVar))) "env" =
      some (encodeContainer qt { container with env := env }) := by
  rw [encodeContainer, add_record (by rfl), encodeContainer, arrayUnlessEmpty_of_ne filled]
  rfl

theorem container_appendEnv {container : Container} (filled : container.env ≠ []) (env : EnvVar) :
    (encodeContainer qt container).within (Json.edge .add (some (encodeEnvVar env)) "-") ["env"] =
      some (encodeContainer qt { container with env := container.env ++ [env] }) := by
  rw [encodeContainer, arrayUnlessEmpty_of_ne filled, within_record (by rfl)]
  simp only [Json.within, add_end, Option.map_some, encodeContainer,
    arrayUnlessEmpty_of_ne (List.append_ne_nil_of_left_ne_nil filled [env]), List.map_append, List.map_cons,
    List.map_nil]
  rfl

theorem within_envVar {container : Container} {index : Nat} {env : EnvVar} (found : container.env[index]? = some env)
    (edit : Json → Option Json) (rest : List String) :
    (encodeContainer qt container).within edit ("env" :: index.repr :: rest) =
      ((encodeEnvVar env).within edit rest).map fun changed =>
        .record (setMember "env" (some (.arr ((container.env.map encodeEnvVar).set index changed)))
          [("name", some (.text container.name)), ("image", textUnlessEmpty container.image),
            ("command", arrayUnlessEmpty Json.text container.command),
            ("args", arrayUnlessEmpty Json.text container.args),
            ("env", arrayUnlessEmpty encodeEnvVar container.env),
            ("resources", some (encodeResources qt container.resources)),
            ("volumeMounts", arrayUnlessEmpty encodeVolumeMount container.volumeMounts),
            ("restartPolicy", container.restartPolicy.map Json.text)]) container.others := by
  have filled : container.env ≠ [] := by
    rintro empty
    simp [empty] at found
  have here : (container.env.map encodeEnvVar)[index]? = some (encodeEnvVar env) := by simp [found]
  rw [encodeContainer, arrayUnlessEmpty_of_ne filled, within_record (by rfl), within_arr here, Option.map_map]
  rfl

theorem container_replaceValue {container : Container} {index : Nat} {env : EnvVar}
    (found : container.env[index]? = some env) (present : env.value ≠ "") {value : String} (filled : value ≠ "") :
    (encodeContainer qt container).within (Json.edge .replace (some (.text value)) "value") ["env", index.repr] =
      some (encodeContainer qt { container with env := container.env.set index { env with value := value } }) := by
  have nonempty : container.env.set index { env with value := value } ≠ [] := by
    intro empty
    have length := congrArg List.length empty
    rw [List.length_set, List.length_nil, List.length_eq_zero_iff] at length
    simp [length] at found
  have edited : (encodeEnvVar env).edge .replace (some (.text value)) "value" =
      some (encodeEnvVar { env with value := value }) := by
    have sent : textUnlessEmpty value = some (.text value) := if_neg filled
    have old : textUnlessEmpty env.value = some (.text env.value) := if_neg present
    rw [encodeEnvVar, object, old, replace_record (by rfl), encodeEnvVar, sent]
    rfl
  rw [within_envVar qt found]
  simp only [Json.within, edited, Option.map_some, encodeContainer, arrayUnlessEmpty_of_ne nonempty, List.map_set]
  rfl

/-- An entry whose value is empty is sent without it. -/
theorem container_replaceValue_none {container : Container} {index : Nat} {env : EnvVar}
    (found : container.env[index]? = some env) (absent : env.value = "") (value : String) :
    (encodeContainer qt container).within (Json.edge .replace (some (.text value)) "value") ["env", index.repr] =
      none := by
  have omitted : textUnlessEmpty env.value = none := if_pos absent
  rw [within_envVar qt found, Json.within, encodeEnvVar, object, omitted, replace_absent (by rfl)]
  rfl

theorem container_addMounts (container : Container) {mounts : List VolumeMount} (filled : mounts ≠ []) :
    (encodeContainer qt container).edge .add (some (.arr (mounts.map encodeVolumeMount))) "volumeMounts" =
      some (encodeContainer qt { container with volumeMounts := mounts }) := by
  rw [encodeContainer, add_record (by rfl), encodeContainer, arrayUnlessEmpty_of_ne filled]
  rfl

theorem container_appendMount {container : Container} (filled : container.volumeMounts ≠ []) (mount : VolumeMount) :
    (encodeContainer qt container).within (Json.edge .add (some (encodeVolumeMount mount)) "-") ["volumeMounts"] =
      some (encodeContainer qt { container with volumeMounts := container.volumeMounts ++ [mount] }) := by
  rw [encodeContainer, arrayUnlessEmpty_of_ne filled, within_record (by rfl)]
  simp only [Json.within, add_end, Option.map_some, encodeContainer,
    arrayUnlessEmpty_of_ne (List.append_ne_nil_of_left_ne_nil filled [mount]), List.map_append, List.map_cons,
    List.map_nil]
  rfl

theorem container_removeMount {container : Container} {index : Nat} (inside : index < container.volumeMounts.length)
    (left : container.volumeMounts.eraseIdx index ≠ []) :
    (encodeContainer qt container).within (Json.edge .remove none index.repr) ["volumeMounts"] =
      some (encodeContainer qt { container with volumeMounts := container.volumeMounts.eraseIdx index }) := by
  have filled : container.volumeMounts ≠ [] := by
    intro empty
    simp [empty] at inside
  have mapped : (container.volumeMounts.map encodeVolumeMount).eraseIdx index =
      (container.volumeMounts.eraseIdx index).map encodeVolumeMount := by
    rw [List.eraseIdx_map]
  rw [encodeContainer, arrayUnlessEmpty_of_ne filled, within_record (by rfl)]
  simp only [Json.within, remove_arr (List.length_map _ ▸ inside), Option.map_some, encodeContainer,
    arrayUnlessEmpty_of_ne left, mapped]
  rfl

theorem metadata_setLabels (metadata : ObjectMeta) (labels : StringMap) :
    (encodeMetadata metadata).edge .add (some (encodeMap labels)) "labels" =
      some (encodeMetadata { metadata with labels := some labels }) := by
  rw [encodeMetadata, add_record (by rfl)]
  rfl

theorem metadata_setAnnotations (metadata : ObjectMeta) (annotations : StringMap) :
    (encodeMetadata metadata).edge .add (some (encodeMap annotations)) "annotations" =
      some (encodeMetadata { metadata with annotations := some annotations }) := by
  rw [encodeMetadata, add_record (by rfl)]
  rfl

theorem metadata_editLabels {metadata : ObjectMeta} {labels changed : StringMap}
    (present : metadata.labels = some labels) {edit : Json → Option Json}
    (edited : edit (encodeMap labels) = some (encodeMap changed)) :
    (encodeMetadata metadata).within edit ["labels"] =
      some (encodeMetadata { metadata with labels := some changed }) := by
  rw [encodeMetadata, present, within_record (by rfl), Json.within, edited]
  rfl

theorem metadata_editAnnotations {metadata : ObjectMeta} {annotations changed : StringMap}
    (present : metadata.annotations = some annotations) {edit : Json → Option Json}
    (edited : edit (encodeMap annotations) = some (encodeMap changed)) :
    (encodeMetadata metadata).within edit ["annotations"] =
      some (encodeMetadata { metadata with annotations := some changed }) := by
  rw [encodeMetadata, present, within_record (by rfl), Json.within, edited]
  rfl

theorem map_add (map : StringMap) (key value : String) :
    (encodeMap map).edge .add (some (.text value)) key = some (encodeMap (map.put (key, value))) := by
  simp only [encodeMap, Json.edge]
  congr 2
  funext other
  by_cases same : other = key
  · simp [same, Keyed.find?_put]
  · simp [Function.update_of_ne same, Keyed.find?_put, Ne.symm same]

theorem map_remove {map : StringMap} {key : String} (present : (map.find? key).isSome) :
    (encodeMap map).edge .remove none key = some (encodeMap (map.erase key)) := by
  obtain ⟨entry, found⟩ := Option.isSome_iff_exists.mp present
  simp only [encodeMap, Json.edge, found, Option.map_some]
  congr 2
  funext other
  by_cases same : other = key
  · simp [same]
  · simp [Function.update_of_ne same, Keyed.find?_erase_of_ne same]

end Edits

section Operations
variable (qt : Quantity → String)

/-- The operations apply in order to the JSON of one pod and give that of the other. -/
def Applies (patches : List PatchOperation) (pod result : Pod) : Prop :=
  applyPatch (patches.map (PatchOperation.marshal qt)) (encodePod qt pod) = some (encodePod qt result)

def Fails (patches : List PatchOperation) (pod : Pod) : Prop :=
  applyPatch (patches.map (PatchOperation.marshal qt)) (encodePod qt pod) = none

variable {qt}

theorem Applies.nil (pod : Pod) : Applies qt [] pod pod := rfl

theorem Applies.append {first second : List PatchOperation} {pod middle result : Pod}
    (start : Applies qt first pod middle) (rest : Applies qt second middle result) :
    Applies qt (first ++ second) pod result := by
  rw [Applies, List.map_append, applyPatch_append, start]
  exact rest

theorem Applies.fails {first second : List PatchOperation} {pod middle : Pod}
    (start : Applies qt first pod middle) (rest : Fails qt second middle) : Fails qt (first ++ second) pod := by
  rw [Fails, List.map_append, applyPatch_append, start]
  exact rest

theorem Fails.append {first : List PatchOperation} {pod : Pod} (start : Fails qt first pod)
    (second : List PatchOperation) : Fails qt (first ++ second) pod := by
  rw [Fails, List.map_append, applyPatch_append, start]
  rfl

theorem applies_one {patch : PatchOperation} (tokens : List String) (last : String) {pod result : Pod}
    (path : pointer patch.path = some (tokens ++ [last]))
    (edited : (encodePod qt pod).within (Json.edge patch.op (patch.value.map (PatchValue.json qt)) last) tokens =
      some (encodePod qt result)) : Applies qt [patch] pod result := by
  simp [Applies, applyPatch, Operation.apply, PatchOperation.marshal, path, operate_append, edited]

theorem fails_one {patch : PatchOperation} (tokens : List String) (last : String) {pod : Pod}
    (path : pointer patch.path = some (tokens ++ [last]))
    (failed : (encodePod qt pod).within (Json.edge patch.op (patch.value.map (PatchValue.json qt)) last) tokens =
      none) : Fails qt [patch] pod := by
  simp [Fails, applyPatch, Operation.apply, PatchOperation.marshal, path, operate_append, failed]

def withVolumes (pod : Pod) (volumes : List Volume) : Pod := withSpec pod { pod.spec with volumes := volumes }

def withInitContainers (pod : Pod) (containers : List Container) : Pod :=
  withSpec pod { pod.spec with initContainers := containers }

def withContainers (pod : Pod) (containers : List Container) : Pod :=
  withSpec pod { pod.spec with containers := containers }

/-- One operation on the container after `done`, as an edit of that container. -/
theorem applies_container {patch : PatchOperation} (inner : List String) (last : String) {pod : Pod}
    {done later : List Container} {container changed : Container}
    (at_ : pod.spec.containers = done ++ container :: later)
    (path : pointer patch.path = some ("spec" :: "containers" :: done.length.repr :: inner ++ [last]))
    (edited : (encodeContainer qt container).within
      (Json.edge patch.op (patch.value.map (PatchValue.json qt)) last) inner = some (encodeContainer qt changed)) :
    Applies qt [patch] pod (withContainers pod (done ++ changed :: later)) :=
  applies_one ("spec" :: "containers" :: done.length.repr :: inner) last path
    (spec_edit qt (container_edit qt at_ edited))

theorem fails_container {patch : PatchOperation} (inner : List String) (last : String) {pod : Pod}
    {done later : List Container} {container : Container}
    (at_ : pod.spec.containers = done ++ container :: later)
    (path : pointer patch.path = some ("spec" :: "containers" :: done.length.repr :: inner ++ [last]))
    (failed : (encodeContainer qt container).within
      (Json.edge patch.op (patch.value.map (PatchValue.json qt)) last) inner = none) : Fails qt [patch] pod := by
  apply fails_one ("spec" :: "containers" :: done.length.repr :: inner) last path
  rw [within_spec, within_container qt at_, failed]
  rfl

@[simp] theorem withContainers_containers (pod : Pod) (containers : List Container) :
    (withContainers pod containers).spec.containers = containers := rfl

@[simp] theorem withContainers_withContainers (pod : Pod) (first second : List Container) :
    withContainers (withContainers pod first) second = withContainers pod second := rfl

theorem withContainers_self {pod : Pod} {containers : List Container} (same : pod.spec.containers = containers) :
    withContainers pod containers = pod := by
  subst same
  rfl

variable (qt)

/-- A list of entries appended one by one to an array that is not empty. -/
theorem applies_appendEnv {pod : Pod} {done later : List Container} {container : Container}
    (at_ : pod.spec.containers = done ++ container :: later) (filled : container.env ≠ []) (envVars : List EnvVar) :
    Applies qt (envVars.map fun env =>
        { op := .add, path := containerPath done.length ++ "/env" ++ "/-", value := some (.envVar env) }) pod
      (withContainers pod (done ++ { container with env := container.env ++ envVars } :: later)) := by
  induction envVars generalizing pod container with
  | nil =>
    rw [List.append_nil, withContainers_self at_]
    exact Applies.nil pod
  | cons env rest ih =>
    let patch : PatchOperation :=
      { op := .add, path := containerPath done.length ++ "/env" ++ "/-", value := some (.envVar env) }
    have first : Applies qt [patch] pod
        (withContainers pod (done ++ { container with env := container.env ++ [env] } :: later)) :=
      applies_container ["env"] "-" at_ (pointer_last (pointer_env done.length)) (container_appendEnv qt filled env)
    have stillFilled : ({ container with env := container.env ++ [env] } : Container).env ≠ [] :=
      List.append_ne_nil_of_left_ne_nil filled [env]
    have second := ih (withContainers_containers pod _) stillFilled
    simpa using first.append second

theorem applies_appendMounts {pod : Pod} {done later : List Container} {container : Container}
    (at_ : pod.spec.containers = done ++ container :: later) (filled : container.volumeMounts ≠ [])
    (mounts : List VolumeMount) :
    Applies qt (mounts.map fun mount =>
        { op := .add, path := containerPath done.length ++ "/volumeMounts" ++ "/-", value := some (.mount mount) }) pod
      (withContainers pod (done ++ { container with volumeMounts := container.volumeMounts ++ mounts } :: later)) := by
  induction mounts generalizing pod container with
  | nil =>
    rw [List.append_nil, withContainers_self at_]
    exact Applies.nil pod
  | cons mount rest ih =>
    let patch : PatchOperation :=
      { op := .add, path := containerPath done.length ++ "/volumeMounts" ++ "/-", value := some (.mount mount) }
    have first : Applies qt [patch] pod
        (withContainers pod (done ++ { container with volumeMounts := container.volumeMounts ++ [mount] } :: later)) :=
      applies_container ["volumeMounts"] "-" at_ (pointer_last (pointer_volumeMounts done.length)) (container_appendMount qt filled mount)
    have stillFilled : ({ container with volumeMounts := container.volumeMounts ++ [mount] } : Container).volumeMounts ≠
        [] := List.append_ne_nil_of_left_ne_nil filled [mount]
    have second := ih (withContainers_containers pod _) stillFilled
    simpa using first.append second

end Operations

section Containers
variable (qt : Quantity → String)

/-- The environment with the hook directory in front of a literal PYTHONPATH. -/
def hookedEnv (container : Container) : List EnvVar :=
  match pythonPathReplace container with
  | some (pythonPathIdx, pythonPath) =>
    container.env.modify pythonPathIdx fun env => { env with value := pythonPath }
  | none => container.env

def withoutTokenMount (mounts : List VolumeMount) : List VolumeMount :=
  match volumeMountIndexAtPath mounts aibomTokenVolumeMount.mountPath with
  | some idx => mounts.eraseIdx idx
  | none => mounts

def instrumentContainer (pod : Pod) (container : Container) : Container :=
  { container with
    env := hookedEnv container ++ detectorEnvVars pod container
    volumeMounts := withoutTokenMount container.volumeMounts ++ detectorMounts }

/-- The first PYTHONPATH entry has neither a source nor a value. -/
def emptyPythonPath (container : Container) : Bool :=
  match container.env.find? (fun env => env.name = "PYTHONPATH") with
  | some env => env.valueFrom.isNone && env.value = ""
  | none => false

theorem pythonPathReplace_some {container : Container} {index : Nat} {value : String}
    (replaced : pythonPathReplace container = some (index, value)) :
    ∃ env, container.env[index]? = some env ∧ env.name = "PYTHONPATH" ∧
      (emptyPythonPath container = true ↔ env.value = "") ∧ value ≠ "" := by
  unfold pythonPathReplace at replaced
  split at replaced
  · rename_i found env first literal
    have entry : container.env[found]? = some env := by
      rw [List.find?_eq_bind_findIdx?_getElem?, first] at literal
      exact literal
    have named : env.name = "PYTHONPATH" := by simpa using List.find?_some literal
    split at replaced
    · exact absurd replaced (by simp)
    · rename_i unsourced
      have same := Option.some.inj replaced
      rw [Prod.mk.injEq] at same
      obtain ⟨rfl, rfl⟩ := same
      refine ⟨env, entry, named, ?_, ?_⟩
      · have none : env.valueFrom.isNone = true := by simpa using unsourced
        simp [emptyPythonPath, literal, none]
      · split
        · intro empty
          have length := congrArg String.length empty
          simp at length
        · decide
  · exact absurd replaced (by simp)

theorem modify_eq_set {α : Type} {items : List α} {index : Nat} {item : α} (found : items[index]? = some item)
    (change : α → α) : items.modify index change = items.set index (change item) := by
  induction items generalizing index with
  | nil => simp at found
  | cons first rest ih =>
    cases index with
    | zero =>
      obtain rfl : first = item := by simpa using found
      rfl
    | succ n =>
      have later : rest[n]? = some item := by simpa using found
      simpa [List.modify] using ih later

theorem emptyPythonPath_replaces {container : Container} (unset : emptyPythonPath container = true) :
    ∃ index value, pythonPathReplace container = some (index, value) := by
  unfold emptyPythonPath at unset
  split at unset
  · rename_i env literal
    have literal' := literal
    rw [List.find?_eq_bind_findIdx?_getElem?] at literal'
    rcases first : container.env.findIdx? (fun env => env.name = "PYTHONPATH") with _ | index
    · simp [first] at literal'
    · have unsourced : env.valueFrom.isSome = false := by
        rw [Bool.and_eq_true, Option.isNone_iff_eq_none] at unset
        simp [unset.1]
      exact ⟨index, _, by simp only [pythonPathReplace, first, literal, unsourced]; rfl⟩
  · exact absurd unset (by simp)

/-- The operations on the environment of one container. -/
def envPatches (pod : Pod) (containerIdx : Nat) (container : Container) : List PatchOperation :=
  let envVars := detectorEnvVars pod container
  let envPath := containerPath containerIdx ++ "/env"
  if container.env.isEmpty then [{ op := .add, path := envPath, value := some (.envVars envVars) }]
  else
    (match pythonPathReplace container with
      | some (pythonPathIdx, pythonPath) =>
        [{ op := .replace, path := envPath ++ "/" ++ toString pythonPathIdx ++ "/value"
           value := some (.text pythonPath) }]
      | none => []) ++
    envVars.map fun env => { op := .add, path := envPath ++ "/-", value := some (.envVar env) }

def mountPatches (containerIdx : Nat) (container : Container) : List PatchOperation :=
  let mountPath := containerPath containerIdx ++ "/volumeMounts"
  (if container.volumeMounts.isEmpty then
    [{ op := .add, path := mountPath, value := some (.mounts detectorMounts) }]
  else detectorMounts.map fun mount => { op := .add, path := mountPath ++ "/-", value := some (.mount mount) }) ++
  match volumeMountIndexAtPath container.volumeMounts aibomTokenVolumeMount.mountPath with
  | some idx => [{ op := .remove, path := mountPath ++ "/" ++ toString idx }]
  | none => []

theorem buildDatasetDetectorPatches_eq (pod : Pod) (containerIdx : Nat) (container : Container) :
    buildDatasetDetectorPatches pod containerIdx container =
      envPatches pod containerIdx container ++ mountPatches containerIdx container := by
  exact List.append_assoc _ _ _

theorem detectorEnvVars_ne_nil (pod : Pod) (container : Container) : detectorEnvVars pod container ≠ [] := by
  unfold detectorEnvVars
  split
  · simp
  · split <;> simp

theorem hookedEnv_of_nil {container : Container} (empty : container.env = []) : hookedEnv container = [] := by
  simp [hookedEnv, pythonPathReplace, empty]

theorem pointer_value (i index : Nat) :
    pointer (containerPath i ++ "/env" ++ "/" ++ toString index ++ "/value") =
      some ["spec", "containers", i.repr, "env", index.repr, "value"] :=
  pointer_field (pointer_index (pointer_env i) index) (by decide) (by decide) (by decide)

theorem envPatches_apply (pod : Pod) {now : Pod} {done later : List Container} {container : Container}
    (at_ : now.spec.containers = done ++ container :: later) (set_ : emptyPythonPath container = false) :
    Applies qt (envPatches pod done.length container) now
      (withContainers now
        (done ++ { container with env := hookedEnv container ++ detectorEnvVars pod container } :: later)) := by
  by_cases empty : container.env = []
  · simp only [envPatches, empty, List.isEmpty_nil, if_true, hookedEnv_of_nil empty, List.nil_append]
    exact applies_container [] "env" at_ (pointer_env done.length)
      (container_addEnv qt container (detectorEnvVars_ne_nil pod container))
  · have filled : container.env.isEmpty = false := by simpa using empty
    simp only [envPatches, filled, Bool.false_eq_true, if_false]
    rcases replaced : pythonPathReplace container with _ | ⟨index, value⟩
    · have same : hookedEnv container = container.env := by simp [hookedEnv, replaced]
      rw [same]
      exact applies_appendEnv qt at_ empty (detectorEnvVars pod container)
    · obtain ⟨env, entry, named, unset, present⟩ := pythonPathReplace_some replaced
      have sent : env.value ≠ "" := fun absent => by simp [unset.mpr absent] at set_
      have hooked : hookedEnv container = container.env.set index { env with value := value } := by
        simp only [hookedEnv, replaced, modify_eq_set entry]
      let patch : PatchOperation :=
        { op := .replace, path := containerPath done.length ++ "/env" ++ "/" ++ toString index ++ "/value"
          value := some (.text value) }
      have first : Applies qt [patch] now
          (withContainers now (done ++ { container with env := hookedEnv container } :: later)) := by
        rw [hooked]
        exact applies_container ["env", index.repr] "value" at_ (pointer_value done.length index)
          (container_replaceValue qt entry sent present)
      have stillFilled : ({ container with env := hookedEnv container } : Container).env ≠ [] := by
        intro gone
        have length := congrArg List.length gone
        rw [hooked, List.length_set, List.length_nil, List.length_eq_zero_iff] at length
        exact empty length
      exact first.append (applies_appendEnv qt (withContainers_containers now _) stillFilled
        (detectorEnvVars pod container))

theorem envPatches_fail (pod : Pod) {now : Pod} {done later : List Container} {container : Container}
    (at_ : now.spec.containers = done ++ container :: later) (unset : emptyPythonPath container = true) :
    Fails qt (envPatches pod done.length container) now := by
  obtain ⟨index, value, replaced⟩ := emptyPythonPath_replaces unset
  obtain ⟨env, entry, named, absent, present⟩ := pythonPathReplace_some replaced
  have filled : container.env.isEmpty = false := by
    cases shape : container.env with
    | nil => simp [shape] at entry
    | cons first rest => rfl
  simp only [envPatches, filled, Bool.false_eq_true, if_false, replaced]
  let patch : PatchOperation :=
    { op := .replace, path := containerPath done.length ++ "/env" ++ "/" ++ toString index ++ "/value"
      value := some (.text value) }
  have first : Fails qt [patch] now :=
    fails_container ["env", index.repr] "value" at_ (pointer_value done.length index)
      (container_replaceValue_none qt entry (absent.mp unset) value)
  exact first.append _

@[simp] theorem mountPatches_env (containerIdx : Nat) (container : Container) (env : List EnvVar) :
    mountPatches containerIdx { container with env := env } = mountPatches containerIdx container := rfl

theorem mountPatches_apply {now : Pod} {done later : List Container} {container : Container}
    (at_ : now.spec.containers = done ++ container :: later) :
    Applies qt (mountPatches done.length container) now
      (withContainers now (done ++ { container with
        volumeMounts := withoutTokenMount container.volumeMounts ++ detectorMounts } :: later)) := by
  by_cases empty : container.volumeMounts = []
  · simp only [mountPatches, empty, List.isEmpty_nil, if_true, withoutTokenMount, volumeMountIndexAtPath,
      List.findIdx?_nil, List.nil_append, List.append_nil]
    exact applies_container [] "volumeMounts" at_ (pointer_volumeMounts done.length)
      (container_addMounts qt container (by simp [detectorMounts]))
  · have filled : container.volumeMounts.isEmpty = false := by simpa using empty
    have added := applies_appendMounts qt at_ empty detectorMounts
    simp only [mountPatches, filled, Bool.false_eq_true, if_false]
    rcases index : volumeMountIndexAtPath container.volumeMounts aibomTokenVolumeMount.mountPath with _ | idx
    · simpa [withoutTokenMount, index] using added
    · have inside : idx < container.volumeMounts.length := by
        rw [volumeMountIndexAtPath, List.findIdx?_eq_some_iff_getElem] at index
        exact index.1
      have erased : (container.volumeMounts ++ detectorMounts).eraseIdx idx =
          withoutTokenMount container.volumeMounts ++ detectorMounts := by
        simp only [withoutTokenMount, index]
        exact List.eraseIdx_append_of_lt_length inside detectorMounts
      let patch : PatchOperation :=
        { op := .remove, path := containerPath done.length ++ "/volumeMounts" ++ "/" ++ toString idx }
      have stillInside : idx < (container.volumeMounts ++ detectorMounts).length := by
        rw [List.length_append]
        omega
      have left : (container.volumeMounts ++ detectorMounts).eraseIdx idx ≠ [] := by
        rw [erased]
        simp [detectorMounts]
      have path : pointer patch.path = some ["spec", "containers", done.length.repr, "volumeMounts", idx.repr] :=
        pointer_index (pointer_volumeMounts done.length) idx
      have last : Applies qt [patch] (withContainers now (done ++ { container with
            volumeMounts := container.volumeMounts ++ detectorMounts } :: later))
          (withContainers now (done ++ { container with
            volumeMounts := withoutTokenMount container.volumeMounts ++ detectorMounts } :: later)) := by
        rw [← erased]
        exact applies_container ["volumeMounts"] idx.repr (withContainers_containers now _) path
          (container_removeMount qt stillInside left)
      exact added.append last

/-- The operations of one container make it an instrumented one. -/
theorem detectorPatches_apply (pod : Pod) {now : Pod} {done later : List Container} {container : Container}
    (at_ : now.spec.containers = done ++ container :: later) (set_ : emptyPythonPath container = false) :
    Applies qt (buildDatasetDetectorPatches pod done.length container) now
      (withContainers now (done ++ instrumentContainer pod container :: later)) := by
  have env := envPatches_apply qt pod at_ set_
  have mounts := mountPatches_apply qt (withContainers_containers now (done ++ { container with
    env := hookedEnv container ++ detectorEnvVars pod container } :: later))
  rw [mountPatches_env] at mounts
  rw [buildDatasetDetectorPatches_eq]
  exact env.append mounts

theorem detectorPatches_fail (pod : Pod) {now : Pod} {done later : List Container} {container : Container}
    (at_ : now.spec.containers = done ++ container :: later) (unset : emptyPythonPath container = true) :
    Fails qt (buildDatasetDetectorPatches pod done.length container) now := by
  rw [buildDatasetDetectorPatches_eq]
  exact (envPatches_fail qt pod at_ unset).append _

def allDetectorPatches (pod : Pod) (start : Nat) (containers : List Container) : List PatchOperation :=
  (containers.zipIdx start).flatMap fun (container, i) => buildDatasetDetectorPatches pod i container

/-- The induction is on the containers still to come; those before them are instrumented already. -/
theorem allDetectorPatches_apply (pod : Pod) {now : Pod} {done later : List Container}
    (at_ : now.spec.containers = done ++ later) (set_ : ∀ container ∈ later, emptyPythonPath container = false) :
    Applies qt (allDetectorPatches pod done.length later) now
      (withContainers now (done ++ later.map (instrumentContainer pod))) := by
  induction later generalizing now done with
  | nil =>
    rw [List.map_nil, ← at_, withContainers_self rfl]
    exact Applies.nil now
  | cons container rest ih =>
    have first := detectorPatches_apply qt pod at_ (set_ container List.mem_cons_self)
    have split : (withContainers now (done ++ instrumentContainer pod container :: rest)).spec.containers =
        (done ++ [instrumentContainer pod container]) ++ rest := by simp
    have second := ih split (fun other member => set_ other (List.mem_cons_of_mem container member))
    rw [List.length_append, List.length_singleton, withContainers_withContainers, List.append_assoc] at second
    exact first.append second

theorem allDetectorPatches_fail (pod : Pod) {now : Pod} {done later : List Container}
    (at_ : now.spec.containers = done ++ later) (unset : ∃ container ∈ later, emptyPythonPath container = true) :
    Fails qt (allDetectorPatches pod done.length later) now := by
  induction later generalizing now done with
  | nil => simp at unset
  | cons container rest ih =>
    by_cases here : emptyPythonPath container = true
    · exact (detectorPatches_fail qt pod at_ here).append _
    · have first := detectorPatches_apply qt pod at_ (by simpa using here)
      have split : (withContainers now (done ++ instrumentContainer pod container :: rest)).spec.containers =
          (done ++ [instrumentContainer pod container]) ++ rest := by simp
      obtain ⟨bad, member, found⟩ := unset
      have later : ∃ container ∈ rest, emptyPythonPath container = true := by
        rcases List.mem_cons.mp member with same | further
        · exact absurd (same ▸ found) here
        · exact ⟨bad, further, found⟩
      have second := ih split later
      rw [List.length_append, List.length_singleton] at second
      exact first.fails second

end Containers

end AibomWebhook.PodPatch
