import AibomWebhook.PodPatch

/-! What the admission patch does to the JSON of a pod as a whole: it applies, and
only adds, unless it replaces the value of a PYTHONPATH entry that is sent
without one. -/

namespace AibomWebhook.PatchApplies
open Aibomdata JsonPatch Kubernetes Objects PodJson PodPatch Requests Webhook

section Instrumented
variable (qt : Quantity → String)

def injectedVolumes (m : Mutator) (pod : Pod) (identitySecretName : String) : List Volume :=
  [buildAIBOMVolume, buildScriptsVolume, buildTokenVolume identitySecretName, buildDiscoverySigningKeyVolume] ++
    (modelSourcePVC pod).toList.map (fun source => buildModelSourceVolume source.1) ++
    if m.datasetDetection then [buildDatasetSigningKeyVolume] else []

def injectedInitContainers (m : Mutator) (pod : Pod) : List Container :=
  [discoveryContainer m pod] ++ if m.datasetDetection then [m.buildDatasetSidecarContainer pod] else []

/-- The pod that the patch is meant to produce. -/
def instrumented (m : Mutator) (pod : Pod) (identitySecretName : String) : Pod where
  metadata := { pod.metadata with
    labels := GoMap.set "aibom.io/instrumented" "true" pod.metadata.labels
    annotations := GoMap.set "aibom.io/instrumented-by" "webhook" pod.metadata.annotations }
  content := { pod.content with spec := { pod.spec with
    volumes := pod.spec.volumes ++ injectedVolumes m pod identitySecretName
    initContainers := pod.spec.initContainers ++ injectedInitContainers m pod
    containers :=
      if m.datasetDetection then pod.spec.containers.map (instrumentContainer pod) else pod.spec.containers } }

/-- The operations so far, and the lengths that `appendVolume` and
`appendInitContainer` recover by counting them. -/
structure Reaches (pod : Pod) (patches : List PatchOperation) (now : Pod) : Prop where
  applies : Applies qt patches pod now
  volumes : now.spec.volumes.length = pod.spec.volumes.length + additionsTo "/spec/volumes" patches
  initContainers : now.spec.initContainers.length =
    pod.spec.initContainers.length + additionsTo "/spec/initContainers" patches

variable {qt}

theorem additionsTo_append (path : String) (first second : List PatchOperation) :
    additionsTo path (first ++ second) = additionsTo path first + additionsTo path second := List.countP_append

theorem Reaches.start (pod : Pod) : Reaches qt pod [] pod :=
  { applies := Applies.nil pod, volumes := rfl, initContainers := rfl }

theorem applies_volumes {now : Pod} {volumes : List Volume} (filled : volumes ≠ []) :
    Applies qt [{ op := .add, path := "/spec/volumes", value := some (.volumes volumes) }] now
      (withVolumes now volumes) :=
  applies_one ["spec"] "volumes" pointer_volumes (spec_edit qt (spec_addVolumes qt now.spec filled))

theorem applies_volume {now : Pod} (filled : now.spec.volumes ≠ []) (volume : Volume) :
    Applies qt [{ op := .add, path := "/spec/volumes" ++ "/-", value := some (.volume volume) }] now
      (withVolumes now (now.spec.volumes ++ [volume])) :=
  applies_one ["spec", "volumes"] "-" (pointer_last pointer_volumes) (spec_edit qt (spec_appendVolume qt filled volume))

theorem applies_initContainers {now : Pod} {containers : List Container} (filled : containers ≠ []) :
    Applies qt [{ op := .add, path := "/spec/initContainers", value := some (.containers containers) }] now
      (withInitContainers now containers) :=
  applies_one ["spec"] "initContainers" pointer_initContainers (spec_edit qt (spec_addInitContainers qt now.spec filled))

theorem applies_initContainer {now : Pod} (filled : now.spec.initContainers ≠ []) (container : Container) :
    Applies qt [{ op := .add, path := "/spec/initContainers" ++ "/-", value := some (.container container) }] now
      (withInitContainers now (now.spec.initContainers ++ [container])) :=
  applies_one ["spec", "initContainers"] "-" (pointer_last pointer_initContainers) (spec_edit qt (spec_appendInitContainer qt filled container))

theorem Reaches.appendVolume {pod now : Pod} {patches : List PatchOperation} (reached : Reaches qt pod patches now)
    (volume : Volume) :
    Reaches qt pod (appendVolume patches pod volume) (withVolumes now (now.spec.volumes ++ [volume])) := by
  have counted := reached.volumes
  have others := reached.initContainers
  by_cases empty : pod.spec.volumes.length + additionsTo "/spec/volumes" patches = 0
  · have none : now.spec.volumes = [] := List.length_eq_zero_iff.mp (counted.trans empty)
    simp only [Webhook.appendVolume, empty, if_true, none, List.nil_append]
    refine { applies := reached.applies.append (applies_volumes (List.cons_ne_nil volume [])),
             volumes := ?_, initContainers := ?_ }
    · rw [additionsTo_append]
      have one : additionsTo "/spec/volumes"
          [{ op := .add, path := "/spec/volumes", value := some (.volumes [volume]) }] = 1 := by
        simp [additionsTo]
      rw [one, ← Nat.add_assoc, empty]
      rfl
    · rw [additionsTo_append]
      have zero : additionsTo "/spec/initContainers"
          [{ op := .add, path := "/spec/volumes", value := some (.volumes [volume]) }] = 0 := by
        simp [additionsTo]
      rw [zero]
      exact others
  · have filled : now.spec.volumes ≠ [] := fun none => empty (by rw [← counted, none]; rfl)
    simp only [Webhook.appendVolume, empty, if_false]
    refine { applies := reached.applies.append (applies_volume filled volume), volumes := ?_, initContainers := ?_ }
    · rw [additionsTo_append]
      have one : additionsTo "/spec/volumes"
          [{ op := .add, path := "/spec/volumes/-", value := some (.volume volume) }] = 1 := by
        simp [additionsTo]
      rw [one, ← Nat.add_assoc, ← counted]
      simp [withVolumes, withSpec, Pod.spec]
    · rw [additionsTo_append]
      have zero : additionsTo "/spec/initContainers"
          [{ op := .add, path := "/spec/volumes/-", value := some (.volume volume) }] = 0 := by
        simp [additionsTo]
      rw [zero]
      exact others

theorem Reaches.appendInitContainer {pod now : Pod} {patches : List PatchOperation}
    (reached : Reaches qt pod patches now) (container : Container) :
    Reaches qt pod (appendInitContainer patches pod container)
      (withInitContainers now (now.spec.initContainers ++ [container])) := by
  have counted := reached.initContainers
  have others := reached.volumes
  by_cases empty : pod.spec.initContainers.length + additionsTo "/spec/initContainers" patches = 0
  · have none : now.spec.initContainers = [] := List.length_eq_zero_iff.mp (counted.trans empty)
    simp only [Webhook.appendInitContainer, empty, if_true, none, List.nil_append]
    refine { applies := reached.applies.append (applies_initContainers (List.cons_ne_nil container [])),
             volumes := ?_, initContainers := ?_ }
    · rw [additionsTo_append]
      have zero : additionsTo "/spec/volumes"
          [{ op := .add, path := "/spec/initContainers", value := some (.containers [container]) }] = 0 := by
        simp [additionsTo]
      rw [zero]
      exact others
    · rw [additionsTo_append]
      have one : additionsTo "/spec/initContainers"
          [{ op := .add, path := "/spec/initContainers", value := some (.containers [container]) }] = 1 := by
        simp [additionsTo]
      rw [one, ← Nat.add_assoc, empty]
      rfl
  · have filled : now.spec.initContainers ≠ [] := fun none => empty (by rw [← counted, none]; rfl)
    simp only [Webhook.appendInitContainer, empty, if_false]
    refine { applies := reached.applies.append (applies_initContainer filled container),
             volumes := ?_, initContainers := ?_ }
    · rw [additionsTo_append]
      have zero : additionsTo "/spec/volumes"
          [{ op := .add, path := "/spec/initContainers/-", value := some (.container container) }] = 0 := by
        simp [additionsTo]
      rw [zero]
      exact others
    · rw [additionsTo_append]
      have one : additionsTo "/spec/initContainers"
          [{ op := .add, path := "/spec/initContainers/-", value := some (.container container) }] = 1 := by
        simp [additionsTo]
      rw [one, ← Nat.add_assoc, ← counted]
      simp [withInitContainers, withSpec, Pod.spec]

/-- Every operation on a container lies below the array of containers. -/
theorem detectorPatches_path {pod : Pod} {containerIdx : Nat} {container : Container} {patch : PatchOperation}
    (member : patch ∈ buildDatasetDetectorPatches pod containerIdx container) :
    ∃ rest, pointer patch.path = some ("spec" :: "containers" :: rest) := by
  rw [buildDatasetDetectorPatches_eq, List.mem_append] at member
  rcases member with env | mount
  · simp only [envPatches] at env
    split at env
    · obtain rfl := List.mem_singleton.mp env
      exact ⟨_, pointer_env containerIdx⟩
    · rcases List.mem_append.mp env with replaced | appended
      · split at replaced
        · obtain rfl := List.mem_singleton.mp replaced
          exact ⟨_, pointer_value containerIdx _⟩
        · simp at replaced
      · obtain ⟨env, _, rfl⟩ := List.mem_map.mp appended
        exact ⟨_, pointer_last (pointer_env containerIdx)⟩
  · simp only [mountPatches] at mount
    rcases List.mem_append.mp mount with added | removed
    · split at added
      · obtain rfl := List.mem_singleton.mp added
        exact ⟨_, pointer_volumeMounts containerIdx⟩
      · obtain ⟨mount, _, rfl⟩ := List.mem_map.mp added
        exact ⟨_, pointer_last (pointer_volumeMounts containerIdx)⟩
    · split at removed
      · rename_i idx _
        obtain rfl := List.mem_singleton.mp removed
        exact ⟨_, pointer_index (pointer_volumeMounts containerIdx) idx⟩
      · simp at removed

theorem additionsTo_detectorPatches (pod : Pod) (start : Nat) (containers : List Container) {path : String}
    {tokens : List String} (parsed : pointer path = some tokens) (elsewhere : tokens[1]? ≠ some "containers")
    (long : 2 ≤ tokens.length) : additionsTo path (allDetectorPatches pod start containers) = 0 := by
  rw [additionsTo, List.countP_eq_zero]
  intro patch member
  obtain ⟨⟨container, i⟩, _, inside⟩ := List.mem_flatMap.mp member
  obtain ⟨rest, below⟩ := detectorPatches_path inside
  have different : patch.path ≠ path := by
    intro same
    rw [same, parsed] at below
    simp [Option.some.inj below] at elsewhere
  have notAppended : patch.path ≠ path ++ "/-" := by
    intro same
    rw [same, pointer_last parsed] at below
    have second := congrArg (fun list => list[1]?) (Option.some.inj below)
    simp only [List.getElem?_append_left (show 1 < tokens.length from long)] at second
    exact elsewhere second
  simp [different, notAppended]

theorem Reaches.detectors {pod now : Pod} {patches : List PatchOperation} (reached : Reaches qt pod patches now)
    (untouched : now.spec.containers = pod.spec.containers)
    (set_ : ∀ container ∈ pod.spec.containers, emptyPythonPath container = false) :
    Reaches qt pod (patches ++ allDetectorPatches pod 0 pod.spec.containers)
      (withContainers now (pod.spec.containers.map (instrumentContainer pod))) where
  applies := by
    have all : Applies qt (allDetectorPatches pod ([] : List Container).length pod.spec.containers) now
        (withContainers now ([] ++ pod.spec.containers.map (instrumentContainer pod))) :=
      allDetectorPatches_apply qt pod untouched set_
    exact reached.applies.append all
  volumes := by
    rw [additionsTo_append, additionsTo_detectorPatches pod 0 _ pointer_volumes (by simp) (by simp)]
    exact reached.volumes
  initContainers := by
    rw [additionsTo_append, additionsTo_detectorPatches pod 0 _ pointer_initContainers (by simp) (by simp)]
    exact reached.initContainers

theorem applies_labels (now : Pod) :
    Applies qt [addMapEntry now.metadata.labels "/metadata/labels" "aibom.io/instrumented" "aibom.io~1instrumented"
        "true"] now
      { now with metadata := { now.metadata with
          labels := GoMap.set "aibom.io/instrumented" "true" now.metadata.labels } } := by
  rcases present : now.metadata.labels with _ | labels
  · exact applies_one ["metadata"] "labels" pointer_labels
      (metadata_edit qt (metadata_setLabels now.metadata (Keyed.ofList [("aibom.io/instrumented", "true")])))
  · have path : pointer "/metadata/labels/aibom.io~1instrumented" =
        some ["metadata", "labels", "aibom.io/instrumented"] := by rfl
    exact applies_one ["metadata", "labels"] "aibom.io/instrumented" path
      (metadata_edit qt (metadata_editLabels present (map_add labels "aibom.io/instrumented" "true")))

theorem applies_annotations (now : Pod) :
    Applies qt [addMapEntry now.metadata.annotations "/metadata/annotations" "aibom.io/instrumented-by"
        "aibom.io~1instrumented-by" "webhook"] now
      { now with metadata := { now.metadata with
          annotations := GoMap.set "aibom.io/instrumented-by" "webhook" now.metadata.annotations } } := by
  rcases present : now.metadata.annotations with _ | annotations
  · exact applies_one ["metadata"] "annotations" pointer_annotations
      (metadata_edit qt (metadata_setAnnotations now.metadata
        (Keyed.ofList [("aibom.io/instrumented-by", "webhook")])))
  · have path : pointer "/metadata/annotations/aibom.io~1instrumented-by" =
        some ["metadata", "annotations", "aibom.io/instrumented-by"] := by rfl
    exact applies_one ["metadata", "annotations"] "aibom.io/instrumented-by" path
      (metadata_edit qt (metadata_editAnnotations present (map_add annotations "aibom.io/instrumented-by" "webhook")))

/-- The operations before those on the containers. -/
def leadingPatches (m : Mutator) (pod : Pod) (identitySecretName : String) : List PatchOperation :=
  let patches := appendVolume [] pod buildAIBOMVolume
  let patches := appendVolume patches pod buildScriptsVolume
  let patches := appendVolume patches pod (buildTokenVolume identitySecretName)
  let patches := appendVolume patches pod buildDiscoverySigningKeyVolume
  let patches := match modelSourcePVC pod with
    | some (modelClaim, _) => appendVolume patches pod (buildModelSourceVolume modelClaim)
    | none => patches
  appendInitContainer patches pod (discoveryContainer m pod)

/-- The pod once they have been applied. -/
def ledPod (m : Mutator) (pod : Pod) (identitySecretName : String) : Pod :=
  withSpec pod { pod.spec with
    volumes := pod.spec.volumes ++
      [buildAIBOMVolume, buildScriptsVolume, buildTokenVolume identitySecretName, buildDiscoverySigningKeyVolume] ++
      (modelSourcePVC pod).toList.map (fun source => buildModelSourceVolume source.1)
    initContainers := pod.spec.initContainers ++ [discoveryContainer m pod] }

theorem reaches_led (m : Mutator) (pod : Pod) (identitySecretName : String) :
    Reaches qt pod (leadingPatches m pod identitySecretName) (ledPod m pod identitySecretName) := by
  have start : Reaches qt pod [] pod := Reaches.start pod
  have two := (start.appendVolume buildAIBOMVolume).appendVolume buildScriptsVolume
  have four := (two.appendVolume (buildTokenVolume identitySecretName)).appendVolume buildDiscoverySigningKeyVolume
  rcases source : modelSourcePVC pod with _ | ⟨modelClaim, subPath⟩
  · have all := four.appendInitContainer (discoveryContainer m pod)
    simpa [leadingPatches, ledPod, source, withInitContainers, withVolumes, withSpec, Pod.spec] using all
  · have all := (four.appendVolume (buildModelSourceVolume modelClaim)).appendInitContainer (discoveryContainer m pod)
    simpa [leadingPatches, ledPod, source, withInitContainers, withVolumes, withSpec, Pod.spec] using all

theorem withSpec_containers (m : Mutator) (pod : Pod) (identitySecretName : String) :
    (ledPod m pod identitySecretName).spec.containers = pod.spec.containers := rfl

theorem instrument_eq_of_detection {m : Mutator} (detection : m.datasetDetection = true) (pod : Pod)
    (identitySecretName : String) :
    m.instrument pod identitySecretName =
      appendInitContainer
        (appendVolume (leadingPatches m pod identitySecretName ++ allDetectorPatches pod 0 pod.spec.containers) pod
          buildDatasetSigningKeyVolume) pod (m.buildDatasetSidecarContainer pod) ++
      [addMapEntry pod.metadata.labels "/metadata/labels" "aibom.io/instrumented" "aibom.io~1instrumented" "true",
        addMapEntry pod.metadata.annotations "/metadata/annotations" "aibom.io/instrumented-by"
          "aibom.io~1instrumented-by" "webhook"] := by
  simp only [Mutator.instrument, detection, if_true]
  rfl

theorem instrument_eq_of_not_detection {m : Mutator} (detection : m.datasetDetection = false) (pod : Pod)
    (identitySecretName : String) :
    m.instrument pod identitySecretName = leadingPatches m pod identitySecretName ++
      [addMapEntry pod.metadata.labels "/metadata/labels" "aibom.io/instrumented" "aibom.io~1instrumented" "true",
        addMapEntry pod.metadata.annotations "/metadata/annotations" "aibom.io/instrumented-by"
          "aibom.io~1instrumented-by" "webhook"] := by
  simp only [Mutator.instrument, detection, Bool.false_eq_true, if_false]
  rfl

/-- The last two operations, on a pod with the metadata that was sent. -/
theorem applies_marks (pod : Pod) {now : Pod} (untouched : now.metadata = pod.metadata) :
    Applies qt
      [addMapEntry pod.metadata.labels "/metadata/labels" "aibom.io/instrumented" "aibom.io~1instrumented" "true",
        addMapEntry pod.metadata.annotations "/metadata/annotations" "aibom.io/instrumented-by"
          "aibom.io~1instrumented-by" "webhook"] now
      { now with metadata := { pod.metadata with
          labels := GoMap.set "aibom.io/instrumented" "true" pod.metadata.labels
          annotations := GoMap.set "aibom.io/instrumented-by" "webhook" pod.metadata.annotations } } := by
  rw [← untouched]
  let labelled : Pod := { now with metadata := { now.metadata with
    labels := GoMap.set "aibom.io/instrumented" "true" now.metadata.labels } }
  exact (applies_labels now).append (applies_annotations labelled)

theorem instrument_applies {m : Mutator} {pod : Pod} (identitySecretName : String)
    (set_ : m.datasetDetection = true → ∀ container ∈ pod.spec.containers, emptyPythonPath container = false) :
    Applies qt (m.instrument pod identitySecretName) pod (instrumented m pod identitySecretName) := by
  have led : Reaches qt pod (leadingPatches m pod identitySecretName) (ledPod m pod identitySecretName) :=
    reaches_led m pod identitySecretName
  cases detection : m.datasetDetection with
  | true =>
    have hooked := led.detectors (withSpec_containers m pod identitySecretName) (set_ detection)
    have all := (hooked.appendVolume buildDatasetSigningKeyVolume).appendInitContainer
      (m.buildDatasetSidecarContainer pod)
    rw [instrument_eq_of_detection detection]
    have marked := all.applies.append (applies_marks pod rfl)
    simpa [instrumented, injectedVolumes, injectedInitContainers, detection, ledPod, withInitContainers, withVolumes,
      withContainers, withSpec, Pod.spec] using marked
  | false =>
    rw [instrument_eq_of_not_detection detection]
    have marked := led.applies.append (applies_marks pod rfl)
    simpa [instrumented, injectedVolumes, injectedInitContainers, detection, ledPod, withSpec, Pod.spec] using marked

theorem fails_appendVolume {patches : List PatchOperation} {now : Pod} (failed : Fails qt patches now) (pod : Pod)
    (volume : Volume) : Fails qt (appendVolume patches pod volume) now := by
  simp only [appendVolume]
  split <;> exact failed.append _

theorem fails_appendInitContainer {patches : List PatchOperation} {now : Pod} (failed : Fails qt patches now)
    (pod : Pod) (container : Container) : Fails qt (appendInitContainer patches pod container) now := by
  simp only [appendInitContainer]
  split <;> exact failed.append _

theorem instrument_fails {m : Mutator} {pod : Pod} (identitySecretName : String) (detection : m.datasetDetection = true)
    (unset : ∃ container ∈ pod.spec.containers, emptyPythonPath container = true) :
    Fails qt (m.instrument pod identitySecretName) pod := by
  have led : Reaches qt pod (leadingPatches m pod identitySecretName) (ledPod m pod identitySecretName) :=
    reaches_led m pod identitySecretName
  have hooks : Fails qt (allDetectorPatches pod ([] : List Container).length pod.spec.containers)
      (ledPod m pod identitySecretName) := allDetectorPatches_fail qt pod (withSpec_containers m pod _) unset
  rw [instrument_eq_of_detection detection]
  exact (fails_appendInitContainer (fails_appendVolume (led.applies.fails hooks) pod _) pod _).append _

end Instrumented

section Stripped
variable {qt : Quantity → String}

def stripped (pod : Pod) : Pod :=
  { pod with metadata := { pod.metadata with
      labels := pod.metadata.labels.map (Keyed.erase "aibom.io/instrumented")
      annotations := pod.metadata.annotations.map (Keyed.erase "aibom.io/instrumented-by") } }

theorem erase_of_lookup_none {key : String} {map : GoMap} (absent : GoMap.lookup key map = none) :
    map.map (Keyed.erase key) = map := by
  cases map with
  | none => rfl
  | some entries =>
    have missing : entries.find? key = none := by simpa [GoMap.lookup] using absent
    simp [Keyed.erase_of_absent missing]

theorem strips_labelled (pod : Pod) :
    Applies qt (if (GoMap.lookup "aibom.io/instrumented" pod.metadata.labels).isSome then
        [{ op := .remove, path := "/metadata/labels/aibom.io~1instrumented" }] else []) pod
      { pod with metadata := { pod.metadata with
          labels := pod.metadata.labels.map (Keyed.erase "aibom.io/instrumented") } } := by
  rcases found : GoMap.lookup "aibom.io/instrumented" pod.metadata.labels with _ | value
  · simp only [Option.isSome_none, Bool.false_eq_true, if_false, erase_of_lookup_none found]
    exact Applies.nil pod
  · rcases present : pod.metadata.labels with _ | labels
    · simp [present] at found
    · have listed : (labels.find? "aibom.io/instrumented").isSome := by
        rw [present, GoMap.lookup, Option.getD_some, Option.map_eq_some_iff] at found
        obtain ⟨entry, entered, _⟩ := found
        simp [entered]
      have path : pointer "/metadata/labels/aibom.io~1instrumented" =
          some ["metadata", "labels", "aibom.io/instrumented"] := by rfl
      exact applies_one ["metadata", "labels"] "aibom.io/instrumented" path
        (metadata_edit qt (metadata_editLabels present (map_remove listed)))

theorem strips_claim (pod : Pod) :
    Applies qt (if (GoMap.lookup "aibom.io/instrumented-by" pod.metadata.annotations).isSome then
        [{ op := .remove, path := "/metadata/annotations/aibom.io~1instrumented-by" }] else []) pod
      { pod with metadata := { pod.metadata with
          annotations := pod.metadata.annotations.map (Keyed.erase "aibom.io/instrumented-by") } } := by
  rcases found : GoMap.lookup "aibom.io/instrumented-by" pod.metadata.annotations with _ | value
  · simp only [Option.isSome_none, Bool.false_eq_true, if_false, erase_of_lookup_none found]
    exact Applies.nil pod
  · rcases present : pod.metadata.annotations with _ | annotations
    · simp [present] at found
    · have listed : (annotations.find? "aibom.io/instrumented-by").isSome := by
        rw [present, GoMap.lookup, Option.getD_some, Option.map_eq_some_iff] at found
        obtain ⟨entry, entered, _⟩ := found
        simp [entered]
      have path : pointer "/metadata/annotations/aibom.io~1instrumented-by" =
          some ["metadata", "annotations", "aibom.io/instrumented-by"] := by rfl
      exact applies_one ["metadata", "annotations"] "aibom.io/instrumented-by" path
        (metadata_edit qt (metadata_editAnnotations present (map_remove listed)))

theorem strip_applies (pod : Pod) : Applies qt (stripSpoofedInstrumentationClaims pod) pod (stripped pod) := by
  let unlabelled : Pod := { pod with metadata := { pod.metadata with
    labels := pod.metadata.labels.map (Keyed.erase "aibom.io/instrumented") } }
  exact (strips_labelled pod).append (strips_claim unlabelled)

end Stripped

section Property

def serviceAccountTokenPath : String := "/var/run/secrets/kubernetes.io/serviceaccount"

/-- An environment entry is kept, or it is PYTHONPATH and only its value changes. -/
def KeepsEnvVar (before after : EnvVar) : Prop :=
  { after with value := before.value } = before ∧ (before.name ≠ "PYTHONPATH" → after = before)

/-- An application container keeps everything it has, but for a mount at the token
path, and gets the detector's environment entries and mounts in addition. -/
structure KeepsContainer (pod : Pod) (before after : Container) : Prop where
  rest : { after with env := before.env, volumeMounts := before.volumeMounts } = before
  env : ∃ kept, after.env = kept ++ detectorEnvVars pod before ∧ List.Forall₂ KeepsEnvVar before.env kept
  mounts : ∃ kept, after.volumeMounts = kept ++ detectorMounts ∧ kept.Sublist before.volumeMounts ∧
    kept.filter (fun mount => mount.mountPath ≠ serviceAccountTokenPath) =
      before.volumeMounts.filter (fun mount => mount.mountPath ≠ serviceAccountTokenPath)

/-- What the patch makes of a pod that is instrumented. -/
structure Instruments (m : Mutator) (pod result : Pod) : Prop where
  rest : { result with
    metadata := { result.metadata with labels := pod.metadata.labels, annotations := pod.metadata.annotations }
    content := { result.content with spec := { result.content.spec with
      volumes := pod.spec.volumes, initContainers := pod.spec.initContainers
      containers := pod.spec.containers } } } = pod
  volumes : ∃ identitySecretName, result.spec.volumes = pod.spec.volumes ++ injectedVolumes m pod identitySecretName
  initContainers : result.spec.initContainers = pod.spec.initContainers ++ injectedInitContainers m pod
  containers : if m.datasetDetection then List.Forall₂ (KeepsContainer pod) pod.spec.containers result.spec.containers
    else result.spec.containers = pod.spec.containers
  labels : ∀ key, GoMap.lookup key result.metadata.labels =
    if key = "aibom.io/instrumented" then some "true" else GoMap.lookup key pod.metadata.labels
  annotations : ∀ key, GoMap.lookup key result.metadata.annotations =
    if key = "aibom.io/instrumented-by" then some "webhook" else GoMap.lookup key pod.metadata.annotations

/-- What the patch makes of any other pod. -/
structure Strips (pod result : Pod) : Prop where
  rest : { result with metadata := { result.metadata with
    labels := pod.metadata.labels, annotations := pod.metadata.annotations } } = pod
  labels : ∀ key, GoMap.lookup key result.metadata.labels =
    if key = "aibom.io/instrumented" then none else GoMap.lookup key pod.metadata.labels
  annotations : ∀ key, GoMap.lookup key result.metadata.annotations =
    if key = "aibom.io/instrumented-by" then none else GoMap.lookup key pod.metadata.annotations

/-- Whatever the API server answers, the patch that the webhook returns applies to
the pod as it was sent, and the result only adds. -/
def PatchOnlyAdds (qt : Quantity → String) (m : Mutator) (pod : Pod) (requesterUsername : String) : Prop :=
  ∀ patches, (m.mutate pod requesterUsername).Returns (.ok patches) →
    ∃ result, applyPatch (patches.map (PatchOperation.marshal qt)) (encodePod qt pod) = some (encodePod qt result) ∧
      (if m.shouldMutate pod requesterUsername then Instruments m pod result else Strips pod result) ∧
      (GoMap.lookup "aibom.io/instrumented" result.metadata.labels = some "true" ↔
        m.shouldMutate pod requesterUsername = true)

theorem KeepsEnvVar.refl (env : EnvVar) : KeepsEnvVar env env := ⟨rfl, fun _ => rfl⟩

theorem forall₂_modify {α : Type} {keeps : α → α → Prop} (refl : ∀ item, keeps item item) {items : List α}
    {index : Nat} {change : α → α} (changed : ∀ item, items[index]? = some item → keeps item (change item)) :
    List.Forall₂ keeps items (items.modify index change) := by
  induction items generalizing index with
  | nil => simp
  | cons first rest ih =>
    cases index with
    | zero => exact .cons (changed first rfl) (List.forall₂_same.mpr fun item _ => refl item)
    | succ n => exact .cons (refl first) (ih fun item found => changed item (by simpa using found))

theorem hookedEnv_keeps (container : Container) : List.Forall₂ KeepsEnvVar container.env (hookedEnv container) := by
  rcases replaced : pythonPathReplace container with _ | ⟨index, value⟩
  · simp only [hookedEnv, replaced]
    exact List.forall₂_same.mpr fun env _ => KeepsEnvVar.refl env
  · obtain ⟨env, entry, named, _, _⟩ := pythonPathReplace_some replaced
    simp only [hookedEnv, replaced]
    refine forall₂_modify KeepsEnvVar.refl fun item found => ?_
    obtain rfl : env = item := Option.some.inj (entry.symm.trans found)
    exact ⟨rfl, fun other => absurd named other⟩

theorem withoutTokenMount_keeps (mounts : List VolumeMount) :
    (withoutTokenMount mounts).Sublist mounts ∧
      (withoutTokenMount mounts).filter (fun mount => mount.mountPath ≠ serviceAccountTokenPath) =
        mounts.filter (fun mount => mount.mountPath ≠ serviceAccountTokenPath) := by
  rcases index : volumeMountIndexAtPath mounts aibomTokenVolumeMount.mountPath with _ | idx
  · simp [withoutTokenMount, index]
  · simp only [withoutTokenMount, index]
    refine ⟨List.eraseIdx_sublist mounts idx, ?_⟩
    obtain ⟨inside, hit, _⟩ := List.findIdx?_eq_some_iff_getElem.mp index
    have split : mounts = mounts.take idx ++ mounts[idx] :: mounts.drop (idx + 1) := by
      rw [List.getElem_cons_drop, List.take_append_drop]
    have token : mounts[idx].mountPath = serviceAccountTokenPath := of_decide_eq_true hit
    conv_rhs => rw [split]
    rw [List.eraseIdx_eq_take_drop_succ, List.filter_append, List.filter_append,
      List.filter_cons_of_neg (by simpa using token)]

theorem instrumentContainer_keeps (pod : Pod) (container : Container) :
    KeepsContainer pod container (instrumentContainer pod container) where
  rest := rfl
  env := ⟨hookedEnv container, rfl, hookedEnv_keeps container⟩
  mounts := ⟨withoutTokenMount container.volumeMounts, rfl, withoutTokenMount_keeps container.volumeMounts⟩

theorem lookup_set (map : GoMap) (key value other : String) :
    GoMap.lookup other (GoMap.set key value map) = if other = key then some value else GoMap.lookup other map := by
  by_cases same : other = key
  · simp [same]
  · simp [same, GoMap.lookup_set_of_ne same]

theorem lookup_erase (map : GoMap) (key other : String) :
    GoMap.lookup other (map.map (Keyed.erase key)) = if other = key then none else GoMap.lookup other map := by
  cases map with
  | none => simp
  | some entries =>
    by_cases same : other = key
    · simp [GoMap.lookup, same]
    · simp [GoMap.lookup, same, Keyed.find?_erase_of_ne same]

theorem instrumented_instruments (m : Mutator) (pod : Pod) (identitySecretName : String) :
    Instruments m pod (instrumented m pod identitySecretName) where
  rest := rfl
  volumes := ⟨identitySecretName, rfl⟩
  initContainers := rfl
  containers := by
    cases detection : m.datasetDetection with
    | true =>
      simp only [if_true, instrumented, detection, Pod.spec]
      rw [List.forall₂_map_right_iff]
      exact List.forall₂_same.mpr fun container _ => instrumentContainer_keeps pod container
    | false => simp [instrumented, detection, Pod.spec]
  labels := lookup_set pod.metadata.labels "aibom.io/instrumented" "true"
  annotations := lookup_set pod.metadata.annotations "aibom.io/instrumented-by" "webhook"

theorem stripped_strips (pod : Pod) : Strips pod (stripped pod) where
  rest := rfl
  labels := lookup_erase pod.metadata.labels "aibom.io/instrumented"
  annotations := lookup_erase pod.metadata.annotations "aibom.io/instrumented-by"

theorem mutate_returns_accepted {m : Mutator} {pod : Pod} {requesterUsername : String}
    (accepted : m.shouldMutate pod requesterUsername = true) (result : Except ApiError (List PatchOperation)) :
    (m.mutate pod requesterUsername).Returns result ↔
      ∃ identitySecretName, (m.ensurePodWorkloadIdentity pod).Returns identitySecretName ∧
        result = .ok (m.instrument pod identitySecretName) := by
  have shape : m.mutate pod requesterUsername =
      (m.ensurePodWorkloadIdentity pod >>= fun identitySecretName =>
        pure (.ok (m.instrument pod identitySecretName))) := by
    simp only [Mutator.mutate, accepted, Bool.not_true, Bool.false_eq_true, if_false]
  rw [shape, Program.returns_bind]
  exact exists_congr fun identitySecretName => and_congr Iff.rfl eq_comm

theorem mutate_returns_rejected {m : Mutator} {pod : Pod} {requesterUsername : String}
    (rejected : m.shouldMutate pod requesterUsername = false) (result : Except ApiError (List PatchOperation)) :
    (m.mutate pod requesterUsername).Returns result ↔ result = .ok (stripSpoofedInstrumentationClaims pod) := by
  have shape : m.mutate pod requesterUsername = pure (.ok (stripSpoofedInstrumentationClaims pod)) := by
    simp only [Mutator.mutate, rejected, Bool.not_false, if_true]
  rw [shape]
  exact eq_comm

/-- A container of an instrumented pod whose PYTHONPATH is sent without a value. -/
def ReplacesMissingValue (m : Mutator) (pod : Pod) (requesterUsername : String) : Prop :=
  m.shouldMutate pod requesterUsername = true ∧ m.datasetDetection = true ∧
    ∃ container ∈ pod.spec.containers, ∃ env, container.env.find? (fun env => env.name = "PYTHONPATH") = some env ∧
      env.valueFrom.isNone = true ∧ env.value = ""

theorem emptyPythonPath_iff (container : Container) : emptyPythonPath container = true ↔
    ∃ env, container.env.find? (fun env => env.name = "PYTHONPATH") = some env ∧
      env.valueFrom.isNone = true ∧ env.value = "" := by
  unfold emptyPythonPath
  split
  · rename_i env first
    simp [first]
  · rename_i first
    simp [first]

/-- The admission patch applies and only adds exactly when it replaces no value
that was omitted from the pod's JSON. -/
theorem patch_only_adds_iff (qt : Quantity → String) (m : Mutator) (pod : Pod) (requesterUsername : String) :
    PatchOnlyAdds qt m pod requesterUsername ↔ ¬ ReplacesMissingValue m pod requesterUsername := by
  cases decision : m.shouldMutate pod requesterUsername with
  | false =>
    have fine : PatchOnlyAdds qt m pod requesterUsername := by
      intro patches returned
      obtain rfl := Except.ok.inj ((mutate_returns_rejected decision _).mp returned)
      refine ⟨stripped pod, strip_applies pod, ?_, ?_⟩
      · simpa [decision] using stripped_strips pod
      · simp [(stripped_strips pod).labels, decision]
    exact iff_of_true fine fun bad => Bool.false_ne_true (decision.symm.trans bad.1)
  | true =>
    constructor
    · rintro adds ⟨_, detection, container, member, env, missing⟩
      obtain ⟨identitySecretName, identity⟩ :=
        Program.exists_returns (fun cluster request => perform "" 0 cluster request) (m.ensurePodWorkloadIdentity pod)
          Cluster.empty
      obtain ⟨result, applied, _⟩ := adds _ ((mutate_returns_accepted decision _).mpr ⟨_, identity, rfl⟩)
      have failed : Fails qt (m.instrument pod identitySecretName) pod :=
        instrument_fails identitySecretName detection
          ⟨container, member, (emptyPythonPath_iff container).mpr ⟨env, missing⟩⟩
      rw [Fails, applied] at failed
      exact absurd failed (by simp)
    · intro sound patches returned
      obtain ⟨identitySecretName, _, returned⟩ := (mutate_returns_accepted decision _).mp returned
      obtain rfl := Except.ok.inj returned
      have set_ : m.datasetDetection = true → ∀ container ∈ pod.spec.containers, emptyPythonPath container = false := by
        intro detection container member
        by_contra unset
        rw [Bool.not_eq_false, emptyPythonPath_iff] at unset
        exact sound ⟨decision, detection, container, member, unset⟩
      have marks := instrumented_instruments m pod identitySecretName
      refine ⟨instrumented m pod identitySecretName, instrument_applies identitySecretName set_, ?_, ?_⟩
      · simpa [decision] using marks
      · simp [marks.labels, decision]

/-- A Job's pod with the entry `- name: PYTHONPATH`, as of an empty variable in a template. -/
def blankPythonPathPod : Pod where
  metadata := { name := "train-0", ns := "team", ownerReferences := [
    { apiVersion := "batch/v1", kind := "Job", name := "train", uid := "job-1" }] }
  content := { spec := { containers := [{ name := "main", env := [{ name := "PYTHONPATH" }] }] } }

def detectingMutator : Mutator where
  discoveryImage := "discovery"
  datasetDetection := true
  datasetSidecarImage := "sidecar"
  clientset := true
  trustedJobControllerIdentity := ""

theorem blank_pythonpath_rejects_pod : ¬ PatchOnlyAdds (fun _ => "1") detectingMutator blankPythonPathPod "user" := by
  intro adds
  have refused : (detectingMutator.ensurePodWorkloadIdentity blankPythonPathPod).Returns "" :=
    ⟨.error (.other "timeout"), rfl⟩
  have returned : (detectingMutator.mutate blankPythonPathPod "user").Returns
      (.ok (detectingMutator.instrument blankPythonPathPod "")) :=
    (mutate_returns_accepted (by decide) _).mpr ⟨"", refused, rfl⟩
  obtain ⟨result, applied, _⟩ := adds _ returned
  have failed : (applyPatch ((detectingMutator.instrument blankPythonPathPod "").map
      (PatchOperation.marshal fun _ => "1")) (encodePod (fun _ => "1") blankPythonPathPod)).isNone = true := by
    decide +kernel
  simp [applied] at failed

end Property

end AibomWebhook.PatchApplies
