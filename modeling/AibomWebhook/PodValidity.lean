import AibomWebhook.PatchApplies

/-! The API server's rules for the volumes and containers of a pod, read from its
JSON, and when the instrumented pod satisfies them. -/

namespace AibomWebhook.PodValidity
open Aibomdata JsonPatch Kubernetes Objects PatchApplies PodJson PodPatch Requests Webhook

section Rules

def arrayAt (name : String) (json : Json) : List Json := ((json.member name).map Json.items).getD []

def textAt (name : String) (json : Json) : String := ((json.member name).map Json.string).getD ""

def volumeNames (spec : Json) : List String := (arrayAt "volumes" spec).map (textAt "name")

def allContainers (spec : Json) : List Json := arrayAt "initContainers" spec ++ arrayAt "containers" spec

/-- Distinct volume names, distinct names over all containers, distinct mount paths
within each, and every mount names a declared volume. -/
structure ValidSpec (spec : Json) : Prop where
  volumes : (volumeNames spec).Nodup
  containers : ((allContainers spec).map (textAt "name")).Nodup
  mountPaths : ∀ container ∈ allContainers spec, ((arrayAt "volumeMounts" container).map (textAt "mountPath")).Nodup
  declared : ∀ container ∈ allContainers spec, ∀ mount ∈ arrayAt "volumeMounts" container,
    textAt "name" mount ∈ volumeNames spec

def ValidPod (pod : Json) : Prop := ∀ spec, pod.member "spec" = some spec → ValidSpec spec

/-- The rules for one container among the declared volumes. -/
structure ValidMounts (declared : List String) (container : Container) : Prop where
  mountPaths : (container.volumeMounts.map VolumeMount.mountPath).Nodup
  declared : ∀ mount ∈ container.volumeMounts, mount.name ∈ declared

structure ValidPodSpec (spec : PodSpec) : Prop where
  volumes : (spec.volumes.map Volume.name).Nodup
  containers : ((spec.initContainers ++ spec.containers).map Container.name).Nodup
  mounts : ∀ container ∈ spec.initContainers ++ spec.containers,
    ValidMounts (spec.volumes.map Volume.name) container

end Rules

section Encoded
variable (qt : Quantity → String)

theorem items_arrayUnlessEmpty {α : Type} (encode : α → Json) (items : List α) :
    ((arrayUnlessEmpty encode items).map Json.items).getD [] = items.map encode := by
  cases items with
  | nil => rfl
  | cons first rest => rfl

theorem volumeNames_encode (spec : PodSpec) : volumeNames (encodeSpec qt spec) = spec.volumes.map Volume.name := by
  have listed : arrayAt "volumes" (encodeSpec qt spec) = spec.volumes.map encodeVolume :=
    items_arrayUnlessEmpty encodeVolume spec.volumes
  rw [volumeNames, listed, List.map_map]
  rfl

theorem allContainers_encode (spec : PodSpec) :
    allContainers (encodeSpec qt spec) = (spec.initContainers ++ spec.containers).map (encodeContainer qt) := by
  have first : arrayAt "initContainers" (encodeSpec qt spec) = spec.initContainers.map (encodeContainer qt) :=
    items_arrayUnlessEmpty (encodeContainer qt) spec.initContainers
  rw [allContainers, first, List.map_append]
  rfl

theorem mounts_encode (container : Container) :
    arrayAt "volumeMounts" (encodeContainer qt container) = container.volumeMounts.map encodeVolumeMount :=
  items_arrayUnlessEmpty encodeVolumeMount container.volumeMounts

theorem mountPaths_encode (container : Container) :
    (arrayAt "volumeMounts" (encodeContainer qt container)).map (textAt "mountPath") =
      container.volumeMounts.map VolumeMount.mountPath := by
  rw [mounts_encode, List.map_map]
  rfl

/-- The rules read from the JSON are those of the pod it encodes. -/
theorem validPod_encode_iff (pod : Pod) : ValidPod (encodePod qt pod) ↔ ValidPodSpec pod.spec := by
  have names : (allContainers (encodeSpec qt pod.spec)).map (textAt "name") =
      (pod.spec.initContainers ++ pod.spec.containers).map Container.name := by
    rw [allContainers_encode, List.map_map]
    rfl
  have whole : ValidPod (encodePod qt pod) ↔ ValidSpec (encodeSpec qt pod.spec) :=
    ⟨fun valid => valid _ rfl, fun valid spec same => Option.some.inj same ▸ valid⟩
  rw [whole]
  constructor
  · intro valid
    refine { volumes := volumeNames_encode qt pod.spec ▸ valid.volumes, containers := names ▸ valid.containers,
             mounts := ?_ }
    intro container member
    have encoded : encodeContainer qt container ∈ allContainers (encodeSpec qt pod.spec) := by
      rw [allContainers_encode]
      exact List.mem_map_of_mem member
    refine { mountPaths := mountPaths_encode qt container ▸ valid.mountPaths _ encoded, declared := ?_ }
    intro mount mounted
    have named := valid.declared _ encoded (encodeVolumeMount mount)
      (mounts_encode qt container ▸ List.mem_map_of_mem mounted)
    rw [volumeNames_encode] at named
    exact named
  · intro valid
    refine { volumes := (volumeNames_encode qt pod.spec).symm ▸ valid.volumes, containers := names.symm ▸ valid.containers,
             mountPaths := ?_, declared := ?_ }
    · intro json member
      rw [allContainers_encode] at member
      obtain ⟨container, present, rfl⟩ := List.mem_map.mp member
      rw [mountPaths_encode]
      exact (valid.mounts container present).mountPaths
    · intro json member mountJson mounted
      rw [allContainers_encode] at member
      obtain ⟨container, present, rfl⟩ := List.mem_map.mp member
      rw [mounts_encode] at mounted
      obtain ⟨mount, mountedHere, rfl⟩ := List.mem_map.mp mounted
      rw [volumeNames_encode]
      exact (valid.mounts container present).declared mount mountedHere

end Encoded

section Clashes

def injectedVolumeNames (m : Mutator) (pod : Pod) : List String :=
  ["aibom-data", "aibom-scripts", "aibom-token", "aibom-discovery-signing-key"] ++
    (if (modelSourcePVC pod).isSome then ["aibom-model-source"] else []) ++
    if m.datasetDetection then ["aibom-dataset-signing-key"] else []

def injectedContainerNames (m : Mutator) : List String :=
  ["aibom-discovery"] ++ if m.datasetDetection then ["aibom-dataset-sidecar"] else []

def injectedMountPaths : List String := ["/aibom-hooks/sitecustomize.py", "/tmp/aibom"]

/-- The pod uses a volume name, a container name or a mount path that the webhook injects. -/
def UsesInjected (m : Mutator) (pod : Pod) : Prop :=
  (∃ volume ∈ pod.spec.volumes, volume.name ∈ injectedVolumeNames m pod) ∨
  (∃ container ∈ pod.spec.initContainers ++ pod.spec.containers, container.name ∈ injectedContainerNames m) ∨
  m.datasetDetection = true ∧ ∃ container ∈ pod.spec.containers, ∃ mount ∈ container.volumeMounts,
    mount.mountPath ∈ injectedMountPaths

theorem injectedVolumes_names (m : Mutator) (pod : Pod) (identitySecretName : String) :
    (injectedVolumes m pod identitySecretName).map Volume.name = injectedVolumeNames m pod := by
  rcases source : modelSourcePVC pod with _ | ⟨claim, subPath⟩ <;> cases detection : m.datasetDetection <;>
    simp [injectedVolumes, injectedVolumeNames, source, detection, buildAIBOMVolume, buildScriptsVolume,
      buildTokenVolume, buildDiscoverySigningKeyVolume, buildModelSourceVolume, buildDatasetSigningKeyVolume,
      modelSourceVolumeName]

theorem discoveryContainer_name (m : Mutator) (pod : Pod) : (discoveryContainer m pod).name = "aibom-discovery" := by
  rcases source : modelSourcePVC pod with _ | ⟨claim, subPath⟩ <;>
    simp [discoveryContainer, source, Mutator.buildDiscoveryInitContainer]

theorem injectedInitContainers_names (m : Mutator) (pod : Pod) :
    (injectedInitContainers m pod).map Container.name = injectedContainerNames m := by
  cases detection : m.datasetDetection <;>
    simp [injectedInitContainers, injectedContainerNames, detection, discoveryContainer_name,
      Mutator.buildDatasetSidecarContainer]

theorem injectedVolumeNames_nodup (m : Mutator) (pod : Pod) : (injectedVolumeNames m pod).Nodup := by
  cases source : (modelSourcePVC pod).isSome <;> cases detection : m.datasetDetection <;>
    simp [injectedVolumeNames, source, detection]

theorem injectedContainerNames_nodup (m : Mutator) : (injectedContainerNames m).Nodup := by
  cases detection : m.datasetDetection <;> simp [injectedContainerNames, detection]

/-- The containers that the webhook adds mount distinct paths of volumes that it adds too. -/
theorem injectedInitContainers_valid (m : Mutator) (pod : Pod) :
    ∀ container ∈ injectedInitContainers m pod, ValidMounts (injectedVolumeNames m pod) container := by
  intro container member
  rcases List.mem_append.mp member with discovery | sidecar
  · obtain rfl := List.mem_singleton.mp discovery
    rcases source : modelSourcePVC pod with _ | ⟨claim, subPath⟩
    · constructor <;>
        simp [discoveryContainer, source, Mutator.buildDiscoveryInitContainer, aibomTokenVolumeMount,
          discoverySigningKeyVolumeMount, injectedVolumeNames]
    · constructor <;>
        simp [discoveryContainer, source, Mutator.buildDiscoveryInitContainer, aibomTokenVolumeMount,
          discoverySigningKeyVolumeMount, modelSourceVolumeMount, modelSourceVolumeName, modelSourceMountPath,
          injectedVolumeNames]
  · split at sidecar
    · rename_i detection
      obtain rfl := List.mem_singleton.mp sidecar
      constructor <;>
        simp [Mutator.buildDatasetSidecarContainer, aibomTokenVolumeMount, datasetSigningKeyVolumeMount,
          injectedVolumeNames, detection]
    · simp at sidecar

theorem nodup_append_iff {α : Type} {first second : List α} (left : first.Nodup) (right : second.Nodup) :
    (first ++ second).Nodup ↔ ∀ item ∈ first, item ∉ second := by
  rw [List.nodup_append]
  constructor
  · intro whole item member present
    exact whole.2.2 item member item present rfl
  · intro apart
    exact ⟨left, right, fun item member other present same => apart item member (same ▸ present)⟩

theorem instrumented_volumeNames (m : Mutator) (pod : Pod) (identitySecretName : String) :
    (instrumented m pod identitySecretName).spec.volumes.map Volume.name =
      pod.spec.volumes.map Volume.name ++ injectedVolumeNames m pod := by
  have split : (instrumented m pod identitySecretName).spec.volumes =
      pod.spec.volumes ++ injectedVolumes m pod identitySecretName := rfl
  rw [split, List.map_append, injectedVolumes_names]

/-- The application containers of the instrumented pod. -/
def hookedContainers (m : Mutator) (pod : Pod) : List Container :=
  if m.datasetDetection then pod.spec.containers.map (instrumentContainer pod) else pod.spec.containers

theorem instrumented_containers (m : Mutator) (pod : Pod) (identitySecretName : String) :
    (instrumented m pod identitySecretName).spec.initContainers ++
        (instrumented m pod identitySecretName).spec.containers =
      pod.spec.initContainers ++ injectedInitContainers m pod ++ hookedContainers m pod := rfl

theorem hookedContainers_names (m : Mutator) (pod : Pod) :
    (hookedContainers m pod).map Container.name = pod.spec.containers.map Container.name := by
  unfold hookedContainers
  split
  · rw [List.map_map]
    rfl
  · rfl

/-- The injected containers may be thought of as standing last. -/
theorem instrumented_names_perm (m : Mutator) (pod : Pod) (identitySecretName : String) :
    ((instrumented m pod identitySecretName).spec.initContainers ++
        (instrumented m pod identitySecretName).spec.containers).map Container.name |>.Perm
      ((pod.spec.initContainers ++ pod.spec.containers).map Container.name ++ injectedContainerNames m) := by
  rw [instrumented_containers, List.map_append, List.map_append, List.map_append, hookedContainers_names,
    injectedInitContainers_names, List.append_assoc, List.append_assoc]
  exact List.Perm.append_left _ List.perm_append_comm

theorem detectorMounts_paths : detectorMounts.map VolumeMount.mountPath = injectedMountPaths := rfl

/-- A mount at an injected path is not one at the token path, so it is kept. -/
theorem withoutTokenMount_mem {mounts : List VolumeMount} {mount : VolumeMount} (member : mount ∈ mounts)
    (injected : mount.mountPath ∈ injectedMountPaths) : mount ∈ withoutTokenMount mounts := by
  have other : mount.mountPath ≠ serviceAccountTokenPath := by
    intro token
    rw [token] at injected
    exact absurd injected (by decide)
  have filtered : mount ∈ mounts.filter (fun mount => mount.mountPath ≠ serviceAccountTokenPath) :=
    List.mem_filter.mpr ⟨member, by simpa using other⟩
  rw [← (withoutTokenMount_keeps mounts).2] at filtered
  exact (List.mem_filter.mp filtered).1

theorem instrumentContainer_valid_iff {declared : List String} {container : Container} (pod : Pod)
    (valid : ValidMounts declared container) (scripts : "aibom-scripts" ∈ declared) (data : "aibom-data" ∈ declared) :
    ValidMounts declared (instrumentContainer pod container) ↔
      ∀ mount ∈ container.volumeMounts, mount.mountPath ∉ injectedMountPaths := by
  have kept := (withoutTokenMount_keeps container.volumeMounts).1
  have split : (instrumentContainer pod container).volumeMounts =
      withoutTokenMount container.volumeMounts ++ detectorMounts := rfl
  have distinct : ((withoutTokenMount container.volumeMounts).map VolumeMount.mountPath).Nodup :=
    valid.mountPaths.sublist (kept.map VolumeMount.mountPath)
  have paths : ((instrumentContainer pod container).volumeMounts.map VolumeMount.mountPath).Nodup ↔
      ∀ path ∈ (withoutTokenMount container.volumeMounts).map VolumeMount.mountPath, path ∉ injectedMountPaths := by
    rw [split, List.map_append, detectorMounts_paths]
    exact nodup_append_iff distinct (by decide)
  constructor
  · intro hooked mount member injected
    exact paths.mp hooked.mountPaths _ (List.mem_map_of_mem (withoutTokenMount_mem member injected)) injected
  · intro apart
    constructor
    · rw [paths]
      intro path member
      obtain ⟨mount, present, rfl⟩ := List.mem_map.mp member
      exact apart mount (kept.subset present)
    · intro mount member
      rw [split, List.mem_append] at member
      rcases member with old | new
      · exact valid.declared mount (kept.subset old)
      · rcases List.mem_cons.mp new with rfl | rest
        · exact scripts
        · obtain rfl := List.mem_singleton.mp rest
          exact data

theorem ValidMounts.mono {declared more : List String} {container : Container} (valid : ValidMounts declared container)
    (subset : declared ⊆ more) : ValidMounts more container :=
  { mountPaths := valid.mountPaths, declared := fun mount member => subset (valid.declared mount member) }

/-- The instrumented pod keeps the rules exactly when it used nothing that is injected. -/
theorem instrumented_valid_iff (m : Mutator) {pod : Pod} (identitySecretName : String)
    (valid : ValidPodSpec pod.spec) :
    ValidPodSpec (instrumented m pod identitySecretName).spec ↔ ¬ UsesInjected m pod := by
  have volumeNames := instrumented_volumeNames m pod identitySecretName
  have volumes : ((instrumented m pod identitySecretName).spec.volumes.map Volume.name).Nodup ↔
      ∀ name ∈ pod.spec.volumes.map Volume.name, name ∉ injectedVolumeNames m pod := by
    rw [volumeNames]
    exact nodup_append_iff valid.volumes (injectedVolumeNames_nodup m pod)
  have containers : (((instrumented m pod identitySecretName).spec.initContainers ++
        (instrumented m pod identitySecretName).spec.containers).map Container.name).Nodup ↔
      ∀ name ∈ (pod.spec.initContainers ++ pod.spec.containers).map Container.name,
        name ∉ injectedContainerNames m := by
    rw [(instrumented_names_perm m pod identitySecretName).nodup_iff]
    exact nodup_append_iff valid.containers (injectedContainerNames_nodup m)
  have more : pod.spec.volumes.map Volume.name ⊆
      pod.spec.volumes.map Volume.name ++ injectedVolumeNames m pod := List.subset_append_left _ _
  have injectedIn : injectedVolumeNames m pod ⊆
      pod.spec.volumes.map Volume.name ++ injectedVolumeNames m pod := List.subset_append_right _ _
  have scripts : "aibom-scripts" ∈ pod.spec.volumes.map Volume.name ++ injectedVolumeNames m pod :=
    injectedIn (by simp [injectedVolumeNames])
  have data : "aibom-data" ∈ pod.spec.volumes.map Volume.name ++ injectedVolumeNames m pod :=
    injectedIn (by simp [injectedVolumeNames])
  have widened : ∀ container ∈ pod.spec.initContainers ++ pod.spec.containers,
      ValidMounts (pod.spec.volumes.map Volume.name ++ injectedVolumeNames m pod) container :=
    fun container member => (valid.mounts container member).mono more
  constructor
  · rintro result (⟨volume, member, clash⟩ | ⟨container, member, clash⟩ | ⟨detection, container, member, mount, mounted, clash⟩)
    · exact volumes.mp result.volumes _ (List.mem_map_of_mem member) clash
    · exact containers.mp result.containers _ (List.mem_map_of_mem member) clash
    · have hooked : instrumentContainer pod container ∈ (instrumented m pod identitySecretName).spec.initContainers ++
          (instrumented m pod identitySecretName).spec.containers := by
        rw [instrumented_containers, hookedContainers, if_pos detection]
        exact List.mem_append_right _ (List.mem_map_of_mem member)
      have mounts := result.mounts _ hooked
      rw [volumeNames] at mounts
      exact (instrumentContainer_valid_iff pod (widened container (List.mem_append_right _ member)) scripts data).mp
        mounts mount mounted clash
  · intro apart
    refine { volumes := volumes.mpr ?_, containers := containers.mpr ?_, mounts := ?_ }
    · intro name member clash
      obtain ⟨volume, present, rfl⟩ := List.mem_map.mp member
      exact apart (Or.inl ⟨volume, present, clash⟩)
    · intro name member clash
      obtain ⟨container, present, rfl⟩ := List.mem_map.mp member
      exact apart (Or.inr (Or.inl ⟨container, present, clash⟩))
    · intro container member
      rw [volumeNames]
      rw [instrumented_containers, List.append_assoc] at member
      rcases List.mem_append.mp member with init | member
      · exact widened container (List.mem_append_left _ init)
      rcases List.mem_append.mp member with injected | hooked
      · exact (injectedInitContainers_valid m pod container injected).mono injectedIn
      · unfold hookedContainers at hooked
        split at hooked
        · rename_i detection
          obtain ⟨original, present, rfl⟩ := List.mem_map.mp hooked
          refine (instrumentContainer_valid_iff pod (widened original (List.mem_append_right _ present)) scripts
            data).mpr ?_
          intro mount mounted clash
          exact apart (Or.inr (Or.inr ⟨detection, original, present, mount, mounted, clash⟩))
        · exact widened container (List.mem_append_right _ hooked)

/-- The patch applies exactly when it replaces no value that was omitted from the pod's JSON. -/
theorem patch_applies_iff (qt : Quantity → String) {m : Mutator} {pod : Pod} {requesterUsername : String}
    {patches : List PatchOperation} (returned : (m.mutate pod requesterUsername).Returns (.ok patches)) :
    (∃ result, applyPatch (patches.map (PatchOperation.marshal qt)) (encodePod qt pod) = some result) ↔
      ¬ ReplacesMissingValue m pod requesterUsername := by
  cases decision : m.shouldMutate pod requesterUsername with
  | false =>
    obtain rfl := Except.ok.inj ((mutate_returns_rejected decision _).mp returned)
    exact iff_of_true ⟨_, strip_applies pod⟩ fun missing => Bool.false_ne_true (decision.symm.trans missing.1)
  | true =>
    obtain ⟨identitySecretName, _, returned⟩ := (mutate_returns_accepted decision _).mp returned
    obtain rfl := Except.ok.inj returned
    constructor
    · rintro ⟨result, applied⟩ ⟨_, detection, container, member, unset⟩
      have failed : Fails qt (m.instrument pod identitySecretName) pod :=
        instrument_fails identitySecretName detection ⟨container, member, (emptyPythonPath_iff container).mpr unset⟩
      rw [Fails, applied] at failed
      cases failed
    · intro present
      have set_ : m.datasetDetection = true → ∀ container ∈ pod.spec.containers, emptyPythonPath container = false := by
        intro detection container member
        by_contra unset
        rw [Bool.not_eq_false, emptyPythonPath_iff] at unset
        exact present ⟨decision, detection, container, member, unset⟩
      exact ⟨_, instrument_applies identitySecretName set_⟩

/-- For a valid pod whose patch applies, the result is valid exactly when the pod is
not instrumented or uses nothing that the webhook injects. -/
theorem patched_pod_valid_iff (qt : Quantity → String) (m : Mutator) (pod : Pod) (requesterUsername : String)
    (valid : ValidPod (encodePod qt pod)) {patches : List PatchOperation}
    (returned : (m.mutate pod requesterUsername).Returns (.ok patches)) {result : Json}
    (applied : applyPatch (patches.map (PatchOperation.marshal qt)) (encodePod qt pod) = some result) :
    ValidPod result ↔ (m.shouldMutate pod requesterUsername = true → ¬ UsesInjected m pod) := by
  have present := (patch_applies_iff qt returned).mp ⟨result, applied⟩
  rw [validPod_encode_iff] at valid
  cases decision : m.shouldMutate pod requesterUsername with
  | false =>
    obtain rfl := Except.ok.inj ((mutate_returns_rejected decision _).mp returned)
    have same := Option.some.inj (applied.symm.trans (strip_applies pod))
    rw [same, validPod_encode_iff]
    exact iff_of_true valid (by simp)
  | true =>
    obtain ⟨identitySecretName, _, returned⟩ := (mutate_returns_accepted decision _).mp returned
    obtain rfl := Except.ok.inj returned
    have set_ : m.datasetDetection = true → ∀ container ∈ pod.spec.containers, emptyPythonPath container = false := by
      intro detection container member
      by_contra unset
      rw [Bool.not_eq_false, emptyPythonPath_iff] at unset
      exact present ⟨decision, detection, container, member, unset⟩
    have same := Option.some.inj (applied.symm.trans (instrument_applies identitySecretName set_))
    rw [same, validPod_encode_iff, instrumented_valid_iff m identitySecretName valid]
    simp

/-- Whatever the API server answers, the patch applies and the pod that it makes satisfies the rules. -/
def StaysValid (qt : Quantity → String) (m : Mutator) (pod : Pod) (requesterUsername : String) : Prop :=
  ∀ patches, (m.mutate pod requesterUsername).Returns (.ok patches) →
    ∃ result, applyPatch (patches.map (PatchOperation.marshal qt)) (encodePod qt pod) = some result ∧ ValidPod result

/-- A valid pod stays valid exactly when it is not instrumented, or uses nothing that is
injected and has no PYTHONPATH without a value. -/
theorem stays_valid_iff (qt : Quantity → String) (m : Mutator) (pod : Pod) (requesterUsername : String)
    (valid : ValidPod (encodePod qt pod)) :
    StaysValid qt m pod requesterUsername ↔
      (m.shouldMutate pod requesterUsername = true →
        ¬ UsesInjected m pod ∧ ¬ ReplacesMissingValue m pod requesterUsername) := by
  constructor
  · intro stays decision
    obtain ⟨identitySecretName, identity⟩ :=
      Program.exists_returns (fun cluster request => perform "" 0 cluster request) (m.ensurePodWorkloadIdentity pod)
        Cluster.empty
    have returned := (mutate_returns_accepted decision _).mpr ⟨identitySecretName, identity, rfl⟩
    obtain ⟨result, applied, sound⟩ := stays _ returned
    exact ⟨(patched_pod_valid_iff qt m pod requesterUsername valid returned applied).mp sound decision,
      (patch_applies_iff qt returned).mp ⟨result, applied⟩⟩
  · intro condition patches returned
    obtain ⟨result, applied⟩ := (patch_applies_iff qt returned).mpr fun missing => (condition missing.1).2 missing
    exact ⟨result, applied, (patched_pod_valid_iff qt m pod requesterUsername valid returned applied).mpr
      fun decision => (condition decision).1⟩

/-- A Job's pod with one volume of the given name. -/
def podWithVolume (volume : String) : Pod where
  metadata := { name := "train-0", ns := "team", ownerReferences := [
    { apiVersion := "batch/v1", kind := "Job", name := "train", uid := "job-1" }] }
  content := { spec := {
    volumes := [{ name := volume, source := .emptyDir }]
    containers := [{ name := "main", volumeMounts := [{ name := volume, mountPath := "/data" }] }] } }

theorem podWithVolume_valid (volume : String) : ValidPod (encodePod (fun _ => "1") (podWithVolume volume)) := by
  rw [validPod_encode_iff]
  refine { volumes := ?_, containers := ?_, mounts := ?_ }
  · simp [podWithVolume, Pod.spec]
  · simp [podWithVolume, Pod.spec]
  · intro container member
    obtain rfl : container = { name := "main", volumeMounts := [{ name := volume, mountPath := "/data" }] } := by
      simpa [podWithVolume, Pod.spec] using member
    constructor <;> simp [podWithVolume, Pod.spec]

theorem stays_valid_iff_on_cache_volume :
    ValidPod (encodePod (fun _ => "1") (podWithVolume "cache")) ∧
      (StaysValid (fun _ => "1") detectingMutator (podWithVolume "cache") "user" ↔
        (detectingMutator.shouldMutate (podWithVolume "cache") "user" = true →
          ¬ UsesInjected detectingMutator (podWithVolume "cache") ∧
            ¬ ReplacesMissingValue detectingMutator (podWithVolume "cache") "user")) :=
  ⟨podWithVolume_valid "cache", stays_valid_iff (fun _ => "1") detectingMutator (podWithVolume "cache") "user"
    (podWithVolume_valid "cache")⟩

theorem aibom_data_volume_invalidates_pod : ValidPod (encodePod (fun _ => "1") (podWithVolume "aibom-data")) ∧
    ¬ StaysValid (fun _ => "1") detectingMutator (podWithVolume "aibom-data") "user" := by
  refine ⟨podWithVolume_valid "aibom-data", fun stays => ?_⟩
  have decision : detectingMutator.shouldMutate (podWithVolume "aibom-data") "user" = true := by decide
  have refused : (detectingMutator.ensurePodWorkloadIdentity (podWithVolume "aibom-data")).Returns "" :=
    ⟨.error (.other "timeout"), rfl⟩
  have returned : (detectingMutator.mutate (podWithVolume "aibom-data") "user").Returns
      (.ok (detectingMutator.instrument (podWithVolume "aibom-data") "")) :=
    (mutate_returns_accepted decision _).mpr ⟨"", refused, rfl⟩
  have uses : UsesInjected detectingMutator (podWithVolume "aibom-data") :=
    Or.inl ⟨_, List.mem_cons_self, List.mem_cons_self⟩
  obtain ⟨result, applied, sound⟩ := stays _ returned
  exact (patched_pod_valid_iff (fun _ => "1") detectingMutator (podWithVolume "aibom-data") "user"
    (podWithVolume_valid "aibom-data") returned applied).mp sound decision uses

end Clashes

end AibomWebhook.PodValidity
