import AibomWebhook.Events
import AibomWebhook.PatchApplies

/-! Whether the ConfigMap that the injected containers of a pod write to is the one
that a postprocess of the pod reads. The writer's name is fixed at admission from
the pod's owners, or at runtime from its own name; the reader's is the name of the
Job, or of the Pod, that the watcher postprocesses. -/

namespace AibomWebhook.Handoff
open Aibomdata Events Identity Kubernetes Objects PatchApplies Postprocess PostprocessData Requests Webhook

/-! The writer. -/

def patchContainers (patch : PatchOperation) : List Container :=
  match patch.value with
  | some (.containers values) => values
  | some (.container value) => [value]
  | _ => []

/-- The containers that a patch adds to a pod. -/
def addedContainers (patches : List PatchOperation) : List Container := patches.flatMap patchContainers

/-- The fields of a pod that the injected variables refer to. -/
def fieldValue (pod : Pod) (fieldPath : String) : String :=
  if fieldPath = "metadata.name" then pod.metadata.name
  else if fieldPath = "metadata.namespace" then pod.metadata.ns
  else if fieldPath = "metadata.uid" then pod.metadata.uid
  else ""

/-- A variable as a container's process reads it; an unset one reads as empty. -/
def environment (pod : Pod) (container : Container) (name : String) : String :=
  match container.env.find? (fun env => env.name = name) with
  | none => ""
  | some env =>
    match env.valueFrom with
    | none => env.value
    | some (.fieldRef fieldPath) => fieldValue pod fieldPath
    | some (.other _) => ""

/-- The ConfigMap that the scripts in a container of a running pod write to. -/
def writesTo (pod : Pod) (container : Container) : String :=
  resolveDataConfigMapName (environment pod container "AIBOM_DATA_CONFIGMAP") (environment pod container "POD_NAME")

@[simp] theorem addedContainers_append (first second : List PatchOperation) :
    addedContainers (first ++ second) = addedContainers first ++ addedContainers second := List.flatMap_append

theorem addedContainers_flatMap {α : Type} {list : List α} {patches : α → List PatchOperation}
    (nothing : ∀ item ∈ list, addedContainers (patches item) = []) : addedContainers (list.flatMap patches) = [] := by
  rw [addedContainers, List.flatMap_assoc, List.flatMap_eq_nil_iff]
  exact nothing

theorem addedContainers_appendVolume (patches : List PatchOperation) (pod : Pod) (vol : Volume) :
    addedContainers (appendVolume patches pod vol) = addedContainers patches := by
  simp only [appendVolume]
  split <;> simp [addedContainers, patchContainers]

theorem addedContainers_appendInitContainer (patches : List PatchOperation) (pod : Pod) (c : Container) :
    addedContainers (appendInitContainer patches pod c) = addedContainers patches ++ [c] := by
  simp only [appendInitContainer]
  split <;> simp [addedContainers, patchContainers]

theorem addedContainers_detector (pod : Pod) (containerIdx : Nat) (container : Container) :
    addedContainers (buildDatasetDetectorPatches pod containerIdx container) = [] := by
  have noContainers : ∀ patch ∈ buildDatasetDetectorPatches pod containerIdx container,
      patchContainers patch = [] := by
    intro patch member
    simp only [buildDatasetDetectorPatches, List.mem_append] at member
    rcases member with (env | mount) | token
    · split at env
      · obtain rfl := List.mem_singleton.mp env
        rfl
      · rcases List.mem_append.mp env with replace | append
        · split at replace
          · obtain rfl := List.mem_singleton.mp replace
            rfl
          · simp at replace
        · obtain ⟨env, _, rfl⟩ := List.mem_map.mp append
          rfl
    · split at mount
      · obtain rfl := List.mem_singleton.mp mount
        rfl
      · obtain ⟨mount, _, rfl⟩ := List.mem_map.mp mount
        rfl
    · split at token
      · obtain rfl := List.mem_singleton.mp token
        rfl
      · simp at token
  simpa [addedContainers, List.flatMap_eq_nil_iff] using noContainers

theorem addedContainers_strip (pod : Pod) : addedContainers (stripSpoofedInstrumentationClaims pod) = [] := by
  rw [stripSpoofedInstrumentationClaims, addedContainers_append]
  split <;> split <;> simp [addedContainers, patchContainers]

/-- The containers that the patch adds are the ones that the instrumented pod gains. -/
theorem addedContainers_instrument (m : Mutator) (pod : Pod) (identitySecretName : String) :
    addedContainers (m.instrument pod identitySecretName) = injectedInitContainers m pod := by
  have labels : ∀ (map : GoMap) (path key pathKey value : String),
      addedContainers [addMapEntry map path key pathKey value] = [] := by
    intro map path key pathKey value
    cases map <;> rfl
  have nothing : addedContainers [] = [] := rfl
  cases detection : m.datasetDetection with
  | false =>
    simp only [Mutator.instrument, detection, Bool.false_eq_true, if_false, injectedInitContainers]
    rw [← List.singleton_append, addedContainers_append, addedContainers_append, labels, labels,
      addedContainers_appendInitContainer]
    split <;> simp only [addedContainers_appendVolume, nothing, List.append_nil, List.nil_append]
  | true =>
    simp only [Mutator.instrument, detection, if_true, injectedInitContainers]
    rw [← List.singleton_append, addedContainers_append, addedContainers_append, labels, labels,
      addedContainers_appendInitContainer, addedContainers_appendVolume, addedContainers_append,
      addedContainers_flatMap, addedContainers_appendInitContainer]
    · split <;> simp only [addedContainers_appendVolume, nothing, List.append_nil, List.nil_append]
    · intro indexed _
      exact addedContainers_detector pod indexed.2 indexed.1

/-- The environment of an injected container, around the variable that is only
there for a matched owner. -/
theorem injected_env (m : Mutator) (pod : Pod) {container : Container} (member : container ∈ injectedInitContainers m pod) :
    ∃ fields rest, container.env =
        downwardAPIEnv "POD_NAME" "metadata.name" :: fields ++ (dataConfigMapEnvVar pod).toList ++ rest ∧
      ∀ env ∈ fields ++ rest, env.name ≠ "AIBOM_DATA_CONFIGMAP" := by
  rcases List.mem_append.mp member with discovery | sidecar
  · obtain rfl := List.mem_singleton.mp discovery
    let fields := [downwardAPIEnv "POD_UID" "metadata.uid", downwardAPIEnv "POD_NAMESPACE" "metadata.namespace",
      downwardAPIEnv "POD_IP" "status.podIP", downwardAPIEnv "NODE_NAME" "spec.nodeName"]
    let service := if GoMap.get labelKServeInferenceService pod.metadata.labels ≠ "" then
      [downwardAPIEnv "INFERENCESERVICE_NAME" ("metadata.labels['" ++ labelKServeInferenceService ++ "']")] else []
    let model : List EnvVar :=
      if (modelSourcePVC pod).isSome then [{ name := "AIBOM_MODEL_DIR", value := modelSourceMountPath }] else []
    have whole : (discoveryContainer m pod).env =
        downwardAPIEnv "POD_NAME" "metadata.name" :: fields ++ (dataConfigMapEnvVar pod).toList ++ (service ++ model) := by
      unfold discoveryContainer
      split <;> simp [Mutator.buildDiscoveryInitContainer, fields, service, model, *]
    refine ⟨fields, service ++ model, whole, ?_⟩
    have fixed : ∀ env ∈ fields, env.name ≠ "AIBOM_DATA_CONFIGMAP" := by simp [fields, downwardAPIEnv]
    have serviceName : ∀ env ∈ service, env.name ≠ "AIBOM_DATA_CONFIGMAP" := by
      simp only [service]
      split <;> simp [downwardAPIEnv]
    have modelName : ∀ env ∈ model, env.name ≠ "AIBOM_DATA_CONFIGMAP" := by
      simp only [model]
      split <;> simp
    intro env member
    rw [List.mem_append, List.mem_append] at member
    rcases member with inFields | inService | inModel
    · exact fixed env inFields
    · exact serviceName env inService
    · exact modelName env inModel
  · split at sidecar
    · obtain rfl := List.mem_singleton.mp sidecar
      exact ⟨_, [], (List.append_nil _).symm, by simp [downwardAPIEnv]⟩
    · simp at sidecar

/-- The name that an injected container resolves: baked in from the first matched
owner, or else derived from the name that the pod has when it runs. -/
theorem writesTo_injected (m : Mutator) (admitted running : Pod) (named : running.metadata.name ≠ "")
    {container : Container} (member : container ∈ injectedInitContainers m admitted) :
    writesTo running container =
      configMapName (if hasMatchingOwner admitted then triggerName admitted else running.metadata.name) := by
  obtain ⟨fields, rest, env, others⟩ := injected_env m admitted member
  have podName : environment running container "POD_NAME" = running.metadata.name := by
    rw [environment, env]
    rfl
  have absent : ∀ part : List EnvVar, part ⊆ fields ++ rest →
      part.find? (fun env => env.name = "AIBOM_DATA_CONFIGMAP") = none := by
    intro part within
    rw [List.find?_eq_none]
    intro env member same
    exact others env (within member) (of_decide_eq_true same)
  have dataConfigMap : environment running container "AIBOM_DATA_CONFIGMAP" =
      if hasMatchingOwner admitted then configMapName (triggerName admitted) else "" := by
    rw [environment, env, List.cons_append, List.cons_append, List.find?_cons_of_neg (by decide), List.find?_append,
      List.find?_append, absent fields (List.subset_append_left _ _), absent rest (List.subset_append_right _ _),
      dataConfigMapEnvVar]
    cases hasMatchingOwner admitted <;> simp
  rw [writesTo, podName, dataConfigMap]
  cases hasMatchingOwner admitted with
  | true => simp [resolveDataConfigMapName, configMapName_ne_empty]
  | false => simp [resolveDataConfigMapName, named, pythonPostprocessJobName_eq]

/-! The reader. -/

inductive Trigger where
  | job (job : Job)
  | pod (pod : Pod)

def Trigger.name : Trigger → String
  | .job trigger => trigger.metadata.name
  | .pod trigger => trigger.metadata.name

/-- The stored Jobs and Pods whose postprocess is given this pod. -/
def Covers (cluster : Cluster) (found : Pod) : Trigger → Prop
  | .job job => cluster.find .job job.key = some job ∧ isPostprocessJob job = false ∧
      found ∈ ((gatherPods job).run (perform "" 0) cluster).1
  | .pod pod => cluster.find .pod pod.key = some pod ∧ ownedByJob pod = false ∧
      GoMap.get labelInstrumented pod.metadata.labels = "true" ∧ found = pod

/-- The labels by which a Job is given a pod: its own name's, or its JobSet's. -/
def Labelled (job : Job) (found : Pod) : Prop :=
  GoMap.lookup "batch.kubernetes.io/job-name" found.metadata.labels = some job.metadata.name ∨
    GoMap.get jobsetLabel job.metadata.labels ≠ "" ∧
      GoMap.lookup jobsetLabel found.metadata.labels = some (GoMap.get jobsetLabel job.metadata.labels)

/-- That a sibling's name is not taken yet leaves out only pods that are listed already. -/
theorem mem_append_unlisted {own siblings : List Pod} {found : Pod}
    (same : ∀ pod ∈ own, found ∈ siblings → pod.metadata.name = found.metadata.name → pod = found) :
    found ∈ own ++ siblings.filter (fun sibling => own.all fun pod => pod.metadata.name ≠ sibling.metadata.name) ↔
      found ∈ own ∨ found ∈ siblings := by
  rw [List.mem_append, List.mem_filter]
  constructor
  · exact Or.imp_right And.left
  · rintro (first | second)
    · exact Or.inl first
    · by_cases taken : found ∈ own
      · exact Or.inl taken
      · refine Or.inr ⟨second, ?_⟩
        simp only [List.all_eq_true, decide_eq_true_eq]
        intro pod first name
        exact taken (same pod first second name ▸ first)

/-- A Job is given the stored instrumented pods of its namespace that are labelled for it. -/
theorem mem_gatherPods_iff (cluster : Cluster) (job : Job) (found : Pod) :
    found ∈ ((gatherPods job).run (perform "" 0) cluster).1 ↔
      found ∈ (cluster.store .pod).items ∧ found.metadata.ns = job.metadata.ns ∧
      GoMap.lookup labelInstrumented found.metadata.labels = some "true" ∧ Labelled job found := by
  let listed (selector : LabelSelector) := (cluster.store .pod).items.filter fun pod =>
    pod.metadata.ns = job.metadata.ns && selects selector pod.metadata.labels
  have mem_listed (key value : String) (pod : Pod) : pod ∈ listed [(key, value), (labelInstrumented, "true")] ↔
      pod ∈ (cluster.store .pod).items ∧ pod.metadata.ns = job.metadata.ns ∧
      GoMap.lookup labelInstrumented pod.metadata.labels = some "true" ∧
      GoMap.lookup key pod.metadata.labels = some value := by
    simp [listed, selects, and_comm]
  let own := listed [("batch.kubernetes.io/job-name", job.metadata.name), (labelInstrumented, "true")]
  by_cases single : GoMap.get jobsetLabel job.metadata.labels = ""
  · have run : ((gatherPods job).run (perform "" 0) cluster).1 = own := by
      simp [gatherPods, getInstrumentedPods, single, perform, Except.toOption, own, listed]
    rw [run, mem_listed]
    simp [Labelled, single]
  · let siblings := listed [(jobsetLabel, GoMap.get jobsetLabel job.metadata.labels), (labelInstrumented, "true")]
    have run : ((gatherPods job).run (perform "" 0) cluster).1 =
        own ++ siblings.filter fun sibling => own.all fun pod => pod.metadata.name ≠ sibling.metadata.name := by
      simp [gatherPods, getInstrumentedPods, single, perform, Except.toOption, own, siblings, listed]
    have same : ∀ pod ∈ own, found ∈ siblings → pod.metadata.name = found.metadata.name → pod = found := by
      intro pod first second name
      obtain ⟨stored, ns, _⟩ := (mem_listed _ _ pod).mp first
      obtain ⟨foundStored, foundNs, _⟩ := (mem_listed _ _ found).mp second
      have key : pod.key = found.key := Prod.ext (ns.trans foundNs.symm) name
      have one := Keyed.find?_of_mem stored
      rw [key, Keyed.find?_of_mem foundStored] at one
      exact (Option.some.inj one).symm
    rw [run, mem_append_unlisted same, mem_listed, mem_listed]
    simp only [Labelled, ne_eq, single, not_false_eq_true, true_and, ← and_or_left]

/-- `Covers`, read off the labels. -/
def Covered (cluster : Cluster) (found : Pod) : Trigger → Prop
  | .job job => cluster.find .job job.key = some job ∧ GoMap.get labelPostprocessFor job.metadata.labels = "" ∧
      found ∈ (cluster.store .pod).items ∧ found.metadata.ns = job.metadata.ns ∧
      GoMap.lookup labelInstrumented found.metadata.labels = some "true" ∧ Labelled job found
  | .pod pod => cluster.find .pod pod.key = some pod ∧
      GoMap.get "batch.kubernetes.io/job-name" pod.metadata.labels = "" ∧
      GoMap.get labelInstrumented pod.metadata.labels = "true" ∧ found = pod

theorem covers_iff (cluster : Cluster) (found : Pod) (trigger : Trigger) :
    Covers cluster found trigger ↔ Covered cluster found trigger := by
  cases trigger with
  | job job => simp [Covers, Covered, mem_gatherPods_iff, isPostprocessJob]
  | pod pod => simp [Covers, Covered, ownedByJob]

/-! The property. -/

def matchedOwner (pod : Pod) : Option OwnerReference :=
  pod.metadata.ownerReferences.find? fun ref =>
    ref.kind = "Job" || ref.kind = "JobSet" || ref.kind = "PyTorchJob" || ref.kind = "RayJob"

theorem matchedOwnerKinds_contains (kind : String) : matchedOwnerKinds.contains kind =
    (kind = "Job" || kind = "JobSet" || kind = "PyTorchJob" || kind = "RayJob") := by
  simp [matchedOwnerKinds, Bool.decide_or, Bool.or_assoc]

theorem hasMatchingOwner_eq (pod : Pod) : hasMatchingOwner pod = (matchedOwner pod).isSome := by
  simp only [hasMatchingOwner, matchedOwner, List.isSome_find?, matchedOwnerKinds_contains]

theorem triggerName_of_owner {pod : Pod} {owner : OwnerReference} (matched : matchedOwner pod = some owner) :
    triggerName pod = owner.name := by
  simp only [matchedOwner, ← matchedOwnerKinds_contains] at matched
  simp only [triggerName, matched]

section Property
variable (m : Mutator) (requesterUsername : String) (admitted found : Pod) (cluster : Cluster)

/-- Of a pod admitted once and found later: whatever the API server answers, each
container that the webhook adds writes to the ConfigMap that every covering trigger
reads, and an identity that was provisioned is one that a covering trigger removes. -/
structure HandsOff : Prop where
  data : ∀ patches, (m.mutate admitted requesterUsername).Returns (.ok patches) →
    ∀ container ∈ addedContainers patches, ∀ trigger, Covers cluster found trigger →
      writesTo found container = configMapName trigger.name
  identity : m.shouldMutate admitted requesterUsername = true →
    ∀ secretName, (m.ensurePodWorkloadIdentity admitted).Returns secretName → secretName ≠ "" →
      ∃ trigger, Covers cluster found trigger ∧ workloadIdentityName trigger.name = secretName

/-- The name that the pod's data is kept under. -/
def recordedUnder : String := ((matchedOwner admitted).map OwnerReference.name).getD found.metadata.name

/-- That name is the name of every trigger, and an owner's name that of some trigger,
as far as the names of ConfigMaps and identities tell them apart. -/
structure NamesAgree : Prop where
  data : m.shouldMutate admitted requesterUsername = true → ∀ trigger, Covered cluster found trigger →
    AgreeUpToHyphens (recordedUnder admitted found) trigger.name
  identity : m.shouldMutate admitted requesterUsername = true → m.clientset = true →
    ∀ owner, matchedOwner admitted = some owner →
      ∃ trigger, Covered cluster found trigger ∧ AgreeUpToHyphens trigger.name owner.name

variable {m requesterUsername admitted found cluster}

theorem writesTo_added (named : found.metadata.name ≠ "") {patches : List PatchOperation}
    (decision : m.shouldMutate admitted requesterUsername = true)
    (returned : (m.mutate admitted requesterUsername).Returns (.ok patches)) {container : Container}
    (member : container ∈ addedContainers patches) :
    writesTo found container = configMapName (recordedUnder admitted found) := by
  obtain ⟨identitySecretName, _, result⟩ := (mutate_returns_accepted decision _).mp returned
  obtain rfl := Except.ok.inj result
  rw [addedContainers_instrument] at member
  rw [writesTo_injected m admitted found named member, hasMatchingOwner_eq, recordedUnder]
  cases matched : matchedOwner admitted with
  | none => rfl
  | some owner => simp [triggerName_of_owner matched]

theorem identity_returns {secretName : String} (returned : (m.ensurePodWorkloadIdentity admitted).Returns secretName)
    (provisioned : secretName ≠ "") : m.clientset = true ∧
      ∃ owner, matchedOwner admitted = some owner ∧ secretName = workloadIdentityName owner.name := by
  unfold Mutator.ensurePodWorkloadIdentity at returned
  split at returned
  · exact absurd (Eq.symm returned) provisioned
  · rename_i configured
    split at returned
    · exact absurd (Eq.symm returned) provisioned
    · rename_i owned
      rw [hasMatchingOwner_eq, Bool.not_eq_true', Bool.not_eq_false, Option.isSome_iff_exists] at owned
      obtain ⟨owner, matched⟩ := owned
      obtain ⟨result, ensured, last⟩ := Program.returns_bind.mp returned
      cases result with
      | error error => exact absurd (Eq.symm last) provisioned
      | ok name =>
        obtain rfl : name = secretName := last
        have named := ensureWorkloadIdentity_returns ensured
        rw [triggerName_of_owner matched] at named
        exact ⟨by simpa using configured, owner, matched, named⟩

theorem identity_succeeds {owner : OwnerReference} (configured : m.clientset = true)
    (matched : matchedOwner admitted = some owner) :
    (m.ensurePodWorkloadIdentity admitted).Returns (workloadIdentityName owner.name) := by
  have owned : hasMatchingOwner admitted = true := by rw [hasMatchingOwner_eq, matched]; rfl
  simp only [Mutator.ensurePodWorkloadIdentity, configured, owned, Bool.not_true, Bool.false_eq_true, if_false]
  rw [Program.returns_bind]
  refine ⟨_, ensureWorkloadIdentity_succeeds _ _ _, ?_⟩
  rw [triggerName_of_owner matched]
  rfl

/-- Writer and reader agree exactly when the names of owner and triggers do. -/
theorem hands_off_iff (m : Mutator) (requesterUsername : String) (admitted found : Pod) (cluster : Cluster)
    (named : found.metadata.name ≠ "") :
    HandsOff m requesterUsername admitted found cluster ↔ NamesAgree m requesterUsername admitted found cluster := by
  constructor
  · intro handsOff
    constructor
    · intro decision trigger covered
      obtain ⟨secretName, identity⟩ := Program.exists_returns (fun cluster request => perform "" 0 cluster request)
        (m.ensurePodWorkloadIdentity admitted) Cluster.empty
      have returned := (mutate_returns_accepted decision _).mpr ⟨secretName, identity, rfl⟩
      have member : discoveryContainer m admitted ∈ addedContainers (m.instrument admitted secretName) := by
        rw [addedContainers_instrument, injectedInitContainers]
        exact List.mem_append_left _ (List.mem_singleton_self _)
      have read := handsOff.data _ returned _ member trigger ((covers_iff _ _ _).mpr covered)
      rw [writesTo_added named decision returned member, configMapName_eq_iff] at read
      exact read
    · intro decision configured owner matched
      have succeeded := identity_succeeds configured matched
      obtain ⟨trigger, covers, removed⟩ := handsOff.identity decision _ succeeded (workloadIdentityName_ne_empty _)
      exact ⟨trigger, (covers_iff _ _ _).mp covers, (workloadIdentityName_eq_iff _ _).mp removed⟩
  · intro agree
    constructor
    · intro patches returned container member trigger covers
      cases decision : m.shouldMutate admitted requesterUsername with
      | false =>
        obtain rfl := Except.ok.inj ((mutate_returns_rejected decision _).mp returned)
        exact absurd member (by simp [addedContainers_strip])
      | true =>
        rw [writesTo_added named decision returned member, configMapName_eq_iff]
        exact agree.data decision trigger ((covers_iff _ _ _).mp covers)
    · intro decision secretName returned provisioned
      obtain ⟨configured, owner, matched, rfl⟩ := identity_returns returned provisioned
      obtain ⟨trigger, covered, agrees⟩ := agree.identity decision configured owner matched
      exact ⟨trigger, (covers_iff _ _ _).mpr covered, (workloadIdentityName_eq_iff _ _).mpr agrees⟩

/-- A pod of one owner, as its Pod template labels it. -/
def workerPod (ownerKind podName : String) (labels : List (String × String)) : Pod where
  metadata := { name := podName, ns := "team", uid := "pod-1", resourceVersion := 1
                labels := GoMap.ofList ((labelInstrumented, "true") :: labels)
                ownerReferences := [{ apiVersion := "v1", kind := ownerKind, name := "train", uid := "train-1" }] }
  content := { spec := { containers := [{ name := "main" }] } }

def workerCluster (pod : Pod) : Cluster := Cluster.empty.write pod

def plainMutator : Mutator where
  discoveryImage := "discovery"
  datasetDetection := false
  datasetSidecarImage := ""
  clientset := true
  trustedJobControllerIdentity := ""

def jobPod : Pod := workerPod "Job" "train-4xk9c" [("batch.kubernetes.io/job-name", "train")]

theorem hands_off_iff_on_job_pod : jobPod.metadata.name ≠ "" ∧
    (HandsOff plainMutator "user" jobPod jobPod (workerCluster jobPod) ↔
      NamesAgree plainMutator "user" jobPod jobPod (workerCluster jobPod)) :=
  ⟨by decide, hands_off_iff plainMutator "user" jobPod jobPod (workerCluster jobPod) (by decide)⟩

/-- The pod of a PyTorchJob is postprocessed by itself, under its own name. -/
def pytorchPod : Pod := workerPod "PyTorchJob" "train-worker-0" []

theorem pytorch_pod_data_not_found :
    ¬ HandsOff plainMutator "user" pytorchPod pytorchPod (workerCluster pytorchPod) := by
  intro handsOff
  have decision : plainMutator.shouldMutate pytorchPod "user" = true := by decide
  have refused : (plainMutator.ensurePodWorkloadIdentity pytorchPod).Returns "" := ⟨.error (.other "timeout"), rfl⟩
  have returned := (mutate_returns_accepted decision _).mpr ⟨"", refused, rfl⟩
  have member : discoveryContainer plainMutator pytorchPod ∈
      addedContainers (plainMutator.instrument pytorchPod "") := by
    rw [addedContainers_instrument]
    exact List.mem_singleton_self _
  have covers : Covers (workerCluster pytorchPod) pytorchPod (.pod pytorchPod) :=
    ⟨rfl, by decide, by decide, rfl⟩
  have read := handsOff.data _ returned _ member _ covers
  have written : writesTo pytorchPod (discoveryContainer plainMutator pytorchPod) ≠
      configMapName (Trigger.pod pytorchPod).name := by decide
  exact written read

end Property

end AibomWebhook.Handoff
