import AibomWebhook.Aibomdata
import AibomWebhook.Objects
import Mathlib.Algebra.Ring.Int.Defs
import Mathlib.Algebra.Ring.Nat
import Mathlib.Data.List.Sort

/-! The data of a postprocess Job (internal/watcher/watcher.go): which of the pods'
entries are accepted, how datasets are merged, and what is recorded about each
container. The JSON texts themselves are read and written by `GoJson`. -/

namespace AibomWebhook.PostprocessData
open Aibomdata GoText Objects

/-- What `mergeDatasets` decodes a dataset file to; the values are JSON texts. -/
structure DatasetFile where
  datasets : List String
  runtimeInfo : StringMap

structure ContainerInfo where
  podName : String
  name : String
  image : String
  imageID : String
  command : List String
  args : List String
  terminatedReason : String
  exitCode : Option Int
  finishedAt : String
  memoryLimitBytes : Option Int
  cpuLimitMillis : Option Int
  gpuLimit : Option Int
  restartCount : Int
  lastTerminatedReason : String
  lastExitCode : Option Int
  jobResult : String
  servingRole : String

/-- The uses made of the packages `encoding/json` and `time`. -/
structure GoJson where
  /-- Raw messages as one array, unless one of them is not JSON. -/
  marshalRaw : List String → Option String
  marshalMap : StringMap → String
  unmarshalDatasets : String → Option DatasetFile
  unmarshalObject : String → Option StringMap
  /-- Values as one array, an absent one as null. -/
  marshalValues : List (Option String) → Option String
  marshalDatasets : DatasetFile → Option String
  marshalContainers : List ContainerInfo → String
  formatTime : Time → String

/-! Annotations and conditions. -/

def annotationPrefix : String := "aibom.io/"
def labelEnabled : String := "aibom.io/enabled"
def labelInstrumented : String := "aibom.io/instrumented"
def annotationPostprocess : String := "aibom.io/postprocess-job"
def annotationAIBOMCollected : String := "aibom.io/aibom-collected"
def annotationPostprocessRetries : String := "aibom.io/postprocess-retries"
def annotationPostprocessTriggerKind : String := "aibom.io/postprocess-trigger-kind"
def annotationPostprocessTriggerUID : String := "aibom.io/postprocess-trigger-uid"
def llmdRoleLabel : String := "llm-d.ai/role"

def internalAnnotationKeys : List String :=
  ["instrumented", "instrumented-by", "postprocess-job", "storage-info", "postprocess-retries"]

/-- The annotations under `aibom.io/`, without it and without the bookkeeping ones. -/
def collectAIBOMAnnotations (annotations : GoMap) : StringMap :=
  Keyed.ofList ((GoMap.entries annotations).filterMap fun (key, value) =>
    match cutPrefix annotationPrefix key with
    | none => none
    | some stripped =>
      if stripped ≠ "" ∧ stripped ∉ internalAnnotationKeys then some (stripped, value) else none)

/-- A Job's terminal condition, or the empty string. -/
def jobResult (job : Job) : String :=
  match job.content.conditions.find? (fun condition =>
      condition.status = "True" && (condition.type = "Complete" || condition.type = "Failed")) with
  | some condition => condition.type
  | none => ""

def gpuResource : String := "nvidia.com/gpu"

def positiveAmount (resources : ResourceList) : Bool :=
  ((ResourceList.get gpuResource resources).filter Quantity.positive).isSome

def podsRequestGPU (pods : List Pod) : Bool :=
  pods.any fun pod => pod.spec.containers.any fun container =>
    positiveAmount container.resources.limits || positiveAmount container.resources.requests

/-- An Indexed Job pod's index, or the largest integer for any other pod. -/
def completionIndex (pod : Pod) : Int :=
  (atoi (GoMap.get "batch.kubernetes.io/job-completion-index" pod.metadata.annotations)).getD (2 ^ 63 - 1)

def podJobName (pod : Pod) : String :=
  let name := GoMap.get "batch.kubernetes.io/job-name" pod.metadata.labels
  if name ≠ "" then name else GoMap.get "job-name" pod.metadata.labels

/-! The pods' own entries. -/

inductive DataKind where
  | discovery
  | dataset
  | storage
  deriving DecidableEq, Repr

def DataKind.word : DataKind → String
  | .discovery => "discovery"
  | .dataset => "dataset"
  | .storage => "storage"

def jsonKey (kind : DataKind) (podName : String) : String := kind.word ++ "-" ++ podName ++ ".json"

def sigKey (kind : DataKind) (podName : String) : String := kind.word ++ "-" ++ podName ++ ".sig"

/-- The payload and the signature that a pod's entry of one kind has. -/
def extractDataFromPod (kind : DataKind) (pod : Pod) (dataCM : Option ConfigMap) : String × String :=
  match dataCM with
  | none => ("", "")
  | some cm =>
    (GoMap.get (jsonKey kind pod.metadata.name) cm.content.data,
      GoMap.get (sigKey kind pod.metadata.name) cm.content.data)

def verifySignature (key : Sha256.Bytes) (payload sigHex : String) : Bool :=
  if sigHex = "" then false
  else
    match Sha256.decodeString sigHex with
    | none => false
    | some sig => sig = Sha256.hmac key payload.toUTF8.toList

/-- The payload, or the empty string if there is a key and it does not verify. -/
def verifiedData (key : Option Sha256.Bytes) (kind : DataKind) (pod : Pod) (dataCM : Option ConfigMap) : String :=
  let (payload, sig) := extractDataFromPod kind pod dataCM
  match key with
  | none => payload
  | some signingKey => if payload ≠ "" ∧ ¬ verifySignature signingKey payload sig then "" else payload

/-! Merging. -/

def datasetIdentityKeys : List String :=
  ["dataset_name", "source", "config_name", "split", "revision", "data_files", "data_dir", "root", "path"]

variable (codec : GoJson)

def datasetIdentity (entry : String) : Option String :=
  match codec.unmarshalObject entry with
  | none => none
  | some fields => codec.marshalValues (datasetIdentityKeys.map fun key => (fields.find? key).map Prod.snd)

structure MergeState where
  merged : DatasetFile
  seen : List String
  gitTaken : Bool

def mergeEntry (state : MergeState) (entry : String) : MergeState :=
  let appended := { state.merged with datasets := state.merged.datasets ++ [entry] }
  match datasetIdentity codec entry with
  | none => { state with merged := appended }
  | some key =>
    if key ∈ state.seen then state else { state with merged := appended, seen := key :: state.seen }

def mergeRuntimeInfo (state : MergeState) (info : StringMap) : MergeState :=
  let isGit (key : String) : Bool := hasPrefix "git_" key
  let runtimeInfo := info.items.foldl (fun (now : StringMap) (key, value) =>
    if isGit key then (if state.gitTaken then now else now.put (key, value))
    else if (now.find? key).isSome then now
    else now.put (key, value)) state.merged.runtimeInfo
  { state with
    merged := { state.merged with runtimeInfo := runtimeInfo }
    gitTaken := state.gitTaken || info.items.any fun entry => isGit entry.1 }

def mergeDatasets (datasets : List String) : String :=
  let start : MergeState := { merged := { datasets := [], runtimeInfo := ∅ }, seen := [], gitTaken := false }
  let final := datasets.foldl (fun state raw =>
    if raw = "" then state
    else
      match codec.unmarshalDatasets raw with
      | none => state
      | some file => mergeRuntimeInfo (file.datasets.foldl (mergeEntry codec) state) file.runtimeInfo) start
  if final.merged.datasets.isEmpty && final.merged.runtimeInfo.items.isEmpty then "{}"
  else (codec.marshalDatasets final.merged).getD "{}"

/-! Containers. -/

/-- A Go map filled in a loop keeps the last status of a name. -/
def lastStatus (statuses : List ContainerStatus) (name : String) (wanted : ContainerStatus → Bool) :
    Option ContainerStatus :=
  (statuses.filter fun status => status.name = name && wanted status).getLast?

def containerInfo (jobResults : GoMap) (pod : Pod) (c : Container) : ContainerInfo :=
  let statuses := pod.content.containerStatuses
  let restart := (lastStatus statuses c.name fun status =>
    0 < status.restartCount && status.lastTerminated.isSome)
  let terminated := (lastStatus statuses c.name fun status => status.terminated.isSome).bind
    ContainerStatus.terminated
  let finished := (lastStatus statuses c.name fun status =>
    (status.terminated.bind ContainerStateTerminated.finishedAt).isSome).bind fun status =>
      status.terminated.bind ContainerStateTerminated.finishedAt
  let gpu (resources : ResourceList) : Option Int :=
    ((ResourceList.get gpuResource resources).map Quantity.value).filter (0 < ·)
  { podName := pod.metadata.name
    name := c.name
    image := c.image
    imageID := ((lastStatus statuses c.name fun _ => true).map ContainerStatus.imageID).getD ""
    command := c.command
    args := c.args
    terminatedReason := (terminated.map ContainerStateTerminated.reason).getD ""
    exitCode := terminated.map ContainerStateTerminated.exitCode
    finishedAt := if terminated.isSome then (finished.map codec.formatTime).getD "" else ""
    memoryLimitBytes := (ResourceList.get "memory" c.resources.limits).map Quantity.value
    cpuLimitMillis := (ResourceList.get "cpu" c.resources.limits).map Quantity.milliValue
    gpuLimit := (gpu c.resources.limits).or (gpu c.resources.requests)
    restartCount := (restart.map ContainerStatus.restartCount).getD 0
    lastTerminatedReason :=
      ((restart.bind ContainerStatus.lastTerminated).map ContainerStateTerminated.reason).getD ""
    lastExitCode := (restart.bind ContainerStatus.lastTerminated).map ContainerStateTerminated.exitCode
    jobResult := GoMap.get (podJobName pod) jobResults
    servingRole := GoMap.get llmdRoleLabel pod.metadata.labels }

/-- `completionIndex` 0 first, and among retries the newest attempt. -/
def rankedBefore (first second : Pod) : Bool :=
  if completionIndex first ≠ completionIndex second then completionIndex first < completionIndex second
  else second.metadata.creationTimestamp < first.metadata.creationTimestamp

def ranked (pods : List Pod) : List Pod := pods.insertionSort fun first second => ¬ rankedBefore second first

/-- What `buildPostprocessInputs` returns. -/
structure PostprocessInputs where
  discoveries : List String
  datasets : List String
  containersJSON : String
  storageJSON : String

def inputsOf (dataCM : Option ConfigMap) (signingKey datasetSigningKey : Option Sha256.Bytes) (pods : List Pod)
    (jobResults : GoMap) : PostprocessInputs :=
  let dsByPod : StringMap := Keyed.ofList (pods.map fun pod =>
    (pod.metadata.name, verifiedData datasetSigningKey .dataset pod dataCM))
  let storage := (pods.map fun pod => verifiedData signingKey .storage pod dataCM).find? (· ≠ "")
  { discoveries := pods.map fun pod => verifiedData signingKey .discovery pod dataCM
    datasets := (ranked pods).map fun pod => GoMap.get pod.metadata.name (some dsByPod)
    containersJSON := codec.marshalContainers (pods.flatMap fun pod =>
      pod.spec.containers.map (containerInfo codec jobResults pod))
    storageJSON := storage.getD "{}" }

/-- The last entry of a name is that of its pod, since pods of one name have one entry. -/
theorem get_byName {key : Option Sha256.Bytes} {kind : DataKind} {dataCM : Option ConfigMap} {pods : List Pod} {pod : Pod}
    (member : pod ∈ pods) :
    GoMap.get pod.metadata.name (some (Keyed.ofList (pods.map fun pod =>
      (pod.metadata.name, verifiedData key kind pod dataCM)))) = verifiedData key kind pod dataCM := by
  have byName (other : Pod) (same : other.metadata.name = pod.metadata.name) :
      verifiedData key kind other dataCM = verifiedData key kind pod dataCM := by
    have extracted : extractDataFromPod kind other dataCM = extractDataFromPod kind pod dataCM := by
      unfold extractDataFromPod
      rw [same]
    rw [verifiedData, verifiedData, extracted]
  have found : ((Keyed.ofList (pods.map fun pod => (pod.metadata.name, verifiedData key kind pod dataCM)) :
      StringMap).find? pod.metadata.name).isSome = true := by
    rw [Keyed.ofList, Keyed.find?_putAll_reverse, Option.isSome_or, Bool.or_eq_true]
    refine Or.inl (List.find?_isSome.mpr ⟨_, List.mem_reverse.mpr (List.mem_map_of_mem member), ?_⟩)
    exact decide_eq_true rfl
  obtain ⟨entry, here⟩ := Option.isSome_iff_exists.mp found
  obtain ⟨inside, named⟩ := Keyed.find?_some here
  obtain ⟨other, _, rfl⟩ := List.mem_map.mp (Keyed.mem_ofList inside)
  rw [GoMap.get, GoMap.lookup, Option.getD_some, here, Option.map_some, Option.getD_some]
  exact byName other named

/-- The five keys of the inputs ConfigMap. -/
def aggregateData (inputs : PostprocessInputs) (annotations : StringMap) : List (String × String) :=
  let discoveryArray := inputs.discoveries.filter (· ≠ "")
  let discoveryData := if discoveryArray.isEmpty then "[]" else (codec.marshalRaw discoveryArray).getD "[]"
  [("discovery.json", discoveryData), ("dataset.json", mergeDatasets codec inputs.datasets),
    ("annotations.json", codec.marshalMap annotations), ("containers.json", inputs.containersJSON),
    ("storage.json", if inputs.storageJSON = "" then "{}" else inputs.storageJSON)]

end AibomWebhook.PostprocessData
