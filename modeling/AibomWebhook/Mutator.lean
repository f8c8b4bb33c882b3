import AibomWebhook.Identity
import AibomWebhook.PodJson

/-! The pod mutation (internal/webhook/mutator.go): whether a pod is
instrumented, and the patch operations that instrument it. -/

namespace AibomWebhook.Webhook
open Aibomdata GoText Identity JsonPatch Kubernetes Objects PodJson Requests

def matchedOwnerKinds : List String := ["Job", "JobSet", "PyTorchJob", "RayJob"]

structure Mutator where
  discoveryImage : String
  datasetDetection : Bool
  datasetSidecarImage : String
  /-- Whether the field `Clientset` is set. -/
  clientset : Bool
  trustedJobControllerIdentity : String

inductive PatchValue where
  | text (value : String)
  | textMap (entries : List (String × String))
  | volumes (values : List Volume)
  | volume (value : Volume)
  | containers (values : List Container)
  | container (value : Container)
  | envVars (values : List EnvVar)
  | envVar (value : EnvVar)
  | mounts (values : List VolumeMount)
  | mount (value : VolumeMount)

structure PatchOperation where
  op : Verb
  path : String
  value : Option PatchValue := none

def PatchValue.json (quantityText : Quantity → String) : PatchValue → Json
  | .text value => .text value
  | .textMap entries => encodeMap (Keyed.ofList entries)
  | .volumes values => .arr (values.map encodeVolume)
  | .volume value => encodeVolume value
  | .containers values => .arr (values.map (encodeContainer quantityText))
  | .container value => encodeContainer quantityText value
  | .envVars values => .arr (values.map encodeEnvVar)
  | .envVar value => encodeEnvVar value
  | .mounts values => .arr (values.map encodeVolumeMount)
  | .mount value => encodeVolumeMount value

/-- The operation as `json.Marshal` writes it into the admission response. -/
def PatchOperation.marshal (quantityText : Quantity → String) (patch : PatchOperation) : Operation where
  verb := patch.op
  path := patch.path
  value := patch.value.map (PatchValue.json quantityText)

/-! Which pods are instrumented. -/

def hasJobOwner (pod : Pod) : Bool := pod.metadata.ownerReferences.any fun ref => ref.kind = "Job"

def hasMatchingOwner (pod : Pod) : Bool :=
  pod.metadata.ownerReferences.any fun ref => matchedOwnerKinds.contains ref.kind

def gpuResource : String := "nvidia.com/gpu"

/-- A positive amount of the resource, if the list has one. -/
def positiveAmount (name : String) (resources : ResourceList) : Option Quantity :=
  (ResourceList.get name resources).filter Quantity.positive

def requestsGPU (pod : Pod) : Bool :=
  pod.spec.containers.any fun container =>
    (positiveAmount gpuResource container.resources.limits).isSome ||
      (positiveAmount gpuResource container.resources.requests).isSome

def Mutator.isPostprocessPod (m : Mutator) (pod : Pod) (requesterUsername : String) : Bool :=
  if GoMap.get labelPostprocessFor pod.metadata.labels = "" then false
  else if !hasJobOwner pod then false
  else if m.trustedJobControllerIdentity = "" then true
  else requesterUsername = m.trustedJobControllerIdentity

def Mutator.shouldMutate (m : Mutator) (pod : Pod) (requesterUsername : String) : Bool :=
  if m.isPostprocessPod pod requesterUsername then false
  else hasMatchingOwner pod || requestsGPU pod

def stripSpoofedInstrumentationClaims (pod : Pod) : List PatchOperation :=
  (if (GoMap.lookup "aibom.io/instrumented" pod.metadata.labels).isSome then
    [{ op := .remove, path := "/metadata/labels/aibom.io~1instrumented" }] else []) ++
  (if (GoMap.lookup "aibom.io/instrumented-by" pod.metadata.annotations).isSome then
    [{ op := .remove, path := "/metadata/annotations/aibom.io~1instrumented-by" }] else [])

/-! The workload's name and identity. -/

/-- The name of the first owner of a matched kind, or the pod's own. -/
def triggerName (pod : Pod) : String :=
  match pod.metadata.ownerReferences.find? (fun ref => matchedOwnerKinds.contains ref.kind) with
  | some ref => ref.name
  | none => pod.metadata.name

def dataConfigMapEnvVar (pod : Pod) : Option EnvVar :=
  if hasMatchingOwner pod then some { name := "AIBOM_DATA_CONFIGMAP", value := configMapName (triggerName pod) }
  else none

/-- Every failure is logged and swallowed: the pod then keeps its own identity. -/
def Mutator.ensurePodWorkloadIdentity (m : Mutator) (pod : Pod) : ApiProgram String :=
  if !m.clientset then return ""
  else if !hasMatchingOwner pod then return ""
  else do
    let trigger := triggerName pod
    match ← ensureWorkloadIdentity pod.metadata.ns trigger (configMapName trigger) with
    | .error _ => return ""
    | .ok secretName => return secretName

/-! The injected volumes and mounts. -/

def buildAIBOMVolume : Volume := { name := "aibom-data", source := .emptyDir }

def buildScriptsVolume : Volume := { name := "aibom-scripts", source := .configMap "aibom-scripts" false }

def buildTokenVolume (identitySecretName : String) : Volume :=
  let tokenSource : VolumeProjection :=
    if identitySecretName ≠ "" then .secret identitySecretName [(workloadIdentityTokenSecretKey, "token")]
    else .serviceAccountToken "token" 3600
  { name := "aibom-token"
    source := .projected [tokenSource, .configMap "kube-root-ca.crt" [("ca.crt", "ca.crt")],
      .downwardAPI [("namespace", "metadata.namespace")]] }

def aibomTokenVolumeMount : VolumeMount :=
  { name := "aibom-token", mountPath := "/var/run/secrets/kubernetes.io/serviceaccount", readOnly := true }

def buildDiscoverySigningKeyVolume : Volume :=
  { name := "aibom-discovery-signing-key", source := .secret discoverySigningKeySecretName true }

def discoverySigningKeyVolumeMount : VolumeMount :=
  { name := "aibom-discovery-signing-key", mountPath := "/var/run/secrets/aibom/discovery-signing"
    readOnly := true }

def buildDatasetSigningKeyVolume : Volume :=
  { name := "aibom-dataset-signing-key", source := .secret datasetSigningKeySecretName true }

def datasetSigningKeyVolumeMount : VolumeMount :=
  { name := "aibom-dataset-signing-key", mountPath := "/var/run/secrets/aibom/dataset-signing", readOnly := true }

def modelSourceVolumeName : String := "aibom-model-source"
def modelSourceMountPath : String := "/mnt/aibom-model"

/-- The claim and the path in it of a KServe predictor's `pvc://` model. -/
def modelSourcePVC (pod : Pod) : Option (String × String) :=
  if GoMap.get labelKServeInferenceService pod.metadata.labels = "" then none
  else
    match cutPrefix "pvc://" (GoMap.get annotationKServeStorageSourceURI pod.metadata.annotations) with
    | none => none
    | some rest =>
      let claim := (cut '/' rest).1
      let subPath := trim '/' (cut '/' rest).2
      if claim = "" then none
      else if (split '/' subPath).any (· = "..") then none
      else some (claim, subPath)

def buildModelSourceVolume (claim : String) : Volume :=
  { name := modelSourceVolumeName, source := .persistentVolumeClaim claim true }

def modelSourceVolumeMount (subPath : String) : VolumeMount :=
  { name := modelSourceVolumeName, mountPath := modelSourceMountPath, subPath := subPath, readOnly := true }

/-! The injected containers. -/

def downwardAPIEnv (name fieldPath : String) : EnvVar := { name := name, valueFrom := some (.fieldRef fieldPath) }

/-- The sum of the containers' effective claims: the limit, or else the request. -/
def podGPUResource (pod : Pod) : Option Quantity :=
  pod.spec.containers.foldl (fun total container =>
    match (positiveAmount gpuResource container.resources.limits).or
        (positiveAmount gpuResource container.resources.requests) with
    | none => total
    | some claim => some ((total.getD Quantity.zero).add claim)) none

def Mutator.buildDiscoveryInitContainer (m : Mutator) (pod : Pod) : Container where
  name := "aibom-discovery"
  image := m.discoveryImage
  command := ["/bin/bash", "-c"]
  args := ["python3 /scripts/generate_snapshot.py || " ++
    "echo \"aibom-discovery: generate_snapshot.py failed (exit $?); continuing without discovery data\" >&2"]
  env := [downwardAPIEnv "POD_NAME" "metadata.name", downwardAPIEnv "POD_UID" "metadata.uid",
    downwardAPIEnv "POD_NAMESPACE" "metadata.namespace", downwardAPIEnv "POD_IP" "status.podIP",
    downwardAPIEnv "NODE_NAME" "spec.nodeName"] ++ (dataConfigMapEnvVar pod).toList ++
    (if GoMap.get labelKServeInferenceService pod.metadata.labels ≠ "" then
      [downwardAPIEnv "INFERENCESERVICE_NAME" ("metadata.labels['" ++ labelKServeInferenceService ++ "']")]
    else [])
  volumeMounts := [{ name := "aibom-data", mountPath := "/tmp/result" },
    { name := "aibom-scripts", mountPath := "/scripts", readOnly := true },
    aibomTokenVolumeMount, discoverySigningKeyVolumeMount]
  resources :=
    let limits : ResourceList := Keyed.ofList [("cpu", .ofNat 1), ("memory", .mebi 512)]
    { requests := Keyed.ofList [("cpu", .milli 250), ("memory", .mebi 128)]
      limits := match podGPUResource pod with
        | some gpuRes => limits.put (gpuResource, gpuRes)
        | none => limits }

def Mutator.buildDatasetSidecarContainer (m : Mutator) (pod : Pod) : Container where
  name := "aibom-dataset-sidecar"
  image := m.datasetSidecarImage
  restartPolicy := some "Always"
  command := ["/bin/bash", "-c"]
  args := ["if [ -s /scripts/dataset_sidecar.py ]; then exec python3 /scripts/dataset_sidecar.py; else " ++
    "echo 'aibom-dataset-sidecar: dataset_sidecar.py not configured for this namespace yet, idling' >&2; " ++
    "exec sleep infinity; fi"]
  env := [downwardAPIEnv "POD_NAME" "metadata.name", downwardAPIEnv "POD_NAMESPACE" "metadata.namespace",
    { name := "AIBOM_DATASET_OUTPUT", value := "/tmp/aibom/dataset_detected.json" }] ++
    (dataConfigMapEnvVar pod).toList
  resources := { requests := Keyed.ofList [("cpu", .milli 50), ("memory", .mebi 64)]
                 limits := Keyed.ofList [("cpu", .milli 200), ("memory", .mebi 128)] }
  volumeMounts := [{ name := "aibom-data", mountPath := "/tmp/aibom", readOnly := true },
    { name := "aibom-scripts", mountPath := "/scripts", readOnly := true },
    aibomTokenVolumeMount, datasetSigningKeyVolumeMount]

def imagePythonPathAnnotation : String := "aibom.io/python-path"

/-- The variables that activate the detector. The last one is PYTHONPATH when the
container sets none or takes it from elsewhere. -/
def detectorEnvVars (pod : Pod) (container : Container) : List EnvVar :=
  let activation : List EnvVar :=
    [{ name := "AIBOM_DATASET_DETECT", value := "1" },
      { name := "AIBOM_DATASET_OUTPUT", value := "/tmp/aibom/dataset_detected.json" },
      downwardAPIEnv "POD_NAME" "metadata.name", downwardAPIEnv "POD_NAMESPACE" "metadata.namespace"]
  match container.env.find? (fun env => env.name = "PYTHONPATH") with
  | none =>
    let imagePath := GoMap.get imagePythonPathAnnotation pod.metadata.annotations
    activation ++ [{ name := "PYTHONPATH"
                     value := if imagePath ≠ "" then "/aibom-hooks" ++ ":" ++ imagePath else "/aibom-hooks" }]
  | some env =>
    if env.valueFrom.isSome then
      activation ++ [{ name := "PYTHONPATH", value := "/aibom-hooks:$(PYTHONPATH)" }]
    else activation

/-- The new value of a literal PYTHONPATH, with the index of its entry. -/
def pythonPathReplace (container : Container) : Option (Nat × String) :=
  match container.env.findIdx? (fun env => env.name = "PYTHONPATH"),
      container.env.find? (fun env => env.name = "PYTHONPATH") with
  | some pythonPathIdx, some env =>
    if env.valueFrom.isSome then none
    else some (pythonPathIdx, if env.value ≠ "" then "/aibom-hooks:" ++ env.value else "/aibom-hooks")
  | _, _ => none

def detectorMounts : List VolumeMount :=
  [{ name := "aibom-scripts", mountPath := "/aibom-hooks/sitecustomize.py", subPath := "runtime_detector.py"
     readOnly := true },
    { name := "aibom-data", mountPath := "/tmp/aibom" }]

def volumeMountIndexAtPath (mounts : List VolumeMount) (path : String) : Option Nat :=
  mounts.findIdx? (fun mount => mount.mountPath = path)

def containerPath (containerIdx : Nat) : String := "/spec/containers/" ++ toString containerIdx

def buildDatasetDetectorPatches (pod : Pod) (containerIdx : Nat) (container : Container) : List PatchOperation :=
  let envVars := detectorEnvVars pod container
  let envPath := containerPath containerIdx ++ "/env"
  let mountPath := containerPath containerIdx ++ "/volumeMounts"
  let envPatches : List PatchOperation :=
    if container.env.isEmpty then [{ op := .add, path := envPath, value := some (.envVars envVars) }]
    else
      (match pythonPathReplace container with
        | some (pythonPathIdx, pythonPath) =>
          [{ op := .replace, path := envPath ++ "/" ++ toString pythonPathIdx ++ "/value"
             value := some (.text pythonPath) }]
        | none => []) ++
      envVars.map fun env => { op := .add, path := envPath ++ "/-", value := some (.envVar env) }
  let mountPatches : List PatchOperation :=
    if container.volumeMounts.isEmpty then
      [{ op := .add, path := mountPath, value := some (.mounts detectorMounts) }]
    else detectorMounts.map fun mount => { op := .add, path := mountPath ++ "/-", value := some (.mount mount) }
  let tokenPatches : List PatchOperation :=
    match volumeMountIndexAtPath container.volumeMounts aibomTokenVolumeMount.mountPath with
    | some idx => [{ op := .remove, path := mountPath ++ "/" ++ toString idx }]
    | none => []
  envPatches ++ mountPatches ++ tokenPatches

/-! The patch. -/

/-- How many operations so far add to the array at this path. -/
def additionsTo (path : String) (patches : List PatchOperation) : Nat :=
  patches.countP fun patch => patch.path = path || patch.path = path ++ "/-"

def appendVolume (patches : List PatchOperation) (pod : Pod) (vol : Volume) : List PatchOperation :=
  let existingCount := pod.spec.volumes.length + additionsTo "/spec/volumes" patches
  if existingCount = 0 then
    patches ++ [{ op := .add, path := "/spec/volumes", value := some (.volumes [vol]) }]
  else patches ++ [{ op := .add, path := "/spec/volumes/-", value := some (.volume vol) }]

def appendInitContainer (patches : List PatchOperation) (pod : Pod) (c : Container) : List PatchOperation :=
  let existingCount := pod.spec.initContainers.length + additionsTo "/spec/initContainers" patches
  if existingCount = 0 then
    patches ++ [{ op := .add, path := "/spec/initContainers", value := some (.containers [c]) }]
  else patches ++ [{ op := .add, path := "/spec/initContainers/-", value := some (.container c) }]

/-- Set one entry of the map at this path, which may be missing. -/
def addMapEntry (map : GoMap) (path key pathKey value : String) : PatchOperation :=
  match map with
  | none => { op := .add, path := path, value := some (.textMap [(key, value)]) }
  | some _ => { op := .add, path := path ++ "/" ++ pathKey, value := some (.text value) }

def discoveryContainer (m : Mutator) (pod : Pod) : Container :=
  let discovery := m.buildDiscoveryInitContainer pod
  match modelSourcePVC pod with
  | none => discovery
  | some (_, modelSubPath) =>
    { discovery with
      volumeMounts := discovery.volumeMounts ++ [modelSourceVolumeMount modelSubPath]
      env := discovery.env ++ [{ name := "AIBOM_MODEL_DIR", value := modelSourceMountPath }] }

/-- The operations for a pod that qualifies, with the Secret of its identity. -/
def Mutator.instrument (m : Mutator) (pod : Pod) (identitySecretName : String) : List PatchOperation :=
  let patches := appendVolume [] pod buildAIBOMVolume
  let patches := appendVolume patches pod buildScriptsVolume
  let patches := appendVolume patches pod (buildTokenVolume identitySecretName)
  let patches := appendVolume patches pod buildDiscoverySigningKeyVolume
  let patches := match modelSourcePVC pod with
    | some (modelClaim, _) => appendVolume patches pod (buildModelSourceVolume modelClaim)
    | none => patches
  let patches := appendInitContainer patches pod (discoveryContainer m pod)
  let patches :=
    if m.datasetDetection then
      let patches := patches ++ pod.spec.containers.zipIdx.flatMap fun (container, i) =>
        buildDatasetDetectorPatches pod i container
      let patches := appendVolume patches pod buildDatasetSigningKeyVolume
      appendInitContainer patches pod (m.buildDatasetSidecarContainer pod)
    else patches
  patches ++
    [addMapEntry pod.metadata.labels "/metadata/labels" "aibom.io/instrumented" "aibom.io~1instrumented" "true",
      addMapEntry pod.metadata.annotations "/metadata/annotations" "aibom.io/instrumented-by"
        "aibom.io~1instrumented-by" "webhook"]

/-- `Mutate`. Its error is always nil. -/
def Mutator.mutate (m : Mutator) (pod : Pod) (requesterUsername : String) :
    ApiProgram (Except ApiError (List PatchOperation)) :=
  if !m.shouldMutate pod requesterUsername then return .ok (stripSpoofedInstrumentationClaims pod)
  else do
    let identitySecretName ← m.ensurePodWorkloadIdentity pod
    return .ok (m.instrument pod identitySecretName)

end AibomWebhook.Webhook
