import AibomWebhook.Identity
import AibomWebhook.PostprocessData

/-! How the watcher creates a postprocess Job and collects one that has finished
(internal/watcher/watcher.go). -/

namespace AibomWebhook.Postprocess
open Aibomdata Identity Kubernetes Objects PostprocessData Requests

structure Watcher where
  ns : String
  postprocessImage : String
  prometheusURL : String
  debugKeepPostprocessJobs : Bool
  debugTelemetryAllPods : Bool
  registryLabelLookup : Bool
  codec : GoJson

inductive PostprocessError where
  | postprocessBusy
  | wrapped (error : WrappedError)
  deriving DecidableEq, Repr

/-! The inputs. -/

def fetchSigningKey (ns secretName dataKey : String) : ApiProgram (Except ApiError (Option Sha256.Bytes)) := do
  match ← get .secret (ns, secretName) with
  | .error .notFound => return .ok none
  | .error error => return .error error
  | .ok secret => return .ok ((secret.content.data.find? dataKey).map Prod.snd)

def fetchDiscoverySigningKey (ns : String) : ApiProgram (Except ApiError (Option Sha256.Bytes)) :=
  fetchSigningKey ns discoverySigningKeySecretName discoverySigningKeyDataKey

def fetchDatasetSigningKey (ns : String) : ApiProgram (Except ApiError (Option Sha256.Bytes)) :=
  fetchSigningKey ns datasetSigningKeySecretName datasetSigningKeyDataKey

/-- The key that the caller goes on with: an error is logged and leaves none. -/
def keyOrNone : Except ApiError (Option Sha256.Bytes) → Option Sha256.Bytes
  | .ok key => key
  | .error _ => none

def Watcher.buildPostprocessInputs (w : Watcher) (ns configMapName : String) (pods : List Pod)
    (jobResults : GoMap) : ApiProgram PostprocessInputs := do
  let dataCM ← get .configMap (ns, configMapName)
  let signingKey ← fetchDiscoverySigningKey ns
  let datasetSigningKey ← fetchDatasetSigningKey ns
  return inputsOf w.codec dataCM.toOption (keyOrNone signingKey) (keyOrNone datasetSigningKey) pods jobResults

/-- A new inputs ConfigMap. -/
def inputsConfigMap (ns configMapName jobName : String) (data : List (String × String)) : ConfigMap where
  metadata := { name := configMapName, ns := ns, labels := GoMap.ofList [(labelPostprocessFor, jobName)] }
  content := { data := GoMap.ofList data }

/-- The aggregate keys written over those that a ConfigMap has. -/
def mergedConfigMap (existing : ConfigMap) (jobName : String) (data : List (String × String)) : ConfigMap where
  metadata := { existing.metadata with labels := GoMap.set labelPostprocessFor jobName existing.metadata.labels }
  content := { data := data.foldl (fun map (key, value) => GoMap.set key value map) existing.content.data }

def createDataConfigMap (ns configMapName jobName : String) (data : List (String × String)) :
    ApiProgram (Except WrappedError Unit) := do
  match ← get .configMap (ns, configMapName) with
  | .error .notFound =>
    match ← create (inputsConfigMap ns configMapName jobName data) with
    | .ok _ => return .ok ()
    | .error .alreadyExists => return .ok ()
    | .error error => return .error { message := "create configmap " ++ configMapName, cause := error }
  | .error error => return .error { message := "get configmap " ++ configMapName, cause := error }
  | .ok existing =>
    match ← update (mergedConfigMap existing jobName data) with
    | .ok _ => return .ok ()
    | .error error => return .error { message := "update configmap " ++ configMapName, cause := error }

/-! The Job. -/

inductive Occupant where
  | otherRun
  | sameRun
  | neither
  deriving DecidableEq, Repr

def Watcher.examineJobs (w : Watcher) (triggerUID postprocessName inputsName : String) :
    List Job → ApiProgram Occupant
  | [] => return .neither
  | old :: rest =>
    if old.metadata.name ≠ postprocessName then w.examineJobs triggerUID postprocessName inputsName rest
    else if jobResult old = "Failed" then do
      let _ ← delete .job (w.ns, old.metadata.name)
      let _ ← delete .configMap (w.ns, inputsName)
      w.examineJobs triggerUID postprocessName inputsName rest
    else
      let uid := GoMap.get annotationPostprocessTriggerUID old.metadata.annotations
      if uid ≠ "" ∧ uid ≠ triggerUID then return .otherRun else return .sameRun

def Watcher.existingPostprocessJob (w : Watcher) (ns triggerName triggerUID postprocessName inputsName : String) :
    ApiProgram Occupant := do
  match ← list .job w.ns [(labelPostprocessFor, triggerName), (labelPostprocessNamespace, ns)] with
  | .error _ => return .neither
  | .ok existing => w.examineJobs triggerUID postprocessName inputsName existing

def compiledSigningMountPath : String := "/etc/aibom-postprocess/compiled-signing"

def failedPostprocessTTLSeconds : Nat := 24 * 60 * 60

def formatBool (value : Bool) : String := if value then "true" else "false"

open JsonPatch in
def Watcher.postprocessPodSpec (w : Watcher) (ns triggerName inputsName signingKeySecret : String) : PodSpec where
  others := fun key => [("restartPolicy", Json.text "Never"),
    ("serviceAccountName", Json.text postprocessServiceAccountName),
    ("securityContext", Json.record [("runAsNonRoot", some (Json.bool true)),
      ("seccompProfile", some (Json.record [("type", some (Json.text "RuntimeDefault"))] noFields))] noFields)].lookup key
  containers := [{
    name := "aibom-postprocess"
    image := w.postprocessImage
    command := ["python3", "/app/postprocess.py"]
    others := fun key => [("securityContext", Json.record [("allowPrivilegeEscalation", some (Json.bool false)),
      ("readOnlyRootFilesystem", some (Json.bool true)),
      ("capabilities", some (Json.record [("drop", some (Json.arr [Json.text "ALL"]))] noFields))] noFields)].lookup key
    resources := { requests := Keyed.ofList [("cpu", .milli 100), ("memory", .mebi 128)]
                   limits := Keyed.ofList [("cpu", .milli 500), ("memory", .mebi 512)] }
    env := [{ name := "AIBOM_JOB_NAME", value := triggerName }, { name := "AIBOM_JOB_NAMESPACE", value := ns },
      { name := "AIBOM_INPUT_DIR", value := "/data/input" }, { name := "PROMETHEUS_URL", value := w.prometheusURL },
      { name := "AIBOM_DEBUG_TELEMETRY_ALL_PODS", value := formatBool w.debugTelemetryAllPods },
      { name := "AIBOM_REGISTRY_LABEL_LOOKUP", value := formatBool w.registryLabelLookup },
      { name := "AIBOM_SIGNING_KEY_PATH", value := compiledSigningMountPath ++ "/" ++ compiledSigningKeyDataKey }]
    volumeMounts := [{ name := "aibom-input", mountPath := "/data/input", readOnly := true },
      { name := "service-ca", mountPath := "/etc/aibom-postprocess/service-ca", readOnly := true },
      { name := "compiled-signing-key", mountPath := compiledSigningMountPath, readOnly := true }] }]
  volumes := [{ name := "aibom-input", source := .configMap inputsName false },
    { name := "service-ca", source := .configMap "aibom-service-ca" true },
    { name := "compiled-signing-key", source := .secret signingKeySecret true }]

def Watcher.postprocessJob (w : Watcher) (ns triggerName triggerKind triggerUID : String) : Job :=
  let postprocessName := postprocessJobName ns triggerName
  let labels := GoMap.ofList [(labelPostprocessFor, triggerName), (labelPostprocessNamespace, ns)]
  { metadata := { name := postprocessName, ns := w.ns, labels := labels
                  annotations := GoMap.ofList [(annotationPostprocessTriggerKind, triggerKind),
                    (annotationPostprocessTriggerUID, triggerUID)] }
    content := { backoffLimit := some 3, ttlSecondsAfterFinished := some failedPostprocessTTLSeconds
                 template := { labels := labels
                               spec := w.postprocessPodSpec ns triggerName
                                 (postprocessInputsConfigMapName postprocessName)
                                 (compiledSigningKeySecretName ns) } } }

def Watcher.ensureCompiledSigningKey (w : Watcher) (name : String) : ApiProgram (Except ApiError Unit) := do
  match ← generateKey with
  | .error error => return .error error
  | .ok key =>
    let secret : Secret := { metadata := { name := name, ns := w.ns }
                             content := { data := Keyed.ofList [(compiledSigningKeyDataKey, key)] } }
    ensure secret

/-- Skipped when the Job has no UID yet. -/
def ownDataConfigMap (owner : Job) (configMapName : String) : ApiProgram Unit :=
  if owner.metadata.uid = "" then return ()
  else do
    let _ ← patch .configMap (owner.metadata.ns, configMapName) (.setOwner
      { apiVersion := "batch/v1", kind := "Job", name := owner.metadata.name, uid := owner.metadata.uid })
    return ()

/-- The end of `createPostprocessJobCore`: the slot is taken to be free. -/
def Watcher.launchPostprocessJob (w : Watcher) (ns triggerName triggerKind triggerUID : String) (pods : List Pod)
    (annotations : StringMap) (jobResults : GoMap) : ApiProgram (Except PostprocessError String) := do
  let postprocessName := postprocessJobName ns triggerName
  let inputsName := postprocessInputsConfigMapName postprocessName
  let inputs ← w.buildPostprocessInputs ns (configMapName triggerName) pods jobResults
  let _ ← createDataConfigMap w.ns inputsName triggerName (aggregateData w.codec inputs annotations)
  let _ ← w.ensureCompiledSigningKey (compiledSigningKeySecretName ns)
  match ← create (w.postprocessJob ns triggerName triggerKind triggerUID) with
  | .ok created => do
    ownDataConfigMap created inputsName
    return .ok postprocessName
  | .error .alreadyExists => return .ok postprocessName
  | .error error => return .error (.wrapped { message := "create postprocess job", cause := error })

def Watcher.createPostprocessJobCore (w : Watcher) (ns triggerName triggerKind triggerUID : String)
    (pods : List Pod) (annotations : StringMap) (jobResults : GoMap) :
    ApiProgram (Except PostprocessError String) := do
  let postprocessName := postprocessJobName ns triggerName
  let inputsName := postprocessInputsConfigMapName postprocessName
  match ← w.existingPostprocessJob ns triggerName triggerUID postprocessName inputsName with
  | .otherRun => return .error .postprocessBusy
  | .sameRun => return .ok postprocessName
  | .neither => w.launchPostprocessJob ns triggerName triggerKind triggerUID pods annotations jobResults

/-! The two kinds of trigger. -/

def jobsetLabel : String := "jobset.sigs.k8s.io/jobset-name"

def getInstrumentedPods (job : Job) : ApiProgram (Except ApiError (List Pod)) :=
  list .pod job.metadata.ns [("batch.kubernetes.io/job-name", job.metadata.name), (labelInstrumented, "true")]

/-- The pods of a Job and, of a JobSet's, those of its siblings. -/
def gatherPods (job : Job) : ApiProgram (List Pod) := do
  let listed ← getInstrumentedPods job
  let pods := listed.toOption.getD []
  let jobsetName := GoMap.get jobsetLabel job.metadata.labels
  if jobsetName = "" then return pods
  else
    match ← list .pod job.metadata.ns [(jobsetLabel, jobsetName), (labelInstrumented, "true")] with
    | .error _ => return pods
    | .ok siblingPods =>
      return pods ++ siblingPods.filter fun sibling => pods.all fun pod => pod.metadata.name ≠ sibling.metadata.name

/-- The Job's annotations, or else a sibling's, and the result of each Job. -/
def gatherAnnotations (job : Job) : ApiProgram (StringMap × GoMap) := do
  let annotations := collectAIBOMAnnotations job.metadata.annotations
  let jobResults := GoMap.set job.metadata.name (jobResult job) none
  let jobsetName := GoMap.get jobsetLabel job.metadata.labels
  if jobsetName = "" then return (annotations, jobResults)
  else
    match ← list .job job.metadata.ns [(jobsetLabel, jobsetName)] with
    | .error _ => return (annotations, jobResults)
    | .ok siblingJobs =>
      return siblingJobs.foldl (fun (annotations, jobResults) sibling =>
        (if annotations.items.isEmpty then collectAIBOMAnnotations sibling.metadata.annotations else annotations,
          if (GoMap.lookup sibling.metadata.name jobResults).isSome then jobResults
          else GoMap.set sibling.metadata.name (jobResult sibling) jobResults)) (annotations, jobResults)

/-- Record the postprocess Job on the object it was made for. -/
def annotateTrigger (kind : Kind) (key : Key) (what : String) (result : Except PostprocessError String) :
    ApiProgram (Except PostprocessError Unit) :=
  match result with
  | .error error => return .error error
  | .ok postprocessName => do
    match ← patch kind key (.annotate annotationPostprocess postprocessName) with
    | .error error => return .error (.wrapped { message := what, cause := error })
    | .ok _ => return .ok ()

def Watcher.createPostprocessJob (w : Watcher) (job : Job) : ApiProgram (Except PostprocessError Unit) := do
  let pods ← gatherPods job
  let (annotations, jobResults) ← gatherAnnotations job
  let result ← w.createPostprocessJobCore job.metadata.ns job.metadata.name "Job" job.metadata.uid pods annotations
    jobResults
  annotateTrigger .job job.key "annotate original job" result

def Watcher.createPostprocessJobForPod (w : Watcher) (pod : Pod) : ApiProgram (Except PostprocessError Unit) := do
  let annotations := collectAIBOMAnnotations pod.metadata.annotations
  let result ← w.createPostprocessJobCore pod.metadata.ns pod.metadata.name "Pod" pod.metadata.uid [pod] annotations
    none
  annotateTrigger .pod pod.key "annotate original pod" result

/-! Collection. -/

def deleteWorkloadDataConfigMap (ns triggerName : String) : ApiProgram Unit := do
  let _ ← delete .configMap (ns, configMapName triggerName)
  return ()

def deleteWorkloadIdentity (ns triggerName : String) : ApiProgram Unit := do
  let name := workloadIdentityName triggerName
  let _ ← delete .serviceAccount (ns, name)
  let _ ← delete .role (ns, name)
  let _ ← delete .roleBinding (ns, name)
  let _ ← delete .secret (ns, name)
  return ()

/-- Whether the cached object of the name has another UID than the recorded one. -/
def replacedInCache (kind : Kind) (key : Key) (uid : String) : ApiProgram Bool := do
  match ← cached kind key with
  | none => return false
  | some current => return current.metadata.uid ≠ uid

def triggerReplaced (ppJob : Job) (ns name : String) : ApiProgram Bool :=
  let uid := GoMap.get annotationPostprocessTriggerUID ppJob.metadata.annotations
  let kind := GoMap.get annotationPostprocessTriggerKind ppJob.metadata.annotations
  if uid = "" then return false
  else if kind = "Job" then replacedInCache .job (ns, name) uid
  else if kind = "Pod" then replacedInCache .pod (ns, name) uid
  else return false

def postprocessFailedEvent (ns triggerName : String) (job : Job) : ApiProgram Unit := do
  let _ ← now
  let event : Object .event :=
    { metadata := { name := "", generateName := postprocessJobName ns triggerName ++ "-", ns := ns }
      content := { involvedNamespace := ns, involvedName := triggerName, type := "Warning"
                   reason := "AIBOMPostprocessFailed"
                   message := "AIBOM postprocessing failed; ask a cluster admin to check the logs of job/" ++
                     job.metadata.name ++ " in namespace " ++ job.metadata.ns } }
  let _ ← create event
  return ()

/-- The end of `collectAIBOM`: a failed Job is kept, any other removed with its inputs. -/
def retireJob (ns originalJobName : String) (job : Job) : ApiProgram Unit :=
  if jobResult job = "Failed" then postprocessFailedEvent ns originalJobName job
  else do
    let _ ← delete .job job.key
    let _ ← delete .configMap (job.metadata.ns, postprocessInputsConfigMapName job.metadata.name)
    return ()

def Watcher.collectAIBOM (w : Watcher) (job : Job) : ApiProgram Unit :=
  let originalJobName := GoMap.get labelPostprocessFor job.metadata.labels
  let workloadNamespace := GoMap.get labelPostprocessNamespace job.metadata.labels
  if originalJobName = "" ∨ workloadNamespace = "" then return ()
  else do
    let time ← now
    let _ ← patch .job job.key (.annotate annotationAIBOMCollected (w.codec.formatTime time))
    if w.debugKeepPostprocessJobs then return ()
    else do
      let replaced ← triggerReplaced job workloadNamespace originalJobName
      if replaced then retireJob workloadNamespace originalJobName job
      else do
        deleteWorkloadDataConfigMap workloadNamespace originalJobName
        deleteWorkloadIdentity workloadNamespace originalJobName
        retireJob workloadNamespace originalJobName job

end AibomWebhook.Postprocess
