import AibomWebhook.Postprocess

/-! The watcher's event handlers (internal/watcher/watcher.go): when a Job or a bare
Pod gets the finalizer, is postprocessed, and is released. -/

namespace AibomWebhook.Events
open Aibomdata GoText Kubernetes Objects Postprocess PostprocessData Requests

def maxPostprocessRetries : Int := 5

def finalizerName : String := "aibom.io/log-extraction"

def podFinalizerName : String := "aibom.io/log-extraction-pod"

/-! Finalizers. -/

/-- The patch that drops one finalizer, unless it is not there. -/
def finalizerRemovalPatch (finalizers : List String) (remove : String) (resourceVersion : Option Nat) :
    Option MergePatch :=
  let remaining := finalizers.filter (· ≠ remove)
  if remaining.length = finalizers.length then none else some (.setFinalizers remaining resourceVersion)

theorem finalizerRemovalPatch_eq (finalizers : List String) (remove : String) (resourceVersion : Option Nat) :
    finalizerRemovalPatch finalizers remove resourceVersion =
      if remove ∈ finalizers then some (.setFinalizers (finalizers.filter (· ≠ remove)) resourceVersion) else none := by
  have shorter : (finalizers.filter (· ≠ remove)).length = finalizers.length ↔ remove ∉ finalizers := by
    rw [List.length_filter_eq_length_iff]
    constructor
    · intro all member
      exact absurd rfl (of_decide_eq_true (all remove member))
    · intro absent name member
      exact decide_eq_true fun same => absent (same ▸ member)
  by_cases present : remove ∈ finalizers
  · rw [if_pos present, finalizerRemovalPatch]
    exact if_neg fun same => shorter.mp same present
  · rw [if_neg present, finalizerRemovalPatch]
    exact if_pos (shorter.mpr present)

def holdsFinalizer {kind : Kind} (finalizer : String) (object : Object kind) : Bool :=
  object.metadata.finalizers.contains finalizer

def addFinalizerTo {kind : Kind} (finalizer : String) (object : Object kind) : ApiProgram Unit := do
  let _ ← patch kind object.key (.setFinalizers (object.metadata.finalizers ++ [finalizer]) none)
  return ()

def removeFinalizerFrom {kind : Kind} (finalizer : String) (object : Object kind) : ApiProgram Unit :=
  match finalizerRemovalPatch object.metadata.finalizers finalizer none with
  | none => return ()
  | some change => do
    let _ ← patch kind object.key change
    return ()

def hasFinalizer (job : Job) : Bool := holdsFinalizer finalizerName job

def addFinalizer (job : Job) : ApiProgram Unit := addFinalizerTo finalizerName job

def removeFinalizer (job : Job) : ApiProgram Unit := removeFinalizerFrom finalizerName job

def hasPodFinalizer (pod : Pod) : Bool := holdsFinalizer podFinalizerName pod

def addPodFinalizer (pod : Pod) : ApiProgram Unit := addFinalizerTo podFinalizerName pod

def removePodFinalizer (pod : Pod) : ApiProgram Unit := removeFinalizerFrom podFinalizerName pod

/-! Retries. -/

def postprocessRetryCount (annotations : GoMap) : Int :=
  (atoi (GoMap.get annotationPostprocessRetries annotations)).getD 0

/-- The count after one more failure. -/
def nextRetryCount (annotations : GoMap) : Int := int64 (postprocessRetryCount annotations + 1)

theorem postprocessRetryCount_range (annotations : GoMap) :
    -(2 ^ 63) ≤ postprocessRetryCount annotations ∧ postprocessRetryCount annotations < 2 ^ 63 := by
  rw [postprocessRetryCount]
  cases read : atoi (GoMap.get annotationPostprocessRetries annotations) with
  | none => decide
  | some n => exact atoi_range read

/-- Counting starts again from below once the largest number is reached. -/
theorem nextRetryCount_cases (annotations : GoMap) :
    (postprocessRetryCount annotations < 2 ^ 63 - 1 ∧ nextRetryCount annotations = postprocessRetryCount annotations + 1) ∨
      (postprocessRetryCount annotations = 2 ^ 63 - 1 ∧ nextRetryCount annotations = -(2 ^ 63)) := by
  obtain ⟨low, high⟩ := postprocessRetryCount_range annotations
  by_cases largest : postprocessRetryCount annotations = 2 ^ 63 - 1
  · refine Or.inr ⟨largest, ?_⟩
    rw [nextRetryCount, largest]
    rfl
  · exact Or.inl ⟨by omega, int64_eq (by omega) (by omega)⟩

def setPostprocessRetries {kind : Kind} (object : Object kind) (n : Int) : ApiProgram Unit := do
  let _ ← patch kind object.key (.annotate annotationPostprocessRetries (toString n))
  return ()

def setJobPostprocessRetries (job : Job) (n : Int) : ApiProgram Unit := setPostprocessRetries job n

def setPodPostprocessRetries (pod : Pod) (n : Int) : ApiProgram Unit := setPostprocessRetries pod n

/-! Which objects qualify. -/

/-- What a lookup of a namespace in the informer's cache says about its label. -/
def namespaceLabel (ns : String) (wanted : String → Bool) : ApiProgram Bool := do
  match ← cached .namespace ("", ns) with
  | none => return false
  | some found => return wanted (GoMap.get labelEnabled found.metadata.labels)

def isNamespaceOptedOut (ns : String) : ApiProgram Bool := namespaceLabel ns fun value => value ≠ "true"

def isNamespaceEnabled (ns : String) : ApiProgram Bool := namespaceLabel ns fun value => value = "true"

def isJobFinished (job : Job) : Bool := jobResult job ≠ ""

def hasAIBOMAnnotations (annotations : GoMap) : Bool := !(collectAIBOMAnnotations annotations).items.isEmpty

def shouldPostprocess (job : Job) : ApiProgram Bool := do
  match ← getInstrumentedPods job with
  | .error _ => return false
  | .ok pods =>
    if pods.isEmpty then return false
    else return podsRequestGPU pods || hasAIBOMAnnotations job.metadata.annotations

def shouldPostprocessPod (pod : Pod) : Bool :=
  podsRequestGPU [pod] || hasAIBOMAnnotations pod.metadata.annotations

/-! The handlers. -/

/-- What an informer hands to a handler: an object, or the last one known of a deleted one. -/
inductive Notification (kind : Kind) where
  | object (found : Object kind)
  | deletedFinalStateUnknown (last : Object kind)
  | unexpected

def Notification.object? {kind : Kind} (notification : Notification kind) : Option (Object kind) :=
  match notification with
  | object found => some found
  | deletedFinalStateUnknown last => some last
  | unexpected => none

/-- Path A of a Job: new or running. -/
def watchJob (job : Job) : ApiProgram Unit :=
  if hasFinalizer job then return ()
  else do
    let qualifies ← shouldPostprocess job
    if qualifies then addFinalizer job else return ()

/-- After a failed creation: wait, give up, or leave the finalizer for the next resync. -/
def afterJobFailure (job : Job) : PostprocessError → ApiProgram Unit
  | .postprocessBusy => return ()
  | .wrapped _ =>
    let retries := nextRetryCount job.metadata.annotations
    if retries ≥ maxPostprocessRetries then do
      deleteWorkloadIdentity job.metadata.ns job.metadata.name
      if hasFinalizer job then removeFinalizer job else return ()
    else setJobPostprocessRetries job retries

/-- Path B of a Job: complete or being deleted. -/
def finishJob (w : Watcher) (job : Job) : ApiProgram Unit :=
  if GoMap.get annotationPostprocess job.metadata.annotations ≠ "" then
    if hasFinalizer job then removeFinalizer job else return ()
  else if !hasFinalizer job && !isJobFinished job then return ()
  else do
    let qualifies ← shouldPostprocess job
    if !qualifies then do
      deleteWorkloadIdentity job.metadata.ns job.metadata.name
      if hasFinalizer job then removeFinalizer job else return ()
    else
      match ← w.createPostprocessJob job with
      | .error error => afterJobFailure job error
      | .ok _ => if hasFinalizer job then removeFinalizer job else return ()

def readyForPostprocess (job : Job) : Bool := isJobFinished job || job.metadata.deletionTimestamp.isSome

def isPostprocessJob (job : Job) : Bool := GoMap.get labelPostprocessFor job.metadata.labels ≠ ""

/-- A postprocess Job of our own: collected once it has finished. -/
def onPostprocessJob (w : Watcher) (job : Job) : ApiProgram Unit :=
  if job.metadata.ns = w.ns then
    if isJobFinished job && GoMap.get annotationAIBOMCollected job.metadata.annotations = "" then w.collectAIBOM job
    else return ()
  else return ()

def onJob (w : Watcher) (job : Job) : ApiProgram Unit :=
  if isPostprocessJob job then onPostprocessJob w job
  else do
    let optedOut ← isNamespaceOptedOut job.metadata.ns
    if optedOut then (if hasFinalizer job then removeFinalizer job else return ())
    else do
      let enabled ← isNamespaceEnabled job.metadata.ns
      if !enabled then return ()
      else if !readyForPostprocess job then watchJob job
      else finishJob w job

def onJobEvent (w : Watcher) (notification : Notification .job) : ApiProgram Unit :=
  match notification.object? with
  | none => return ()
  | some job => onJob w job

/-- Path A of a Pod. -/
def watchPod (pod : Pod) : ApiProgram Unit :=
  if hasPodFinalizer pod then return ()
  else if !shouldPostprocessPod pod then return ()
  else addPodFinalizer pod

def afterPodFailure (pod : Pod) : PostprocessError → ApiProgram Unit
  | .postprocessBusy => return ()
  | .wrapped _ =>
    let retries := nextRetryCount pod.metadata.annotations
    if retries ≥ maxPostprocessRetries then removePodFinalizer pod
    else setPodPostprocessRetries pod retries

/-- Path B of a Pod: being deleted. -/
def finishPod (w : Watcher) (pod : Pod) : ApiProgram Unit :=
  if GoMap.get annotationPostprocess pod.metadata.annotations ≠ "" then
    if hasPodFinalizer pod then removePodFinalizer pod else return ()
  else if !hasPodFinalizer pod then return ()
  else if !shouldPostprocessPod pod then removePodFinalizer pod
  else do
    match ← w.createPostprocessJobForPod pod with
    | .error error => afterPodFailure pod error
    | .ok _ => removePodFinalizer pod

/-- The Job controller labels every pod it creates; those are handled with their Job. -/
def ownedByJob (pod : Pod) : Bool := GoMap.get "batch.kubernetes.io/job-name" pod.metadata.labels ≠ ""

def onPod (w : Watcher) (pod : Pod) : ApiProgram Unit := do
  let optedOut ← isNamespaceOptedOut pod.metadata.ns
  if optedOut then (if hasPodFinalizer pod then removePodFinalizer pod else return ())
  else do
    let enabled ← isNamespaceEnabled pod.metadata.ns
    if !enabled then return ()
    else if ownedByJob pod then return ()
    else if GoMap.get labelInstrumented pod.metadata.labels ≠ "true" then return ()
    else if pod.metadata.deletionTimestamp.isNone then watchPod pod
    else finishPod w pod

def onPodEvent (w : Watcher) (notification : Notification .pod) : ApiProgram Unit :=
  match notification.object? with
  | none => return ()
  | some pod => onPod w pod

end AibomWebhook.Events
