import AibomWebhook.Writes

/-! The requests of the watcher's handlers once more, now as long as the API server
answers legally: an object that it returns is the one that was asked for. -/

namespace AibomWebhook.WatcherRequests
open Aibomdata Events Identity Kubernetes Objects Postprocess PostprocessData Requests Writes

def Legal : (request : Request) → Response request → Prop
  | .get _ key, .ok object => object.key = key
  | .create _ draft, .ok object => object.metadata.ns = draft.metadata.ns
  | _, _ => True

theorem legal_perform (uid : String) (time : Time) (cluster : Cluster) (request : Request) :
    Legal request (perform uid time cluster request).1 := by
  cases request with
  | get kind key =>
    simp only [perform]
    split
    · rename_i object found
      exact Keyed.key_of_find? found
    · trivial
  | create kind draft =>
    simp only [perform]
    split
    · trivial
    · exact rfl
  | _ => trivial

theorem legal_serve (circumstance : Circumstance) (cluster : Cluster) (request : Request) :
    Legal request (serve circumstance cluster request).1 := by
  unfold serve
  split
  · exact legal_perform _ _ _ _
  · cases request <;> trivial
  · cases request <;> trivial

/-! The creation of a postprocess Job. -/

def inputsKey (w : Watcher) (ns triggerName : String) : Key :=
  (w.ns, postprocessInputsConfigMapName (postprocessJobName ns triggerName))

/-- What a property of requests has to allow. -/
structure CorePermits (w : Watcher) (ns triggerName triggerUID : String) (allowed : Request → Prop) : Prop where
  reads : ∀ request, Reads request → allowed request
  clearsSlot : allowed (.delete .job (w.ns, postprocessJobName ns triggerName))
  clearsInputs : allowed (.delete .configMap (inputsKey w ns triggerName))
  createsInputs : ∀ data, allowed (.create .configMap
    (inputsConfigMap w.ns (postprocessInputsConfigMapName (postprocessJobName ns triggerName)) triggerName data))
  mergesInputs : ∀ cm : ConfigMap, cm.key = inputsKey w ns triggerName → allowed (.update .configMap cm)
  createsKey : ∀ secret : Secret, secret.key = (w.ns, compiledSigningKeySecretName ns) → allowed (.create .secret secret)
  launches : ∀ triggerKind, allowed (.create .job (w.postprocessJob ns triggerName triggerKind triggerUID))
  ownsInputs : ∀ owner, allowed (.patch .configMap (inputsKey w ns triggerName) (.setOwner owner))

section Core
variable {w : Watcher} {ns triggerName triggerUID : String} {allowed : Request → Prop}
  (permits : CorePermits w ns triggerName triggerUID allowed)
include permits

theorem reads_sends {α : Type} {program : ApiProgram α} (uses : program.Uses Reads) : program.Sends Legal allowed :=
  (uses.mono permits.reads).sends

theorem createDataConfigMap_sends (data : List (String × String)) :
    (createDataConfigMap w.ns (postprocessInputsConfigMapName (postprocessJobName ns triggerName)) triggerName
      data).Sends Legal allowed := by
  rw [createDataConfigMap, get_bind, Program.sends_call]
  refine ⟨permits.reads _ rfl, fun response legal => ?_⟩
  split
  · rw [create_bind, Program.sends_call]
    refine ⟨permits.createsInputs data, fun response _ => ?_⟩
    split <;> trivial
  · trivial
  · rw [update_bind, Program.sends_call]
    refine ⟨permits.mergesInputs _ legal, fun response _ => ?_⟩
    split <;> trivial

theorem ensureCompiledSigningKey_sends :
    (w.ensureCompiledSigningKey (compiledSigningKeySecretName ns)).Sends Legal allowed := by
  rw [Watcher.ensureCompiledSigningKey, generateKey_bind, Program.sends_call]
  refine ⟨permits.reads _ rfl, fun response _ => ?_⟩
  split
  · trivial
  · exact (ensure_uses _ (permits.createsKey _ rfl)).sends

theorem ownDataConfigMap_sends {owner : Job} (here : owner.metadata.ns = w.ns) :
    (ownDataConfigMap owner (postprocessInputsConfigMapName (postprocessJobName ns triggerName))).Sends Legal allowed := by
  unfold ownDataConfigMap
  split
  · trivial
  · rw [patch_bind, Program.sends_call, here]
    exact ⟨permits.ownsInputs _, fun _ _ => trivial⟩

theorem examineJobs_sends (jobs : List Job) :
    (w.examineJobs triggerUID (postprocessJobName ns triggerName)
      (postprocessInputsConfigMapName (postprocessJobName ns triggerName)) jobs).Sends Legal allowed := by
  induction jobs with
  | nil => trivial
  | cons old rest ih =>
    rw [Watcher.examineJobs]
    split
    · exact ih
    · rename_i named
      split
      · rw [delete_bind, Program.sends_call, not_ne_iff.mp named]
        refine ⟨permits.clearsSlot, fun _ _ => ?_⟩
        rw [delete_bind, Program.sends_call]
        exact ⟨permits.clearsInputs, fun _ _ => ih⟩
      · dsimp only
        split <;> trivial

theorem launchPostprocessJob_sends (triggerKind : String) (pods : List Pod) (annotations : StringMap)
    (jobResults : GoMap) :
    (w.launchPostprocessJob ns triggerName triggerKind triggerUID pods annotations jobResults).Sends Legal allowed := by
  unfold Watcher.launchPostprocessJob
  refine Program.Sends.bind (reads_sends permits (buildPostprocessInputs_uses w ns _ pods jobResults)) fun inputs => ?_
  refine Program.Sends.bind (createDataConfigMap_sends permits _) fun _ => ?_
  refine Program.Sends.bind (ensureCompiledSigningKey_sends permits) fun _ => ?_
  rw [create_bind, Program.sends_call]
  refine ⟨permits.launches triggerKind, fun response legal => ?_⟩
  split
  · exact Program.Sends.bind (ownDataConfigMap_sends permits legal) fun _ => trivial
  · trivial
  · trivial

theorem createPostprocessJobCore_sends (triggerKind : String) (pods : List Pod) (annotations : StringMap)
    (jobResults : GoMap) :
    (w.createPostprocessJobCore ns triggerName triggerKind triggerUID pods annotations jobResults).Sends Legal allowed := by
  unfold Watcher.createPostprocessJobCore Watcher.existingPostprocessJob
  rw [bind_assoc, list_bind, Program.sends_call]
  refine ⟨permits.reads _ rfl, fun response _ => ?_⟩
  refine Program.Sends.bind ?_ fun occupant => ?_
  · split
    · trivial
    · exact examineJobs_sends permits _
  · cases occupant with
    | otherRun => trivial
    | sameRun => trivial
    | neither => exact launchPostprocessJob_sends permits triggerKind pods annotations jobResults

end Core

/-! The handlers. -/

structure RunPermits (w : Watcher) {kind : Kind} (object : Object kind) (allowed : Request → Prop) : Prop where
  core : CorePermits w object.metadata.ns object.metadata.name object.metadata.uid allowed
  records : ∀ name, allowed (.patch kind object.key (.annotate annotationPostprocess name))
  countsRetry : ∀ n : Int, allowed (.patch kind object.key (.annotate annotationPostprocessRetries (toString n)))
  setsFinalizers : ∀ finalizers, allowed (.patch kind object.key (.setFinalizers finalizers none))
  dropsIdentity : kind = .job → ∀ part ∈ identityKinds,
    allowed (.delete part (object.metadata.ns, workloadIdentityName object.metadata.name))

section Handlers
variable {w : Watcher} {allowed : Request → Prop}

theorem annotateTrigger_sends {kind : Kind} {object : Object kind} (permits : RunPermits w object allowed)
    (what : String) (result : Except PostprocessError String) :
    (annotateTrigger kind object.key what result).Sends Legal allowed := by
  cases result with
  | error error => trivial
  | ok name =>
    rw [annotateTrigger, patch_bind, Program.sends_call]
    refine ⟨permits.records name, fun response _ => ?_⟩
    split <;> trivial

section Job
variable {job : Job} (permits : RunPermits w job allowed)
include permits

theorem releaseJob_sends : (if hasFinalizer job then removeFinalizer job else return ()).Sends Legal allowed := by
  split
  · exact (removeFinalizerFrom_uses finalizerName job permits.setsFinalizers).sends
  · trivial

theorem dropIdentity_sends : (deleteWorkloadIdentity job.metadata.ns job.metadata.name).Sends Legal allowed :=
  (deleteWorkloadIdentity_uses _ _ (permits.dropsIdentity rfl)).sends

theorem createPostprocessJob_sends : (w.createPostprocessJob job).Sends Legal allowed := by
  unfold Watcher.createPostprocessJob
  refine Program.Sends.bind (reads_sends permits.core (gatherPods_uses job)) fun pods => ?_
  refine Program.Sends.bind (reads_sends permits.core (gatherAnnotations_uses job)) fun gathered => ?_
  exact (createPostprocessJobCore_sends permits.core "Job" pods _ _).bind (annotateTrigger_sends permits _)

theorem watchJob_sends : (watchJob job).Sends Legal allowed := by
  unfold watchJob
  split
  · trivial
  · refine Program.Sends.bind (reads_sends permits.core (shouldPostprocess_uses job)) fun qualifies => ?_
    split
    · exact (addFinalizerTo_uses finalizerName job permits.setsFinalizers).sends
    · trivial

theorem afterJobFailure_sends (error : PostprocessError) : (afterJobFailure job error).Sends Legal allowed := by
  cases error with
  | postprocessBusy => trivial
  | wrapped error =>
    dsimp only [afterJobFailure]
    split
    · exact (dropIdentity_sends permits).bind fun _ => releaseJob_sends permits
    · exact (setPostprocessRetries_uses job _ permits.countsRetry).sends

theorem finishJob_sends : (finishJob w job).Sends Legal allowed := by
  unfold finishJob
  split
  · exact releaseJob_sends permits
  · split
    · trivial
    · refine Program.Sends.bind (reads_sends permits.core (shouldPostprocess_uses job)) fun qualifies => ?_
      split
      · exact (dropIdentity_sends permits).bind fun _ => releaseJob_sends permits
      · refine Program.Sends.bind (createPostprocessJob_sends permits) fun created => ?_
        cases created with
        | error error => exact afterJobFailure_sends permits error
        | ok _ => exact releaseJob_sends permits

/-- Of a Job that is not a postprocess Job. -/
theorem onJob_sends (workload : isPostprocessJob job = false) : (onJob w job).Sends Legal allowed := by
  rw [onJob, workload]
  refine Program.Sends.bind (reads_sends permits.core (namespaceLabel_uses _ _)) fun optedOut => ?_
  split
  · exact releaseJob_sends permits
  · refine Program.Sends.bind (reads_sends permits.core (namespaceLabel_uses _ _)) fun enabled => ?_
    split
    · trivial
    · split
      · exact watchJob_sends permits
      · exact finishJob_sends permits

end Job

section Pod
variable {pod : Pod} (permits : RunPermits w pod allowed)
include permits

theorem releasePod_sends : (if hasPodFinalizer pod then removePodFinalizer pod else return ()).Sends Legal allowed := by
  split
  · exact (removeFinalizerFrom_uses podFinalizerName pod permits.setsFinalizers).sends
  · trivial

theorem createPostprocessJobForPod_sends : (w.createPostprocessJobForPod pod).Sends Legal allowed := by
  unfold Watcher.createPostprocessJobForPod
  exact (createPostprocessJobCore_sends permits.core "Pod" [pod] _ none).bind (annotateTrigger_sends permits _)

theorem watchPod_sends : (watchPod pod).Sends Legal allowed := by
  unfold watchPod
  split
  · trivial
  · split
    · trivial
    · exact (addFinalizerTo_uses podFinalizerName pod permits.setsFinalizers).sends

theorem afterPodFailure_sends (error : PostprocessError) : (afterPodFailure pod error).Sends Legal allowed := by
  cases error with
  | postprocessBusy => trivial
  | wrapped error =>
    dsimp only [afterPodFailure]
    split
    · exact (removeFinalizerFrom_uses podFinalizerName pod permits.setsFinalizers).sends
    · exact (setPostprocessRetries_uses pod _ permits.countsRetry).sends

theorem finishPod_sends : (finishPod w pod).Sends Legal allowed := by
  unfold finishPod
  split
  · exact releasePod_sends permits
  · split
    · trivial
    · split
      · exact (removeFinalizerFrom_uses podFinalizerName pod permits.setsFinalizers).sends
      · refine Program.Sends.bind (createPostprocessJobForPod_sends permits) fun created => ?_
        cases created with
        | error error => exact afterPodFailure_sends permits error
        | ok _ => exact (removeFinalizerFrom_uses podFinalizerName pod permits.setsFinalizers).sends

theorem onPod_sends : (onPod w pod).Sends Legal allowed := by
  unfold onPod
  refine Program.Sends.bind (reads_sends permits.core (namespaceLabel_uses _ _)) fun optedOut => ?_
  split
  · exact releasePod_sends permits
  · refine Program.Sends.bind (reads_sends permits.core (namespaceLabel_uses _ _)) fun enabled => ?_
    split
    · trivial
    · split
      · trivial
      · split
        · trivial
        · split
          · exact watchPod_sends permits
          · exact finishPod_sends permits

end Pod

end Handlers

end AibomWebhook.WatcherRequests
