import AibomWebhook.Events

/-! Which requests the watcher and the webhook may send, whatever they are answered:
what an event of a workload's Job or Pod may write, what the collection of a
postprocess Job may, and what the admission of a pod may. -/

namespace AibomWebhook.Writes
open Aibomdata Events Identity Kubernetes Objects Postprocess PostprocessData Requests

def Reads (request : Request) : Prop := request.writes = none

/-- Reading, or one of some writes. -/
def Only (writes : Request → Prop) (request : Request) : Prop := Reads request ∨ writes request

theorem Only.of_reads {α : Type} {writes : Request → Prop} {program : ApiProgram α} (uses : program.Uses Reads) :
    program.Uses (Only writes) := uses.mono fun _ reads => Or.inl reads

/-- The kinds of the four objects that are a workload's identity. -/
def identityKinds : List Kind := [.serviceAccount, .role, .roleBinding, .secret]

/-- Of `createPostprocessJobCore`. -/
inductive CoreWrites (w : Watcher) (ns triggerName triggerUID : String) : Request → Prop where
  | clearsSlot : CoreWrites w ns triggerName triggerUID (.delete .job (w.ns, postprocessJobName ns triggerName))
  | clearsInputs : CoreWrites w ns triggerName triggerUID
    (.delete .configMap (w.ns, postprocessInputsConfigMapName (postprocessJobName ns triggerName)))
  | createsInputs (data : List (String × String)) : CoreWrites w ns triggerName triggerUID
    (.create .configMap
      (inputsConfigMap w.ns (postprocessInputsConfigMapName (postprocessJobName ns triggerName)) triggerName data))
  | mergesInputs (cm : ConfigMap) : CoreWrites w ns triggerName triggerUID (.update .configMap cm)
  | createsKey (secret : Secret) : CoreWrites w ns triggerName triggerUID (.create .secret secret)
  | launches (triggerKind : String) : CoreWrites w ns triggerName triggerUID
    (.create .job (w.postprocessJob ns triggerName triggerKind triggerUID))
  | ownsInputs (place : Key) (owner : OwnerReference) : CoreWrites w ns triggerName triggerUID
    (.patch .configMap place (.setOwner owner))

/-- Of an event of a workload's Job or Pod. -/
inductive RunWrites (w : Watcher) {kind : Kind} (object : Object kind) : Request → Prop where
  | core {request : Request} (writes : CoreWrites w object.metadata.ns object.metadata.name object.metadata.uid request) :
    RunWrites w object request
  | records (name : String) : RunWrites w object (.patch kind object.key (.annotate annotationPostprocess name))
  | countsRetry (n : Int) : RunWrites w object
    (.patch kind object.key (.annotate annotationPostprocessRetries (toString n)))
  | setsFinalizers (finalizers : List String) : RunWrites w object
    (.patch kind object.key (.setFinalizers finalizers none))
  | dropsIdentity (part : Kind) (member : part ∈ identityKinds) (isJob : kind = .job) : RunWrites w object
    (.delete part (object.metadata.ns, workloadIdentityName object.metadata.name))

/-- Of the collection of a postprocess Job. -/
inductive CollectWrites (job : Job) : Request → Prop where
  | marks (time : String) : CollectWrites job (.patch .job job.key (.annotate annotationAIBOMCollected time))
  | dropsData : CollectWrites job (.delete .configMap (GoMap.get labelPostprocessNamespace job.metadata.labels,
    configMapName (GoMap.get labelPostprocessFor job.metadata.labels)))
  | dropsIdentity (part : Kind) (member : part ∈ identityKinds) : CollectWrites job
    (.delete part (GoMap.get labelPostprocessNamespace job.metadata.labels,
      workloadIdentityName (GoMap.get labelPostprocessFor job.metadata.labels)))
  | reports (event : Object .event) : CollectWrites job (.create .event event)
  | dropsJob : CollectWrites job (.delete .job job.key)
  | dropsInputs : CollectWrites job
    (.delete .configMap (job.metadata.ns, postprocessInputsConfigMapName job.metadata.name))

/-- Of the provisioning of a workload's identity. -/
inductive ProvisionWrites (ns triggerName : String) : Request → Prop where
  | configMap : ProvisionWrites ns triggerName (.create .configMap (dataConfigMap ns (configMapName triggerName)))
  | serviceAccount : ProvisionWrites ns triggerName
    (.create .serviceAccount (identityServiceAccount ns (workloadIdentityName triggerName)))
  | role : ProvisionWrites ns triggerName
    (.create .role (identityRole ns (workloadIdentityName triggerName) (configMapName triggerName)))
  | roleBinding : ProvisionWrites ns triggerName
    (.create .roleBinding (identityRoleBinding ns (workloadIdentityName triggerName)))
  | secret (token : String) : ProvisionWrites ns triggerName
    (.create .secret (tokenSecret ns (workloadIdentityName triggerName) token))

/-! The parts that all of them are made of. -/

section Parts
variable {allowed : Request → Prop}

theorem ensure_uses {kind : Kind} (object : Object kind) (permitted : allowed (.create kind object)) :
    (ensure object).Uses allowed := by
  rw [ensure, create_bind, Program.uses_call]
  refine ⟨permitted, fun response => ?_⟩
  split <;> trivial

theorem fetchSigningKey_uses (ns secretName dataKey : String) : (fetchSigningKey ns secretName dataKey).Uses Reads := by
  rw [fetchSigningKey, get_bind, Program.uses_call]
  refine ⟨rfl, fun response => ?_⟩
  split <;> trivial

theorem buildPostprocessInputs_uses (w : Watcher) (ns name : String) (pods : List Pod) (jobResults : GoMap) :
    (w.buildPostprocessInputs ns name pods jobResults).Uses Reads := by
  rw [Watcher.buildPostprocessInputs, get_bind, Program.uses_call]
  refine ⟨rfl, fun response => ?_⟩
  apply (fetchSigningKey_uses _ _ _).bind
  intro discovery
  apply (fetchSigningKey_uses _ _ _).bind
  intro dataset
  trivial

theorem createDataConfigMap_uses (ns name jobName : String) (data : List (String × String)) :
    (createDataConfigMap ns name jobName data).Uses (Only fun request =>
      request = .create .configMap (inputsConfigMap ns name jobName data) ∨ ∃ cm, request = .update .configMap cm) := by
  rw [createDataConfigMap, get_bind, Program.uses_call]
  refine ⟨Or.inl rfl, fun response => ?_⟩
  split
  · rw [create_bind, Program.uses_call]
    refine ⟨Or.inr (Or.inl rfl), fun response => ?_⟩
    split <;> trivial
  · trivial
  · rw [update_bind, Program.uses_call]
    refine ⟨Or.inr (Or.inr ⟨_, rfl⟩), fun response => ?_⟩
    split <;> trivial

theorem ensureCompiledSigningKey_uses (w : Watcher) (name : String) :
    (w.ensureCompiledSigningKey name).Uses (Only fun request => ∃ secret, request = .create .secret secret) := by
  rw [Watcher.ensureCompiledSigningKey, generateKey_bind, Program.uses_call]
  refine ⟨Or.inl rfl, fun response => ?_⟩
  split
  · trivial
  · exact ensure_uses _ (Or.inr ⟨_, rfl⟩)

theorem ownDataConfigMap_uses (owner : Job) (name : String) : (ownDataConfigMap owner name).Uses fun request : Request =>
    ∃ place change, request = .patch .configMap place (.setOwner change) := by
  unfold ownDataConfigMap
  split
  · trivial
  · rw [patch_bind, Program.uses_call]
    exact ⟨⟨_, _, rfl⟩, fun _ => trivial⟩

theorem removeFinalizerFrom_uses {kind : Kind} (finalizer : String) (object : Object kind)
    (permitted : ∀ finalizers, allowed (.patch kind object.key (.setFinalizers finalizers none))) :
    (removeFinalizerFrom finalizer object).Uses allowed := by
  rw [removeFinalizerFrom, finalizerRemovalPatch_eq]
  by_cases holds : finalizer ∈ object.metadata.finalizers
  · rw [if_pos holds]
    dsimp only
    rw [patch_bind, Program.uses_call]
    exact ⟨permitted _, fun _ => trivial⟩
  · rw [if_neg holds]
    trivial

theorem addFinalizerTo_uses {kind : Kind} (finalizer : String) (object : Object kind)
    (permitted : ∀ finalizers, allowed (.patch kind object.key (.setFinalizers finalizers none))) :
    (addFinalizerTo finalizer object).Uses allowed := by
  rw [addFinalizerTo, patch_bind, Program.uses_call]
  exact ⟨permitted _, fun _ => trivial⟩

theorem setPostprocessRetries_uses {kind : Kind} (object : Object kind) (n : Int)
    (permitted : ∀ n : Int, allowed (.patch kind object.key (.annotate annotationPostprocessRetries (toString n)))) :
    (setPostprocessRetries object n).Uses allowed := by
  rw [setPostprocessRetries, patch_bind, Program.uses_call]
  exact ⟨permitted n, fun _ => trivial⟩

theorem deleteWorkloadIdentity_uses (ns triggerName : String)
    (permitted : ∀ part ∈ identityKinds, allowed (.delete part (ns, workloadIdentityName triggerName))) :
    (deleteWorkloadIdentity ns triggerName).Uses allowed :=
  ⟨permitted .serviceAccount (by decide), fun _ => ⟨permitted .role (by decide), fun _ =>
    ⟨permitted .roleBinding (by decide), fun _ => ⟨permitted .secret (by decide), fun _ => trivial⟩⟩⟩⟩

theorem deleteWorkloadDataConfigMap_uses (ns triggerName : String)
    (permitted : allowed (.delete .configMap (ns, configMapName triggerName))) :
    (deleteWorkloadDataConfigMap ns triggerName).Uses allowed := ⟨permitted, fun _ => trivial⟩

theorem namespaceLabel_uses (ns : String) (wanted : String → Bool) : (namespaceLabel ns wanted).Uses Reads := by
  rw [namespaceLabel, cached_bind, Program.uses_call]
  refine ⟨rfl, fun response => ?_⟩
  split <;> trivial

theorem shouldPostprocess_uses (job : Job) : (shouldPostprocess job).Uses Reads := by
  rw [shouldPostprocess, getInstrumentedPods, list_bind, Program.uses_call]
  refine ⟨rfl, fun response => ?_⟩
  split
  · trivial
  · split <;> trivial

end Parts

/-! The creation of a postprocess Job. -/

section Core
variable (w : Watcher) (ns triggerName triggerKind triggerUID : String)

theorem examineJobs_uses (jobs : List Job) :
    (w.examineJobs triggerUID (postprocessJobName ns triggerName)
      (postprocessInputsConfigMapName (postprocessJobName ns triggerName)) jobs).Uses
        (Only (CoreWrites w ns triggerName triggerUID)) := by
  induction jobs with
  | nil => trivial
  | cons old rest ih =>
    rw [Watcher.examineJobs]
    split
    · exact ih
    · rename_i named
      split
      · have slot : CoreWrites w ns triggerName triggerUID (.delete .job (w.ns, old.metadata.name)) := by
          rw [not_ne_iff.mp named]
          exact .clearsSlot
        rw [delete_bind, Program.uses_call]
        refine ⟨Or.inr slot, fun _ => ?_⟩
        rw [delete_bind, Program.uses_call]
        exact ⟨Or.inr .clearsInputs, fun _ => ih⟩
      · dsimp only
        split <;> trivial

theorem existingPostprocessJob_uses :
    (w.existingPostprocessJob ns triggerName triggerUID (postprocessJobName ns triggerName)
      (postprocessInputsConfigMapName (postprocessJobName ns triggerName))).Uses
        (Only (CoreWrites w ns triggerName triggerUID)) := by
  rw [Watcher.existingPostprocessJob, list_bind, Program.uses_call]
  refine ⟨Or.inl rfl, fun response => ?_⟩
  split
  · trivial
  · exact examineJobs_uses w ns triggerName triggerUID _

variable (pods : List Pod) (annotations : StringMap) (jobResults : GoMap)

theorem launchPostprocessJob_uses :
    (w.launchPostprocessJob ns triggerName triggerKind triggerUID pods annotations jobResults).Uses
      (Only (CoreWrites w ns triggerName triggerUID)) := by
  unfold Watcher.launchPostprocessJob
  apply (Only.of_reads (buildPostprocessInputs_uses w ns _ pods jobResults)).bind
  intro inputs
  refine Program.Uses.bind ((createDataConfigMap_uses _ _ _ _).mono ?_) fun _ => ?_
  · rintro request (reads | rfl | ⟨cm, rfl⟩)
    · exact Or.inl reads
    · exact Or.inr (.createsInputs _)
    · exact Or.inr (.mergesInputs cm)
  refine Program.Uses.bind ((ensureCompiledSigningKey_uses w _).mono ?_) fun _ => ?_
  · rintro request (reads | ⟨secret, rfl⟩)
    · exact Or.inl reads
    · exact Or.inr (.createsKey secret)
  rw [create_bind, Program.uses_call]
  refine ⟨Or.inr (.launches triggerKind), fun response => ?_⟩
  split
  · refine Program.Uses.bind ((ownDataConfigMap_uses _ _).mono ?_) fun _ => trivial
    rintro request ⟨place, owner, rfl⟩
    exact Or.inr (.ownsInputs place owner)
  · trivial
  · trivial

theorem createPostprocessJobCore_uses :
    (w.createPostprocessJobCore ns triggerName triggerKind triggerUID pods annotations jobResults).Uses
      (Only (CoreWrites w ns triggerName triggerUID)) := by
  unfold Watcher.createPostprocessJobCore
  apply (existingPostprocessJob_uses w ns triggerName triggerUID).bind
  intro occupant
  cases occupant with
  | otherRun => trivial
  | sameRun => trivial
  | neither => exact launchPostprocessJob_uses w ns triggerName triggerKind triggerUID pods annotations jobResults

end Core

theorem gatherPods_uses (job : Job) : (gatherPods job).Uses Reads := by
  rw [gatherPods, getInstrumentedPods, list_bind, Program.uses_call]
  refine ⟨rfl, fun response => ?_⟩
  dsimp only
  split
  · trivial
  · rw [list_bind, Program.uses_call]
    refine ⟨rfl, fun response => ?_⟩
    split <;> trivial

theorem gatherAnnotations_uses (job : Job) : (gatherAnnotations job).Uses Reads := by
  unfold gatherAnnotations
  dsimp only
  split
  · trivial
  · rw [list_bind, Program.uses_call]
    refine ⟨rfl, fun response => ?_⟩
    split <;> trivial

section Run
variable (w : Watcher)

theorem core_uses_run {kind : Kind} (object : Object kind) (triggerKind : String) (pods : List Pod)
    (annotations : StringMap) (jobResults : GoMap) :
    (w.createPostprocessJobCore object.metadata.ns object.metadata.name triggerKind object.metadata.uid pods
      annotations jobResults).Uses (Only (RunWrites w object)) :=
  (createPostprocessJobCore_uses w _ _ _ _ _ _ _).mono fun _ => Or.imp_right RunWrites.core

theorem annotateTrigger_uses {kind : Kind} (object : Object kind) (what : String) (result : Except PostprocessError String) :
    (annotateTrigger kind object.key what result).Uses (Only (RunWrites w object)) := by
  cases result with
  | error error => trivial
  | ok name =>
    rw [annotateTrigger, patch_bind, Program.uses_call]
    refine ⟨Or.inr (.records name), fun response => ?_⟩
    split <;> trivial

theorem createPostprocessJob_uses (job : Job) : (w.createPostprocessJob job).Uses (Only (RunWrites w job)) := by
  unfold Watcher.createPostprocessJob
  apply (Only.of_reads (gatherPods_uses job)).bind
  intro pods
  apply (Only.of_reads (gatherAnnotations_uses job)).bind
  intro gathered
  exact (core_uses_run w job "Job" pods _ _).bind (annotateTrigger_uses w job _)

theorem createPostprocessJobForPod_uses (pod : Pod) :
    (w.createPostprocessJobForPod pod).Uses (Only (RunWrites w pod)) := by
  unfold Watcher.createPostprocessJobForPod
  exact (core_uses_run w pod "Pod" [pod] _ none).bind (annotateTrigger_uses w pod _)

theorem removeFinalizerFrom_uses_run {kind : Kind} (finalizer : String) (object : Object kind) :
    (removeFinalizerFrom finalizer object).Uses (Only (RunWrites w object)) :=
  removeFinalizerFrom_uses finalizer object fun finalizers => Or.inr (.setsFinalizers finalizers)

theorem addFinalizerTo_uses_run {kind : Kind} (finalizer : String) (object : Object kind) :
    (addFinalizerTo finalizer object).Uses (Only (RunWrites w object)) :=
  addFinalizerTo_uses finalizer object fun finalizers => Or.inr (.setsFinalizers finalizers)

theorem setPostprocessRetries_uses_run {kind : Kind} (object : Object kind) (n : Int) :
    (setPostprocessRetries object n).Uses (Only (RunWrites w object)) :=
  setPostprocessRetries_uses object n fun n => Or.inr (.countsRetry n)

theorem deleteWorkloadIdentity_uses_run (job : Job) :
    (deleteWorkloadIdentity job.metadata.ns job.metadata.name).Uses (Only (RunWrites w job)) :=
  deleteWorkloadIdentity_uses _ _ fun part member => Or.inr (.dropsIdentity part member rfl)

/-! The event handlers. -/

theorem releaseJob_uses (job : Job) :
    (if hasFinalizer job then removeFinalizer job else return ()).Uses (Only (RunWrites w job)) := by
  split
  · exact removeFinalizerFrom_uses_run w finalizerName job
  · trivial

theorem releasePod_uses (pod : Pod) :
    (if hasPodFinalizer pod then removePodFinalizer pod else return ()).Uses (Only (RunWrites w pod)) := by
  split
  · exact removeFinalizerFrom_uses_run w podFinalizerName pod
  · trivial

theorem watchJob_uses (job : Job) : (watchJob job).Uses (Only (RunWrites w job)) := by
  unfold watchJob
  split
  · trivial
  · apply (Only.of_reads (shouldPostprocess_uses job)).bind
    intro qualifies
    split
    · exact addFinalizerTo_uses_run w finalizerName job
    · trivial

theorem afterJobFailure_uses (job : Job) (error : PostprocessError) :
    (afterJobFailure job error).Uses (Only (RunWrites w job)) := by
  cases error with
  | postprocessBusy => trivial
  | wrapped error =>
    dsimp only [afterJobFailure]
    split
    · exact (deleteWorkloadIdentity_uses_run w job).bind fun _ => releaseJob_uses w job
    · exact setPostprocessRetries_uses_run w job _

theorem finishJob_uses (job : Job) : (finishJob w job).Uses (Only (RunWrites w job)) := by
  unfold finishJob
  split
  · exact releaseJob_uses w job
  · split
    · trivial
    · apply (Only.of_reads (shouldPostprocess_uses job)).bind
      intro qualifies
      split
      · exact (deleteWorkloadIdentity_uses_run w job).bind fun _ => releaseJob_uses w job
      · apply (createPostprocessJob_uses w job).bind
        intro created
        cases created with
        | error error => exact afterJobFailure_uses w job error
        | ok _ => exact releaseJob_uses w job

/-- Of a Job that is not a postprocess Job. -/
theorem onJob_uses (job : Job) (workload : isPostprocessJob job = false) :
    (onJob w job).Uses (Only (RunWrites w job)) := by
  rw [onJob, workload]
  apply (Only.of_reads (namespaceLabel_uses _ _)).bind
  intro optedOut
  split
  · exact releaseJob_uses w job
  · apply (Only.of_reads (namespaceLabel_uses _ _)).bind
    intro enabled
    split
    · trivial
    · split
      · exact watchJob_uses w job
      · exact finishJob_uses w job

theorem watchPod_uses (pod : Pod) : (watchPod pod).Uses (Only (RunWrites w pod)) := by
  unfold watchPod
  split
  · trivial
  · split
    · trivial
    · exact addFinalizerTo_uses_run w podFinalizerName pod

theorem afterPodFailure_uses (pod : Pod) (error : PostprocessError) :
    (afterPodFailure pod error).Uses (Only (RunWrites w pod)) := by
  cases error with
  | postprocessBusy => trivial
  | wrapped error =>
    dsimp only [afterPodFailure]
    split
    · exact removeFinalizerFrom_uses_run w podFinalizerName pod
    · exact setPostprocessRetries_uses_run w pod _

theorem finishPod_uses (pod : Pod) : (finishPod w pod).Uses (Only (RunWrites w pod)) := by
  unfold finishPod
  split
  · exact releasePod_uses w pod
  · split
    · trivial
    · split
      · exact removeFinalizerFrom_uses_run w podFinalizerName pod
      · apply (createPostprocessJobForPod_uses w pod).bind
        intro created
        cases created with
        | error error => exact afterPodFailure_uses w pod error
        | ok _ => exact removeFinalizerFrom_uses_run w podFinalizerName pod

theorem onPod_uses (pod : Pod) : (onPod w pod).Uses (Only (RunWrites w pod)) := by
  unfold onPod
  apply (Only.of_reads (namespaceLabel_uses _ _)).bind
  intro optedOut
  split
  · exact releasePod_uses w pod
  · apply (Only.of_reads (namespaceLabel_uses _ _)).bind
    intro enabled
    split
    · trivial
    · split
      · trivial
      · split
        · trivial
        · split
          · exact watchPod_uses w pod
          · exact finishPod_uses w pod

/-! Collection. -/

theorem replacedInCache_uses (kind : Kind) (key : Key) (uid : String) : (replacedInCache kind key uid).Uses Reads := by
  rw [replacedInCache, cached_bind, Program.uses_call]
  refine ⟨rfl, fun response => ?_⟩
  split <;> trivial

theorem triggerReplaced_uses (job : Job) (ns name : String) : (triggerReplaced job ns name).Uses Reads := by
  unfold triggerReplaced
  dsimp only
  split
  · trivial
  · split
    · exact replacedInCache_uses _ _ _
    · split
      · exact replacedInCache_uses _ _ _
      · trivial

theorem retireJob_uses (ns originalJobName : String) (job : Job) :
    (retireJob ns originalJobName job).Uses (Only (CollectWrites job)) := by
  unfold retireJob
  split
  · rw [postprocessFailedEvent, now_bind, Program.uses_call]
    refine ⟨Or.inl rfl, fun _ => ?_⟩
    rw [create_bind, Program.uses_call]
    exact ⟨Or.inr (.reports _), fun _ => trivial⟩
  · rw [delete_bind, Program.uses_call]
    refine ⟨Or.inr .dropsJob, fun _ => ?_⟩
    rw [delete_bind, Program.uses_call]
    exact ⟨Or.inr .dropsInputs, fun _ => trivial⟩

theorem collectAIBOM_uses (job : Job) : (w.collectAIBOM job).Uses (Only (CollectWrites job)) := by
  unfold Watcher.collectAIBOM
  dsimp only
  split
  · trivial
  · rw [now_bind, Program.uses_call]
    refine ⟨Or.inl rfl, fun time => ?_⟩
    rw [patch_bind, Program.uses_call]
    refine ⟨Or.inr (.marks _), fun _ => ?_⟩
    split
    · trivial
    · apply (Only.of_reads (triggerReplaced_uses job _ _)).bind
      intro replaced
      split
      · exact retireJob_uses _ _ job
      · refine Program.Uses.bind (deleteWorkloadDataConfigMap_uses _ _ (Or.inr .dropsData)) fun _ => ?_
        refine Program.Uses.bind (deleteWorkloadIdentity_uses _ _ fun part member =>
          Or.inr (.dropsIdentity part member)) fun _ => ?_
        exact retireJob_uses _ _ job

theorem onPostprocessJob_uses (job : Job) : (onPostprocessJob w job).Uses (Only fun request =>
    job.metadata.ns = w.ns ∧ CollectWrites job request) := by
  unfold onPostprocessJob
  split
  · rename_i own
    split
    · exact (collectAIBOM_uses w job).mono fun _ => Or.imp_right fun writes => ⟨own, writes⟩
    · trivial
  · trivial

/-! Provisioning. -/

theorem ensureWorkloadIdentity_uses (ns triggerName : String) :
    (ensureWorkloadIdentity ns triggerName (configMapName triggerName)).Uses (Only (ProvisionWrites ns triggerName)) := by
  unfold ensureWorkloadIdentity
  refine Program.Uses.bind (ensure_uses _ (Or.inr .configMap)) fun first => ?_
  split
  · trivial
  refine Program.Uses.bind (ensure_uses _ (Or.inr .serviceAccount)) fun second => ?_
  split
  · trivial
  refine Program.Uses.bind (ensure_uses _ (Or.inr .role)) fun third => ?_
  split
  · trivial
  refine Program.Uses.bind (ensure_uses _ (Or.inr .roleBinding)) fun fourth => ?_
  split
  · trivial
  rw [requestServiceAccountToken, createToken_bind, Program.uses_call]
  refine ⟨Or.inl rfl, fun fifth => ?_⟩
  split
  · trivial
  refine Program.Uses.bind (ensure_uses _ (Or.inr (.secret _))) fun sixth => ?_
  split <;> trivial

end Run

section Provisioned
variable {ns triggerName : String} {circumstance : Circumstance} {cluster : Cluster} {request : Request}

/-- What is stored afterwards was stored before, or is what was provisioned. -/
theorem found_provision {kind : Kind} {key : Key} (sent : Only (ProvisionWrites ns triggerName) request)
    {object : Object kind} (after : (serve circumstance cluster request).2.find kind key = some object) :
    cluster.find kind key = some object ∨ ∃ draft : Object kind, request = .create kind draft ∧
      (born circumstance.uid circumstance.time draft).key = key ∧ object.content = draft.content := by
  have comes := (serve_effect circumstance cluster request).comes after
  rcases sent with reads | writes
  · cases comes with
    | stayed => rename_i found; exact Or.inl found
    | created | updated | patched | deleted => cases reads
  · cases comes with
    | stayed => rename_i found; exact Or.inl found
    | created draft free named => exact Or.inr ⟨draft, rfl, named, rfl⟩
    | updated | patched | deleted => cases writes

theorem provisioned_role {draft : Object .role} (sent : Only (ProvisionWrites ns triggerName) (.create .role draft)) :
    draft = identityRole ns (workloadIdentityName triggerName) (configMapName triggerName) := by
  rcases sent with reads | writes
  · cases reads
  · generalize now : (Request.create .role draft) = request at writes
    cases writes with
    | role => injection now
    | configMap | serviceAccount | roleBinding | secret => cases now

theorem provisioned_binding {draft : Object .roleBinding}
    (sent : Only (ProvisionWrites ns triggerName) (.create .roleBinding draft)) :
    draft = identityRoleBinding ns (workloadIdentityName triggerName) := by
  rcases sent with reads | writes
  · cases reads
  · generalize now : (Request.create .roleBinding draft) = request at writes
    cases writes with
    | roleBinding => injection now
    | configMap | serviceAccount | role | secret => cases now

end Provisioned

end AibomWebhook.Writes
