import AibomWebhook.Creation
import AibomWebhook.Lifetime

/-! Whether the watcher lets go of a finished or deleted object within
`maxPostprocessRetries` events, whatever the creations of its postprocess Job return. -/

namespace AibomWebhook.FinalizerRelease
open Aibomdata Events Kubernetes Lifetime Objects Postprocess PostprocessData Requests Writes

/-- The namespace is found, and the watcher's own writes of the object succeed. -/
structure Diligent (kind : Kind) (key : Key) (answers : Answers) : Prop where
  finds : (answers.answer (.cached .namespace ("", key.1))).isSome = true
  effective : ∀ request, writesOwn kind key request = true → answers.takesEffect request = true
  accepted : ∀ change, ∃ object, answers.answer (.patch kind key change) = .ok object

/-- No postprocess Job of an earlier run is in the way. -/
def Unobstructed (w : Watcher) (key : Key) (uid : String) (answers : Answers) : Prop :=
  ∀ jobs, answers.answer (.list .job w.ns [(labelPostprocessFor, key.2), (labelPostprocessNamespace, key.1)]) = .ok jobs →
    ∀ old ∈ jobs, old.metadata.name = postprocessJobName key.1 key.2 → jobResult old = "Failed" ∨
      GoMap.get annotationPostprocessTriggerUID old.metadata.annotations = "" ∨
      GoMap.get annotationPostprocessTriggerUID old.metadata.annotations = uid

section Creation
variable {w : Watcher} {answers : Answers} {kind : Kind} {key : Key}

theorem examineJobs_not_busy {uid postprocessName inputsName : String} {jobs : List Job} {cluster : Cluster}
    (clear : ∀ old ∈ jobs, old.metadata.name = postprocessName → jobResult old = "Failed" ∨
      GoMap.get annotationPostprocessTriggerUID old.metadata.annotations = "" ∨
      GoMap.get annotationPostprocessTriggerUID old.metadata.annotations = uid) :
    ((w.examineJobs uid postprocessName inputsName jobs).run (answers.serve key kind) cluster).1 ≠ .otherRun := by
  induction jobs generalizing cluster with
  | nil => simp [Watcher.examineJobs]
  | cons old rest ih =>
    have later (cluster : Cluster) :
        ((w.examineJobs uid postprocessName inputsName rest).run (answers.serve key kind) cluster).1 ≠ .otherRun :=
      ih fun other member => clear other (List.mem_cons_of_mem _ member)
    rw [Watcher.examineJobs]
    split
    · exact later cluster
    · rename_i named
      split
      · exact later _
      · rename_i unfailed
        have own := (clear old List.mem_cons_self (not_ne_iff.mp named)).resolve_left unfailed
        dsimp only
        split
        · rename_i foreign
          rcases own with empty | same
          · exact absurd empty foreign.1
          · exact absurd same foreign.2
        · simp

theorem launch_not_busy {ns triggerName triggerKind triggerUID : String} {pods : List Pod} {annotations : StringMap}
    {jobResults : GoMap} {cluster : Cluster} :
    ((w.launchPostprocessJob ns triggerName triggerKind triggerUID pods annotations jobResults).run
      (answers.serve key kind) cluster).1 ≠ .error .postprocessBusy := by
  unfold Watcher.launchPostprocessJob
  simp only [Program.run_bind, create_bind, Program.run_call]
  split
  · simp [Program.run_bind]
  · simp
  · simp

theorem core_not_busy {triggerKind uid : String} {pods : List Pod} {annotations : StringMap} {jobResults : GoMap}
    {cluster : Cluster} (clear : Unobstructed w key uid answers) :
    ((w.createPostprocessJobCore key.1 key.2 triggerKind uid pods annotations jobResults).run
      (answers.serve key kind) cluster).1 ≠ .error .postprocessBusy := by
  unfold Watcher.createPostprocessJobCore
  simp only [Program.run_bind]
  have free : ((w.existingPostprocessJob key.1 key.2 uid (postprocessJobName key.1 key.2)
      (postprocessInputsConfigMapName (postprocessJobName key.1 key.2))).run (answers.serve key kind) cluster).1 ≠
        .otherRun := by
    rw [Watcher.existingPostprocessJob, list_bind, Program.run_call]
    split
    · simp
    · rename_i existing listed
      exact examineJobs_not_busy (clear existing listed)
  split
  · rename_i occupied
    exact absurd occupied free
  · simp
  · exact launch_not_busy

/-- A creation that fails leaves the object as it was. -/
theorem record_failed {object : Object kind} {triggerKind what : String} {pods : List Pod} {annotations : StringMap}
    {jobResults : GoMap} {cluster : Cluster} {error : PostprocessError} {finalizer : String}
    (isTrigger : kind = .job ∨ kind = .pod) (holds : holdsFinalizer finalizer object = true)
    (diligent : Diligent kind object.key answers) (stands : Stands object.key object cluster)
    (failed : ((w.createPostprocessJobCore object.metadata.ns object.metadata.name triggerKind object.metadata.uid
      pods annotations jobResults >>= annotateTrigger kind object.key what).run (answers.serve object.key kind) cluster).1 =
        .error error) :
    ((w.createPostprocessJobCore object.metadata.ns object.metadata.name triggerKind object.metadata.uid
      pods annotations jobResults).run (answers.serve object.key kind) cluster).1 = .error error ∧
    Stands object.key object ((w.createPostprocessJobCore object.metadata.ns object.metadata.name triggerKind
      object.metadata.uid pods annotations jobResults >>= annotateTrigger kind object.key what).run
        (answers.serve object.key kind) cluster).2 := by
  have spared : Stands object.key object ((w.createPostprocessJobCore object.metadata.ns object.metadata.name triggerKind
      object.metadata.uid pods annotations jobResults).run (answers.serve object.key kind) cluster).2 :=
    stands.run answers holds ((createPostprocessJobCore_uses w _ _ _ _ _ _ _).mono fun _ => core_spares isTrigger)
  rw [Program.run_bind] at failed ⊢
  generalize ((w.createPostprocessJobCore object.metadata.ns object.metadata.name triggerKind object.metadata.uid
    pods annotations jobResults).run (answers.serve object.key kind) cluster) = core at failed spared ⊢
  obtain ⟨result, after⟩ := core
  cases result with
  | error cause =>
    obtain rfl : cause = error := Except.error.inj failed
    exact ⟨rfl, spared⟩
  | ok name =>
    obtain ⟨patched, accepted⟩ := diligent.accepted (.annotate annotationPostprocess name)
    dsimp only [annotateTrigger] at failed
    rw [patch_bind, Program.run_call] at failed
    simp only [Answers.serve, accepted] at failed
    simp at failed

end Creation

/-! What the handlers do to the object. -/

section Object
variable {kind : Kind} {answers : Answers} {object : Object kind}

/-- The object after a failed attempt has been counted. -/
def retried (object : Object kind) : Object kind :=
  patched (.annotate annotationPostprocessRetries (toString (nextRetryCount object.metadata.annotations))) object

/-- What is left after one event: nothing to hold the object, or, of one whose
postprocess is pending, one more counted attempt. -/
def Progress (finalizer : String) (pending : Object kind → Prop) (object : Object kind) (cluster : Cluster) : Prop :=
  Released finalizer kind object.key cluster ∨
    pending object ∧ nextRetryCount object.metadata.annotations < maxPostprocessRetries ∧
      Stands object.key (retried object) cluster

theorem release_removes {finalizer : String} (holds : holdsFinalizer finalizer object = true)
    (diligent : Diligent kind object.key answers) (cluster : Cluster) :
    Released finalizer kind object.key
      ((removeFinalizerFrom finalizer object).run (answers.serve object.key kind) cluster).2 := by
  let remaining := object.metadata.finalizers.filter (· ≠ finalizer)
  have member : finalizer ∈ object.metadata.finalizers := by simpa [holdsFinalizer] using holds
  have removal : finalizerRemovalPatch object.metadata.finalizers finalizer none =
      some (.setFinalizers remaining none) := by rw [finalizerRemovalPatch_eq, if_pos member]
  have effective := diligent.effective (.patch kind object.key (.setFinalizers remaining none)) (by simp [writesOwn])
  rw [removeFinalizerFrom, removal]
  simp only [patch_bind, Program.run_call, Program.pure_eq, Program.run_done, Answers.serve, effective, Bool.and_true]
  rw [if_pos (by simp [writesOwn])]
  intro stored found
  cases before : cluster.find kind object.key with
  | none =>
    simp only [perform, before] at found
    exact absurd found (by simp)
  | some now =>
    rw [find_patch _ _ _ before rfl] at found
    split at found
    · exact absurd found (by simp)
    · obtain rfl := Option.some.inj found
      simp [holdsFinalizer, stamp, patched, MergePatch.apply, remaining]

theorem counting_stands {finalizer : String} (holds : holdsFinalizer finalizer object = true)
    (diligent : Diligent kind object.key answers) {cluster : Cluster} (stands : Stands object.key object cluster)
    (n : Int) : Stands object.key (patched (.annotate annotationPostprocessRetries (toString n)) object)
      ((setPostprocessRetries object n).run (answers.serve object.key kind) cluster).2 := by
  obtain ⟨now, found, alike⟩ := stands
  have effective := diligent.effective (.patch kind object.key (.annotate annotationPostprocessRetries (toString n)))
    (by simp [writesOwn])
  rw [setPostprocessRetries]
  simp only [patch_bind, Program.run_call, Program.pure_eq, Program.run_done, Answers.serve, effective, Bool.and_true]
  rw [if_pos (by simp [writesOwn])]
  have counted := alike.annotated annotationPostprocessRetries (toString n)
  have stays : released (patched (.annotate annotationPostprocessRetries (toString n)) now) = false :=
    not_released ((alike.holdsFinalizer finalizer).trans holds)
  have after := find_patch "" 0 (.annotate annotationPostprocessRetries (toString n)) found rfl
  rw [stays] at after
  exact ⟨_, after, counted.trans (alike_stamp _ _)⟩

theorem namespaceLabel_run {key : Key} (answers : Answers) (kind : Kind) (ns : String) (wanted : String → Bool)
    (cluster : Cluster) : (namespaceLabel ns wanted).run (answers.serve key kind) cluster =
      (match answers.answer (.cached .namespace ("", ns)) with
        | none => false
        | some found => wanted (GoMap.get labelEnabled found.metadata.labels), cluster) := by
  rw [namespaceLabel, cached_bind, Program.run_call]
  simp only [Answers.serve, writesOwn, Bool.false_and, Bool.false_eq_true, if_false]
  cases answers.answer (.cached .namespace ("", ns)) <;> rfl

end Object

/-! Jobs. -/

section Jobs
variable {w : Watcher} {job : Job} {answers : Answers}

def Pending (job : Job) : Prop := GoMap.get annotationPostprocess job.metadata.annotations = ""

/-- A Job that the watcher handles as a workload's, and has to let go of. -/
structure Due (job : Job) : Prop where
  workload : isPostprocessJob job = false
  holds : hasFinalizer job = true
  ready : readyForPostprocess job = true

theorem createPostprocessJob_failed {cluster : Cluster} {error : PostprocessError} (holds : hasFinalizer job = true)
    (diligent : Diligent .job job.key answers) (clear : Unobstructed w job.key job.metadata.uid answers)
    (stands : Stands job.key job cluster)
    (failed : ((w.createPostprocessJob job).run (answers.serve job.key .job) cluster).1 = .error error) :
    error ≠ .postprocessBusy ∧
      Stands job.key job ((w.createPostprocessJob job).run (answers.serve job.key .job) cluster).2 := by
  unfold Watcher.createPostprocessJob at failed ⊢
  rw [Program.run_bind, Program.run_bind] at failed ⊢
  have listed := stands.run answers holds ((gatherPods_uses job).mono fun _ => reads_spares)
  have gathered := listed.run answers holds ((gatherAnnotations_uses job).mono fun _ => reads_spares)
  obtain ⟨core, spared⟩ := record_failed (Or.inl rfl) holds diligent gathered failed
  refine ⟨?_, spared⟩
  rintro rfl
  exact core_not_busy clear core

theorem finishJob_progress {cluster : Cluster} (due : Due job) (diligent : Diligent .job job.key answers)
    (clear : Unobstructed w job.key job.metadata.uid answers) (stands : Stands job.key job cluster) :
    Progress finalizerName Pending job ((finishJob w job).run (answers.serve job.key .job) cluster).2 := by
  have releases : ∀ cluster, Released finalizerName .job job.key
      ((removeFinalizer job).run (answers.serve job.key .job) cluster).2 := release_removes due.holds diligent
  have listed := stands.run answers due.holds ((shouldPostprocess_uses job).mono fun _ => reads_spares)
  simp only [finishJob, due.holds, if_true, Bool.not_true, Bool.false_and, Bool.false_eq_true, if_false]
  split
  · exact Or.inl (releases cluster)
  · rename_i fresh
    rw [Program.run_bind]
    split
    · rw [Program.run_bind]
      exact Or.inl (releases _)
    · rw [Program.run_bind]
      split
      · rename_i error failed
        obtain ⟨notBusy, spared⟩ := createPostprocessJob_failed due.holds diligent clear listed failed
        cases error with
        | postprocessBusy => exact absurd rfl notBusy
        | wrapped cause =>
          simp only [afterJobFailure, due.holds, if_true]
          split
          · rw [Program.run_bind]
            exact Or.inl (releases _)
          · rename_i below
            exact Or.inr ⟨not_ne_iff.mp fresh, not_le.mp below, counting_stands due.holds diligent spared _⟩
      · exact Or.inl (releases _)

/-- One event lets go of the Job or counts one more attempt. -/
theorem onJob_progress {cluster : Cluster} (due : Due job) (diligent : Diligent .job job.key answers)
    (clear : Unobstructed w job.key job.metadata.uid answers) (stands : Stands job.key job cluster) :
    Progress finalizerName Pending job ((onJob w job).run (answers.serve job.key .job) cluster).2 := by
  obtain ⟨found, answer⟩ := Option.isSome_iff_exists.mp diligent.finds
  have label : answers.answer (.cached .namespace ("", job.metadata.ns)) = some found := answer
  simp only [onJob, due.workload, Bool.false_eq_true, if_false, Program.run_bind, isNamespaceOptedOut,
    isNamespaceEnabled, namespaceLabel_run, label, due.holds, if_true]
  split
  · exact Or.inl (release_removes due.holds diligent cluster)
  · rename_i optedIn
    rw [Program.run_bind, namespaceLabel_run, label]
    have enabled : GoMap.get labelEnabled found.metadata.labels = "true" := by simpa using optedIn
    simp only [enabled, decide_true, Bool.not_true, Bool.false_eq_true, if_false, due.ready]
    exact finishJob_progress due diligent clear stands

end Jobs

/-! Pods. -/

section Pods
variable {w : Watcher} {pod : Pod} {answers : Answers}

def PendingPod (pod : Pod) : Prop :=
  GoMap.get annotationPostprocess pod.metadata.annotations = "" ∧ shouldPostprocessPod pod = true

/-- A Pod that the watcher handles by itself, and has to let go of. -/
structure DuePod (pod : Pod) : Prop where
  alone : ownedByJob pod = false
  instrumented : GoMap.get labelInstrumented pod.metadata.labels = "true"
  holds : hasPodFinalizer pod = true
  deleting : pod.metadata.deletionTimestamp.isSome = true

theorem createPostprocessJobForPod_failed {cluster : Cluster} {error : PostprocessError} (holds : hasPodFinalizer pod = true)
    (diligent : Diligent .pod pod.key answers) (clear : Unobstructed w pod.key pod.metadata.uid answers)
    (stands : Stands pod.key pod cluster)
    (failed : ((w.createPostprocessJobForPod pod).run (answers.serve pod.key .pod) cluster).1 = .error error) :
    error ≠ .postprocessBusy ∧
      Stands pod.key pod ((w.createPostprocessJobForPod pod).run (answers.serve pod.key .pod) cluster).2 := by
  unfold Watcher.createPostprocessJobForPod at failed ⊢
  obtain ⟨core, spared⟩ := record_failed (Or.inr rfl) holds diligent stands failed
  refine ⟨?_, spared⟩
  rintro rfl
  exact core_not_busy clear core

theorem finishPod_progress {cluster : Cluster} (due : DuePod pod) (diligent : Diligent .pod pod.key answers)
    (clear : Unobstructed w pod.key pod.metadata.uid answers) (stands : Stands pod.key pod cluster) :
    Progress podFinalizerName PendingPod pod ((finishPod w pod).run (answers.serve pod.key .pod) cluster).2 := by
  have releases : ∀ cluster, Released podFinalizerName .pod pod.key
      ((removePodFinalizer pod).run (answers.serve pod.key .pod) cluster).2 := release_removes due.holds diligent
  simp only [finishPod, due.holds, if_true, Bool.not_true, Bool.false_eq_true, if_false]
  split
  · exact Or.inl (releases cluster)
  · rename_i fresh
    split
    · exact Or.inl (releases cluster)
    · rename_i qualifies
      rw [Program.run_bind]
      split
      · rename_i error failed
        obtain ⟨notBusy, spared⟩ := createPostprocessJobForPod_failed due.holds diligent clear stands failed
        cases error with
        | postprocessBusy => exact absurd rfl notBusy
        | wrapped cause =>
          simp only [afterPodFailure]
          split
          · exact Or.inl (releases _)
          · rename_i below
            exact Or.inr ⟨⟨not_ne_iff.mp fresh, by simpa using qualifies⟩, not_le.mp below,
              counting_stands due.holds diligent spared _⟩
      · exact Or.inl (releases _)

theorem onPod_progress {cluster : Cluster} (due : DuePod pod) (diligent : Diligent .pod pod.key answers)
    (clear : Unobstructed w pod.key pod.metadata.uid answers) (stands : Stands pod.key pod cluster) :
    Progress podFinalizerName PendingPod pod ((onPod w pod).run (answers.serve pod.key .pod) cluster).2 := by
  obtain ⟨found, answer⟩ := Option.isSome_iff_exists.mp diligent.finds
  have label : answers.answer (.cached .namespace ("", pod.metadata.ns)) = some found := answer
  have marked : pod.metadata.deletionTimestamp.isNone = false := by
    rw [← Option.not_isSome, due.deleting]
    rfl
  simp only [onPod, Program.run_bind, isNamespaceOptedOut, isNamespaceEnabled, namespaceLabel_run, label, due.holds,
    if_true]
  split
  · exact Or.inl (release_removes due.holds diligent cluster)
  · rename_i optedIn
    rw [Program.run_bind, namespaceLabel_run, label]
    have enabled : GoMap.get labelEnabled found.metadata.labels = "true" := by simpa using optedIn
    simp only [enabled, decide_true, Bool.not_true, Bool.false_eq_true, if_false, due.alone, due.instrumented, ne_eq,
      not_true_eq_false, marked]
    exact finishPod_progress due diligent clear stands

end Pods

/-! Runs. -/

/-- A change of status that does not undo that the object is due. -/
def StatusOnly : (kind : Kind) → (Content kind → Content kind) → Prop
  | .job, content => ∀ job : Job, isJobFinished job = true →
    isJobFinished { job with content := content job.content } = true
  | .pod, content => ∀ old, (content old).spec = old.spec
  | _, _ => True

def Allowed (w : Watcher) (kind : Kind) (key : Key) (uid : String) : Step kind → Prop
  | .event answers => Diligent kind key answers ∧ Unobstructed w key uid answers
  | .status content => StatusOnly kind content
  | .deletion _ => True

section Runs
variable {w : Watcher} {kind : Kind} {finalizer : String} {handle : Object kind → ApiProgram Unit}
  {due pending : Object kind → Prop}

/-- What a handler does to a due object in one event, and what keeps an object due. -/
structure Handler (w : Watcher) (finalizer : String) (handle : Object kind → ApiProgram Unit)
    (due pending : Object kind → Prop) : Prop where
  holds : ∀ object, due object → holdsFinalizer finalizer object = true
  progress : ∀ object answers cluster, due object → Diligent kind object.key answers →
    Unobstructed w object.key object.metadata.uid answers → Stands object.key object cluster →
    Progress finalizer pending object ((handle object).run (answers.serve object.key kind) cluster).2
  alike : ∀ first second, Alike first second → due first → due second ∧ (pending second → pending first)
  counted : ∀ object, due object → due (retried object)
  status : ∀ object content, StatusOnly kind content → due object →
    due { object with content := content object.content } ∧
      (pending { object with content := content object.content } → pending object)

/-- Within `maxPostprocessRetries` events the object has been let go of. -/
def ReleasedInTime (w : Watcher) (finalizer : String) (handle : Object kind → ApiProgram Unit) (object : Object kind)
    (cluster : Cluster) : Prop :=
  ∀ steps, (∀ step ∈ steps, Allowed w kind object.key object.metadata.uid step) → maxPostprocessRetries ≤ events steps →
    ∃ early, early <+: steps ∧ Released finalizer kind object.key (live handle object.key cluster early)

/-- A due object with at least `n` counted attempts, if its postprocess is pending, but not as many as an int can hold. -/
structure Waiting (due pending : Object kind → Prop) (key : Key) (uid : String) (n : Nat) (cluster : Cluster) : Prop where
  stored : ∃ now, cluster.find kind key = some now ∧ now.metadata.uid = uid ∧ due now ∧
    (pending now → n ≤ postprocessRetryCount now.metadata.annotations ∧
      postprocessRetryCount now.metadata.annotations ≠ 2 ^ 63 - 1)
  below : (n : Int) < maxPostprocessRetries

theorem retryCount_retried (object : Object kind) :
    postprocessRetryCount (retried object).metadata.annotations = nextRetryCount object.metadata.annotations := by
  have range := GoText.int64_range (postprocessRetryCount object.metadata.annotations + 1)
  have value : GoText.atoi (toString (nextRetryCount object.metadata.annotations)) =
      some (nextRetryCount object.metadata.annotations) := GoText.atoi_toString range.1 range.2
  conv_lhs => rw [postprocessRetryCount]
  simp only [retried, patched, MergePatch.apply, GoMap.get_set_self, value, Option.getD_some]

/-- One step lets go of the object or leaves it waiting, after an event with one attempt more. -/
theorem Waiting.step (spec : Handler w finalizer handle due pending) {key : Key} {uid : String} {n : Nat}
    {cluster : Cluster} {step : Step kind} (allowed : Allowed w kind key uid step)
    (waiting : Waiting due pending key uid n cluster) :
    Released finalizer kind key (act handle key cluster step) ∨
      Waiting due pending key uid (n + if step.isEvent then 1 else 0) (act handle key cluster step) := by
  obtain ⟨⟨now, found, own, isDue, counted⟩, below⟩ := waiting
  have here : now.key = key := Keyed.key_of_find? found
  subst here
  subst own
  cases step with
  | event answers =>
    simp only [act, found, Step.isEvent, if_true]
    rcases spec.progress now answers cluster isDue allowed.1 allowed.2 ⟨now, found, Alike.refl now⟩ with
      gone | ⟨isPending, room, after, stored, alike⟩
    · exact Or.inl gone
    · obtain ⟨attempts, smaller⟩ := counted isPending
      have small : maxPostprocessRetries = 5 := rfl
      obtain ⟨_, value⟩ := (nextRetryCount_cases now.metadata.annotations).resolve_right fun largest => smaller largest.1
      obtain ⟨dueAfter, _⟩ := spec.alike _ _ alike (spec.counted now isDue)
      refine Or.inr ⟨⟨after, stored, alike.uid, dueAfter, fun _ => ?_⟩, ?_⟩
      · rw [alike.annotations, retryCount_retried]
        push_cast
        omega
      · push_cast
        omega
  | status content =>
    obtain ⟨dueAfter, pendingAfter⟩ := spec.status now content allowed isDue
    have stays := not_released (spec.holds _ dueAfter)
    have written := find_write_self cluster { now with content := content now.content } stays
    obtain ⟨dueStamped, pendingStamped⟩ := spec.alike _ _ (alike_stamp (cluster.revision + 1) _) dueAfter
    simp only [act, found, Step.isEvent]
    exact Or.inr ⟨⟨_, written, rfl, dueStamped, fun isPending => counted (pendingAfter (pendingStamped isPending))⟩, below⟩
  | deletion time =>
    obtain ⟨after, stored, alike⟩ := Stands.delete "" time (spec.holds now isDue) ⟨now, found, Alike.refl now⟩
    obtain ⟨dueAfter, pendingAfter⟩ := spec.alike _ _ alike isDue
    refine Or.inr ⟨⟨after, stored, alike.uid, dueAfter, fun isPending => ?_⟩, below⟩
    rw [alike.annotations]
    exact counted (pendingAfter isPending)

theorem Waiting.released (spec : Handler w finalizer handle due pending) {key : Key} {uid : String} {n : Nat}
    {cluster : Cluster} {steps : List (Step kind)} (allowed : ∀ step ∈ steps, Allowed w kind key uid step)
    (enough : maxPostprocessRetries ≤ (n + events steps : Nat)) (waiting : Waiting due pending key uid n cluster) :
    ∃ early, early <+: steps ∧ Released finalizer kind key (live handle key cluster early) := by
  induction steps generalizing cluster n with
  | nil =>
    have below := waiting.below
    simp only [events, List.countP_nil, Nat.add_zero] at enough
    omega
  | cons step rest ih =>
    rcases waiting.step spec (allowed step List.mem_cons_self) with gone | later
    · exact ⟨[step], List.prefix_append [step] rest, gone⟩
    · have count : n + events (step :: rest) = n + (if step.isEvent then 1 else 0) + events rest := by
        simp only [events, List.countP_cons]
        omega
      rw [count] at enough
      obtain ⟨early, start, gone⟩ := ih (fun step member => allowed step (List.mem_cons_of_mem _ member)) enough later
      exact ⟨step :: early, List.cons_prefix_cons.mpr ⟨rfl, start⟩, gone⟩

/-- A count that five more failures take to `maxPostprocessRetries`. -/
def Countable (annotations : GoMap) : Prop :=
  0 ≤ postprocessRetryCount annotations ∧ postprocessRetryCount annotations ≠ 2 ^ 63 - 1

/-- A due object whose pending postprocess has such a count is let go of. -/
theorem Handler.released_in_time (spec : Handler w finalizer handle due pending) {object : Object kind} {cluster : Cluster}
    (found : cluster.find kind object.key = some object) (isDue : due object)
    (start : pending object → Countable object.metadata.annotations) : ReleasedInTime w finalizer handle object cluster := by
  intro steps allowed enough
  have waiting : Waiting due pending object.key object.metadata.uid 0 cluster :=
    ⟨⟨object, found, rfl, isDue, start⟩, by decide⟩
  exact waiting.released spec allowed (by simpa using enough)

end Runs

theorem jobHandler (w : Watcher) : Handler w finalizerName (onJob w) Due Pending where
  holds := fun _ due => due.holds
  progress := fun _ _ _ due diligent clear stands => onJob_progress due diligent clear stands
  alike := by
    intro first second alike due
    refine ⟨⟨?_, ?_, ?_⟩, ?_⟩
    · rw [isPostprocessJob, alike.labels]
      exact due.workload
    · exact (alike.holdsFinalizer finalizerName).trans due.holds
    · have ready := due.ready
      rw [readyForPostprocess, Bool.or_eq_true] at ready ⊢
      refine ready.imp (fun finished => ?_) alike.deletion
      rw [isJobFinished, jobResult, alike.content]
      exact finished
    · intro isPending
      rw [Pending, alike.annotations] at isPending
      exact isPending
  counted := fun _ due => ⟨due.workload, due.holds, due.ready⟩
  status := by
    intro job content statusOnly due
    refine ⟨⟨due.workload, due.holds, ?_⟩, id⟩
    have ready := due.ready
    rw [readyForPostprocess, Bool.or_eq_true] at ready ⊢
    exact ready.imp (statusOnly job) id

theorem podHandler (w : Watcher) : Handler w podFinalizerName (onPod w) DuePod PendingPod where
  holds := fun _ due => due.holds
  progress := fun _ _ _ due diligent clear stands => onPod_progress due diligent clear stands
  alike := by
    intro first second alike due
    refine ⟨⟨?_, ?_, ?_, alike.deletion due.deleting⟩, ?_⟩
    · rw [ownedByJob, alike.labels]
      exact due.alone
    · rw [alike.labels]
      exact due.instrumented
    · exact (alike.holdsFinalizer podFinalizerName).trans due.holds
    · intro isPending
      have same : second.content = first.content := alike.content
      simp only [PendingPod, shouldPostprocessPod, podsRequestGPU, Pod.spec, List.any_cons, List.any_nil, same,
        alike.annotations] at isPending ⊢
      exact isPending
  counted := fun _ due => ⟨due.alone, due.instrumented, due.holds, due.deleting⟩
  status := by
    intro pod content statusOnly due
    refine ⟨⟨due.alone, due.instrumented, due.holds, due.deleting⟩, ?_⟩
    have same : (content pod.content).spec = pod.content.spec := statusOnly pod.content
    simp only [PendingPod, shouldPostprocessPod, podsRequestGPU, Pod.spec, List.any_cons, List.any_nil, same]
    exact id

/-! An API server that grants everything but the creation of postprocess Jobs. -/

def grudging : Answers where
  answer
    | .cached .namespace _ => some enabledNamespace
    | .list .pod _ _ => .ok [gpuPod]
    | .patch kind _ _ => .ok (blank kind)
    | request => failed "quota exceeded" 0 request
  takesEffect := fun _ => true

theorem grudging_allowed (w : Watcher) (kind : Kind) (key : Key) (uid : String) :
    Allowed w kind key uid (.event grudging) :=
  ⟨⟨rfl, fun _ _ => rfl, fun _ => ⟨_, rfl⟩⟩, fun _ listed => absurd listed (by simp [grudging, failed])⟩

theorem grudging_optedIn (kind : Kind) (key : Key) (ns : String) (cluster : Cluster) :
    (isNamespaceOptedOut ns).run (grudging.serve key kind) cluster = (false, cluster) := by
  rw [isNamespaceOptedOut, namespaceLabel_run]
  rfl

theorem grudging_enabled (kind : Kind) (key : Key) (ns : String) (cluster : Cluster) :
    (isNamespaceEnabled ns).run (grudging.serve key kind) cluster = (true, cluster) := by
  rw [isNamespaceEnabled, namespaceLabel_run]
  rfl

/-- The reason that every creation fails for. -/
def quota : PostprocessError := .wrapped { message := "create postprocess job", cause := .other "quota exceeded" }

theorem core_grudging (w : Watcher) (kind : Kind) (key : Key) (ns triggerName triggerKind uid : String) (pods : List Pod)
    (annotations : StringMap) (jobResults : GoMap) (cluster : Cluster) :
    ((w.createPostprocessJobCore ns triggerName triggerKind uid pods annotations jobResults).run
      (grudging.serve key kind) cluster).1 = .error quota := by
  unfold Watcher.createPostprocessJobCore
  simp only [Program.run_bind, Watcher.existingPostprocessJob, list_bind, Program.run_call, Answers.serve, grudging,
    failed, Program.pure_eq, Program.run_done]
  unfold Watcher.launchPostprocessJob
  simp only [Program.run_bind, create_bind, Program.run_call]
  rfl

section Necessity
variable {kind : Kind} {finalizer : String} {handle : Object kind → ApiProgram Unit}

theorem not_released_of_stored {key : Key} {cluster : Cluster} {object : Object kind}
    (found : cluster.find kind key = some object) (holds : holdsFinalizer finalizer object = true) :
    ¬ Released finalizer kind key cluster := fun gone => absurd (gone object found) (by simp [holds])

/-- Grudging events that keep the object waiting, one attempt fewer left each time, do
not let go of it. -/
theorem not_released_in_time {w : Watcher} {object : Object kind} {cluster : Cluster} (waits : Nat → Cluster → Prop)
    (blocks : ∀ n now, waits n now → ¬ Released finalizer kind object.key now)
    (kept : ∀ n now, waits (n + 1) now → waits n (act handle object.key now (.event grudging)))
    (start : waits 5 cluster) : ¬ ReleasedInTime w finalizer handle object cluster := by
  have stuck : ∀ n now early, waits n now → early <+: List.replicate n (.event grudging) →
      ¬ Released finalizer kind object.key (live handle object.key now early) := by
    intro n
    induction n with
    | zero =>
      intro now early waiting start
      obtain rfl := List.prefix_nil.mp start
      exact blocks 0 now waiting
    | succ n ih =>
      intro now early waiting start
      cases early with
      | nil => exact blocks (n + 1) now waiting
      | cons step rest =>
        obtain ⟨rfl, later⟩ := List.cons_prefix_cons.mp start
        exact ih _ rest (kept n now waiting) later
  intro inTime
  obtain ⟨early, prefixed, gone⟩ := inTime (List.replicate 5 (.event grudging))
    (fun step member => by
      obtain rfl := List.eq_of_mem_replicate member
      exact grudging_allowed w kind _ _)
    (by
      have five : events (List.replicate 5 (.event grudging) : List (Step kind)) = 5 := rfl
      rw [five]
      decide)
  exact stuck 5 cluster early start prefixed gone

/-- The object is stored, due and pending, and its count stays low for `n` events, or starts again from below. -/
def Low (due pending : Object kind → Prop) (key : Key) (n : Nat) (cluster : Cluster) : Prop :=
  ∃ now, cluster.find kind key = some now ∧ due now ∧ pending now ∧ n ≤ 5 ∧
    (postprocessRetryCount now.metadata.annotations + n < maxPostprocessRetries ∨
      postprocessRetryCount now.metadata.annotations = 2 ^ 63 - 1)

theorem low_not_released {due pending : Object kind → Prop} {w : Watcher} (spec : Handler w finalizer handle due pending)
    {object : Object kind} {cluster : Cluster} (found : cluster.find kind object.key = some object) (isDue : due object)
    (isPending : pending object) (uncountable : ¬ Countable object.metadata.annotations)
    (again : ∀ object, pending object → pending (retried object))
    (alike : ∀ first second : Object kind, Alike first second → pending first → pending second)
    (counts : ∀ object cluster, due object → pending object →
      nextRetryCount object.metadata.annotations < maxPostprocessRetries → cluster.find kind object.key = some object →
      Stands object.key (retried object) ((handle object).run (grudging.serve object.key kind) cluster).2) :
    ¬ ReleasedInTime w finalizer handle object cluster := by
  have small : maxPostprocessRetries = 5 := rfl
  refine not_released_in_time (Low due pending object.key) ?_ ?_ ⟨object, found, isDue, isPending, Nat.le_refl 5, ?_⟩
  · rintro n cluster ⟨now, stored, dueNow, _⟩
    exact not_released_of_stored stored (spec.holds now dueNow)
  · rintro n cluster ⟨now, stored, dueNow, pendingNow, few, room⟩
    have here : now.key = object.key := Keyed.key_of_find? stored
    have next := nextRetryCount_cases now.metadata.annotations
    push_cast at room
    have below : nextRetryCount now.metadata.annotations < maxPostprocessRetries := by omega
    obtain ⟨after, found, same⟩ := counts now cluster dueNow pendingNow below (here ▸ stored)
    rw [here] at found
    simp only [act, stored]
    rw [← here] at found ⊢
    refine ⟨after, found, (spec.alike _ _ same (spec.counted now dueNow)).1, alike _ _ same (again now pendingNow),
      by omega, Or.inl ?_⟩
    rw [same.annotations, retryCount_retried]
    omega
  · rw [Countable, not_and_or, not_le, not_not] at uncountable
    push_cast
    omega

end Necessity

/-! Jobs. -/

section
variable {w : Watcher} {job : Job} {cluster : Cluster}

/-- A finished Job of a GPU pod whose creation fails has the attempt counted. -/
theorem onJob_counts (due : Due job) (isPending : Pending job)
    (room : nextRetryCount job.metadata.annotations < maxPostprocessRetries)
    (found : cluster.find .job job.key = some job) :
    Stands job.key (retried job) ((onJob w job).run (grudging.serve job.key .job) cluster).2 := by
  obtain ⟨diligent, clear⟩ := grudging_allowed w .job job.key job.metadata.uid
  have stands : Stands job.key job cluster := ⟨job, found, Alike.refl job⟩
  have listed := stands.run grudging due.holds ((shouldPostprocess_uses job).mono fun _ => reads_spares)
  have fresh : GoMap.get annotationPostprocess job.metadata.annotations = "" := isPending
  have failure : ∀ cluster, ((w.createPostprocessJob job).run (grudging.serve job.key .job) cluster).1 = .error quota := by
    intro cluster
    unfold Watcher.createPostprocessJob
    simp only [Program.run_bind, core_grudging]
    rfl
  obtain ⟨_, spared⟩ := createPostprocessJob_failed (w := w) due.holds diligent clear listed (failure _)
  have qualifies : ((shouldPostprocess job).run (grudging.serve job.key .job) cluster).1 = true := by
    rw [shouldPostprocess, getInstrumentedPods, list_bind, Program.run_call]
    have gpu : podsRequestGPU [gpuPod] = true := by decide
    simp [Answers.serve, grudging, gpu]
  have below : ¬ nextRetryCount job.metadata.annotations ≥ maxPostprocessRetries := not_le.mpr room
  simp only [onJob, due.workload, Bool.false_eq_true, if_false, Program.run_bind, grudging_optedIn, grudging_enabled, due.ready,
    Bool.not_true, finishJob, fresh, ne_eq, not_true_eq_false, due.holds, Bool.false_and, qualifies, failure, quota,
    afterJobFailure, below]
  exact counting_stands due.holds diligent spared _

theorem uncountable_job_not_released (found : cluster.find .job job.key = some job) (due : Due job)
    (isPending : Pending job) (uncountable : ¬ Countable job.metadata.annotations) :
    ¬ ReleasedInTime w finalizerName (onJob w) job cluster := by
  refine low_not_released (jobHandler w) found due isPending uncountable ?_ ?_ ?_
  · intro object pendingNow
    exact (GoMap.get_set_of_ne (by decide) _ _).trans pendingNow
  · intro first second alike pendingNow
    rw [Pending, alike.annotations]
    exact pendingNow
  · intro object cluster dueNow pendingNow room stored
    exact onJob_counts dueNow pendingNow room stored

/-- A Job that is taken for a postprocess Job, and has the finalizer. -/
def Claiming (key : Key) (cluster : Cluster) : Prop :=
  ∃ now, cluster.find .job key = some now ∧ isPostprocessJob now = true ∧ hasFinalizer now = true

/-- Collecting a Job never touches finalizers. -/
theorem Claiming.collect {key : Key} {object : Job} {request : Request}
    (only : Only (fun request => object.metadata.ns = w.ns ∧ CollectWrites object request) request) (answers : Answers)
    (claiming : Claiming key cluster) : Claiming key (answers.serve key .job cluster request).2 := by
  obtain ⟨now, found, claims, holds⟩ := claiming
  have here : now.key = key := Keyed.key_of_find? found
  simp only [Answers.serve]
  split
  · rename_i performed
    rw [Bool.and_eq_true] at performed
    rcases only with reads | ⟨_, writes⟩
    · cases request with
      | patch other place change => exact absurd reads (by simp [Reads, Request.writes])
      | delete other place => exact absurd reads (by simp [Reads, Request.writes])
      | _ => exact absurd performed.1 Bool.false_ne_true
    · cases writes with
      | marks time =>
        have place : object.key = key := by simpa [writesOwn] using performed.1
        have stays : released (patched (.annotate annotationAIBOMCollected time) now) = false := not_released holds
        have after := find_patch "" 0 (.annotate annotationAIBOMCollected time) found rfl
        rw [stays, if_neg Bool.false_ne_true] at after
        rw [place]
        exact ⟨_, after, claims, holds⟩
      | dropsJob =>
        have place : object.key = key := by simpa [writesOwn] using performed.1
        obtain ⟨after, stored, alike⟩ := Stands.delete "" 0 holds ⟨now, found, Alike.refl now⟩
        refine ⟨after, place ▸ stored, ?_, (alike.holdsFinalizer finalizerName).trans holds⟩
        rw [isPostprocessJob, alike.labels]
        exact claims
      | dropsIdentity part member =>
        have same : part = .job := (by simpa [writesOwn] using performed.1 : part = .job ∧ _).1
        exact absurd member (by rw [same]; decide)
      | dropsData | reports | dropsInputs => exact absurd performed.1 (by simp [writesOwn])
  · exact ⟨now, found, claims, holds⟩

theorem claiming_not_released (found : cluster.find .job job.key = some job) (holds : hasFinalizer job = true)
    (claims : isPostprocessJob job = true) : ¬ ReleasedInTime w finalizerName (onJob w) job cluster := by
  refine not_released_in_time (fun _ => Claiming job.key) ?_ ?_ ⟨job, found, claims, holds⟩
  · rintro _ cluster ⟨now, stored, _, held⟩
    exact not_released_of_stored stored held
  · rintro _ cluster ⟨now, stored, claimed, held⟩
    simp only [act, stored, onJob, claimed, if_true]
    exact (onPostprocessJob_uses w now).run _ (fun _ _ only claiming => claiming.collect only grudging)
      ⟨now, stored, claimed, held⟩

end

/-! Pods. -/

section
variable {w : Watcher} {pod : Pod} {cluster : Cluster}

/-- The watcher's own annotations are not of the user's under `aibom.io/`. -/
theorem hasAIBOMAnnotations_set {name : String} (annotations : GoMap) (value : String)
    (own : ∃ stripped ∈ internalAnnotationKeys, GoText.cutPrefix annotationPrefix name = some stripped) :
    hasAIBOMAnnotations (GoMap.set name value annotations) = hasAIBOMAnnotations annotations := by
  obtain ⟨stripped, internal, cut⟩ := own
  have kept : ∀ entry : String × String, entry.1 ≠ name →
      (entry ∈ GoMap.entries (GoMap.set name value annotations) ↔ entry ∈ GoMap.entries annotations) := by
    intro entry other
    simp only [GoMap.entries, GoMap.set, Option.getD_some, Keyed.mem_items_iff, Keyed.find?_put]
    rw [if_neg (Ne.symm other)]
  have same (keep : String × String → Option (String × String)) (drops : ∀ value, keep (name, value) = none) :
      (GoMap.entries (GoMap.set name value annotations)).filterMap keep = [] ↔
        (GoMap.entries annotations).filterMap keep = [] := by
    simp only [List.filterMap_eq_nil_iff]
    constructor <;>
      · intro none entry member
        by_cases here : entry.1 = name
        · have own : entry = (name, entry.2) := Prod.ext here rfl
          rw [own]
          exact drops entry.2
        · exact none entry (by simpa [kept entry here] using member)
  rw [hasAIBOMAnnotations, hasAIBOMAnnotations, collectAIBOMAnnotations, collectAIBOMAnnotations,
    Keyed.isEmpty_ofList, Keyed.isEmpty_ofList]
  congr 1
  rw [Bool.eq_iff_iff, List.isEmpty_iff, List.isEmpty_iff]
  apply same
  intro value
  simp [cut, internal]

theorem pendingPod_retried (isPending : PendingPod pod) : PendingPod (retried pod) := by
  have annotated : GoMap.get annotationPostprocess (retried pod).metadata.annotations =
      GoMap.get annotationPostprocess pod.metadata.annotations := GoMap.get_set_of_ne (by decide) _ _
  have gpu : podsRequestGPU [retried pod] = podsRequestGPU [pod] := rfl
  have aibom : hasAIBOMAnnotations (retried pod).metadata.annotations = hasAIBOMAnnotations pod.metadata.annotations :=
    hasAIBOMAnnotations_set _ _ ⟨"postprocess-retries", by decide, by decide⟩
  rw [PendingPod, shouldPostprocessPod, annotated, gpu, aibom]
  exact isPending

theorem onPod_counts (due : DuePod pod) (isPending : PendingPod pod)
    (room : nextRetryCount pod.metadata.annotations < maxPostprocessRetries)
    (found : cluster.find .pod pod.key = some pod) :
    Stands pod.key (retried pod) ((onPod w pod).run (grudging.serve pod.key .pod) cluster).2 := by
  obtain ⟨diligent, clear⟩ := grudging_allowed w .pod pod.key pod.metadata.uid
  have stands : Stands pod.key pod cluster := ⟨pod, found, Alike.refl pod⟩
  have marked : pod.metadata.deletionTimestamp.isNone = false := by
    rw [← Option.not_isSome, due.deleting]
    rfl
  have failure : ((w.createPostprocessJobForPod pod).run (grudging.serve pod.key .pod) cluster).1 = .error quota := by
    unfold Watcher.createPostprocessJobForPod
    simp only [Program.run_bind, core_grudging]
    rfl
  obtain ⟨_, spared⟩ := createPostprocessJobForPod_failed (w := w) due.holds diligent clear stands failure
  have below : ¬ nextRetryCount pod.metadata.annotations ≥ maxPostprocessRetries := not_le.mpr room
  simp only [onPod, Program.run_bind, grudging_optedIn, grudging_enabled, Bool.not_true, Bool.false_eq_true, if_false, due.alone,
    due.instrumented, ne_eq, not_true_eq_false, marked, finishPod, isPending.1, due.holds, isPending.2, failure, quota,
    afterPodFailure, below]
  exact counting_stands due.holds diligent spared _

theorem uncountable_pod_not_released (found : cluster.find .pod pod.key = some pod) (due : DuePod pod)
    (isPending : PendingPod pod) (uncountable : ¬ Countable pod.metadata.annotations) :
    ¬ ReleasedInTime w podFinalizerName (onPod w) pod cluster := by
  refine low_not_released (podHandler w) found due isPending uncountable ?_ ?_ ?_
  · intro object pendingNow
    exact pendingPod_retried pendingNow
  · intro first second alike pendingNow
    have same : second.content = first.content := alike.content
    simp only [PendingPod, shouldPostprocessPod, podsRequestGPU, Pod.spec, List.any_cons, List.any_nil, same,
      alike.annotations] at pendingNow ⊢
    exact pendingNow
  · intro object cluster dueNow pendingNow room stored
    exact onPod_counts dueNow pendingNow room stored

/-- A Pod that another handler is to see to, or that is not instrumented, is only looked at. -/
theorem stray_not_released (found : cluster.find .pod pod.key = some pod) (holds : hasPodFinalizer pod = true)
    (stray : ownedByJob pod = true ∨ GoMap.get labelInstrumented pod.metadata.labels ≠ "true") :
    ¬ ReleasedInTime w podFinalizerName (onPod w) pod cluster := by
  refine not_released_in_time (fun _ now => now = cluster) ?_ ?_ rfl
  · rintro _ _ rfl
    exact not_released_of_stored found holds
  · rintro _ now same
    subst same
    simp only [act, found, onPod, Program.run_bind, grudging_optedIn, grudging_enabled, Bool.not_true, Bool.false_eq_true, if_false]
    rcases stray with owned | uninstrumented
    · simp [owned]
    · simp [uninstrumented]

end

/-- A finished or deleted Job, or a deleted Pod, with the finalizer is let go of in time
exactly when its labels do not hide it and the count of a pending postprocess is neither
negative nor the largest number. -/
theorem released_in_time_iff (w : Watcher) :
    (∀ (job : Job) (cluster : Cluster), cluster.find .job job.key = some job → hasFinalizer job = true →
      readyForPostprocess job = true → (ReleasedInTime w finalizerName (onJob w) job cluster ↔
        GoMap.get labelPostprocessFor job.metadata.labels = "" ∧
          (GoMap.get annotationPostprocess job.metadata.annotations = "" → Countable job.metadata.annotations))) ∧
    (∀ (pod : Pod) (cluster : Cluster), cluster.find .pod pod.key = some pod → hasPodFinalizer pod = true →
      pod.metadata.deletionTimestamp.isSome = true → (ReleasedInTime w podFinalizerName (onPod w) pod cluster ↔
        GoMap.get "batch.kubernetes.io/job-name" pod.metadata.labels = "" ∧
          GoMap.get labelInstrumented pod.metadata.labels = "true" ∧
          (GoMap.get annotationPostprocess pod.metadata.annotations = "" → shouldPostprocessPod pod = true →
            Countable pod.metadata.annotations))) := by
  constructor
  · intro job cluster found holds ready
    constructor
    · intro inTime
      have workload : isPostprocessJob job = false := by
        cases claims : isPostprocessJob job with
        | false => rfl
        | true => exact absurd inTime (claiming_not_released found holds claims)
      refine ⟨by simpa [isPostprocessJob] using workload, fun isPending => not_not.mp fun uncountable => ?_⟩
      exact uncountable_job_not_released found ⟨workload, holds, ready⟩ isPending uncountable inTime
    · rintro ⟨workload, counted⟩
      exact (jobHandler w).released_in_time found ⟨by simpa [isPostprocessJob] using workload, holds, ready⟩ counted
  · intro pod cluster found holds deleting
    constructor
    · intro inTime
      have alone : ownedByJob pod = false := by
        cases owned : ownedByJob pod with
        | false => rfl
        | true => exact absurd inTime (stray_not_released found holds (Or.inl owned))
      have instrumented : GoMap.get labelInstrumented pod.metadata.labels = "true" :=
        not_ne_iff.mp fun stray => absurd inTime (stray_not_released found holds (Or.inr stray))
      refine ⟨by simpa [ownedByJob] using alone, instrumented, fun fresh qualifies => not_not.mp fun uncountable => ?_⟩
      exact uncountable_pod_not_released found ⟨alone, instrumented, holds, deleting⟩ ⟨fresh, qualifies⟩ uncountable inTime
    · rintro ⟨alone, instrumented, counted⟩
      exact (podHandler w).released_in_time found
        ⟨by simpa [ownedByJob] using alone, instrumented, holds, deleting⟩ fun isPending => counted isPending.1 isPending.2

/-- A finished Job with the finalizer, whose user has set the watcher's count. -/
def countedJob (count : String) : Job where
  metadata := { name := "train", ns := "team", uid := "job-1", resourceVersion := 1, finalizers := [finalizerName]
                annotations := GoMap.ofList [(annotationPostprocessRetries, count)] }
  content := { template := { spec := { containers := [] } }, conditions := [{ type := "Complete", status := "True" }] }

/-- A deleted predictor with the finalizer. -/
def deletedPod : Pod where
  metadata := { name := "predictor", ns := "team", uid := "pod-1", resourceVersion := 1, finalizers := [podFinalizerName]
                labels := GoMap.ofList [(labelInstrumented, "true")], deletionTimestamp := some 1 }
  content := gpuPod.content

theorem released_in_time_iff_on_examples :
    (ReleasedInTime Creation.exampleWatcher finalizerName (onJob Creation.exampleWatcher) (countedJob "3")
        (Cluster.empty.write (countedJob "3")) ↔
      GoMap.get labelPostprocessFor (countedJob "3").metadata.labels = "" ∧
        (GoMap.get annotationPostprocess (countedJob "3").metadata.annotations = "" →
          Countable (countedJob "3").metadata.annotations)) ∧
    (ReleasedInTime Creation.exampleWatcher podFinalizerName (onPod Creation.exampleWatcher) deletedPod
        (Cluster.empty.write deletedPod) ↔
      GoMap.get "batch.kubernetes.io/job-name" deletedPod.metadata.labels = "" ∧
        GoMap.get labelInstrumented deletedPod.metadata.labels = "true" ∧
        (GoMap.get annotationPostprocess deletedPod.metadata.annotations = "" → shouldPostprocessPod deletedPod = true →
          Countable deletedPod.metadata.annotations)) :=
  ⟨(released_in_time_iff Creation.exampleWatcher).1 (countedJob "3") _ rfl rfl rfl,
    (released_in_time_iff Creation.exampleWatcher).2 deletedPod _ rfl rfl rfl⟩

/-- A count of minus one hundred is not used up by five failures. -/
theorem negative_count_not_released : ¬ ∀ (job : Job) (cluster : Cluster), cluster.find .job job.key = some job →
    hasFinalizer job = true → readyForPostprocess job = true →
    ReleasedInTime Creation.exampleWatcher finalizerName (onJob Creation.exampleWatcher) job cluster := by
  intro claim
  have inTime := claim (countedJob "-100") (Cluster.empty.write (countedJob "-100")) rfl rfl rfl
  have due : Due (countedJob "-100") := ⟨rfl, rfl, rfl⟩
  have isPending : Pending (countedJob "-100") := rfl
  have negative : postprocessRetryCount (countedJob "-100").metadata.annotations < 0 := by decide
  exact uncountable_job_not_released rfl due isPending (fun countable => not_le.mpr negative countable.1) inTime

end AibomWebhook.FinalizerRelease
