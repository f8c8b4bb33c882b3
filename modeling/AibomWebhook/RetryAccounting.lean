import AibomWebhook.Creation
import AibomWebhook.Library.Checked

/-! The retry count that the watcher keeps on a finished or deleted workload, over all
events of it: it counts the failed creations of its postprocess Job, and an event that
only waits for another run's Job leaves everything as it is. -/

namespace AibomWebhook.RetryAccounting
open Aibomdata Creation Events GoText Kubernetes Objects Postprocess PostprocessData Requests Writes

/-- The cluster, and how the coming requests will end. -/
structure Situation where
  cluster : Cluster
  coming : Nat → Circumstance

def answer (situation : Situation) (request : Request) : Response request × Situation :=
  let result := serve (situation.coming 0) situation.cluster request
  (result.1, { cluster := result.2, coming := fun n => situation.coming (n + 1) })

/-- Every request succeeds, or fails without effect, and no new object gets this UID. -/
def Fair (uid : String) (coming : Nat → Circumstance) : Prop :=
  ∀ n, (∀ message, (coming n).fate ≠ .lost message) ∧ (coming n).uid ≠ uid

theorem Fair.later {uid : String} {coming : Nat → Circumstance} (fair : Fair uid coming) :
    Fair uid fun n => coming (n + 1) := fun n => fair (n + 1)

/-! A handler, cut at the creation of the postprocess Job. -/

/-- How the creation ended, if it was attempted, and whether a failure was recorded on the object. -/
structure Report where
  attempt : Option (Except PostprocessError Unit)
  recorded : Bool

structure Handling {kind : Kind} (object : Object kind) where
  /-- What is done instead of creating it, if anything. -/
  course : ApiProgram (Option (ApiProgram Unit))
  create : ApiProgram (Except PostprocessError Unit)
  release : ApiProgram Unit
  giveUp : ApiProgram Unit

namespace Handling
variable {kind : Kind} {object : Object kind} (handling : Handling object)

def afterFailure : PostprocessError → ApiProgram Bool
  | .postprocessBusy => return false
  | .wrapped _ =>
    let retries := nextRetryCount object.metadata.annotations
    if retries ≥ maxPostprocessRetries then do
      handling.giveUp
      return false
    else do
      let response ← patch kind object.key (.annotate annotationPostprocessRetries (toString retries))
      return response.isOk

/-- What follows the creation. -/
def settle (created : Except PostprocessError Unit) : ApiProgram Report :=
  match created with
  | .ok value => do
    handling.release
    return { attempt := some (.ok value), recorded := false }
  | .error error => do
    let recorded ← handling.afterFailure error
    return { attempt := some (.error error), recorded := recorded }

def report : ApiProgram Report := do
  match ← handling.course with
  | some rest =>
    rest
    return { attempt := none, recorded := false }
  | none => handling.create >>= handling.settle

end Handling

/-! The two handlers. -/

variable (w : Watcher)

def releaseJob (job : Job) : ApiProgram Unit := if hasFinalizer job then removeFinalizer job else return ()

def abandonJob (job : Job) : ApiProgram Unit := do
  deleteWorkloadIdentity job.metadata.ns job.metadata.name
  releaseJob job

def jobCourse (job : Job) : ApiProgram (Option (ApiProgram Unit)) :=
  if isPostprocessJob job then return some (onPostprocessJob w job)
  else do
    let optedOut ← isNamespaceOptedOut job.metadata.ns
    if optedOut then return some (releaseJob job)
    else do
      let enabled ← isNamespaceEnabled job.metadata.ns
      if !enabled then return some (return ())
      else if !readyForPostprocess job then return some (watchJob job)
      else if GoMap.get annotationPostprocess job.metadata.annotations ≠ "" then return some (releaseJob job)
      else if !hasFinalizer job && !isJobFinished job then return some (return ())
      else do
        let qualifies ← shouldPostprocess job
        if !qualifies then return some (abandonJob job) else return none

def jobHandling (job : Job) : Handling job where
  course := jobCourse w job
  create := w.createPostprocessJob job
  release := releaseJob job
  giveUp := abandonJob job

def podCourse (pod : Pod) : ApiProgram (Option (ApiProgram Unit)) := do
  let optedOut ← isNamespaceOptedOut pod.metadata.ns
  if optedOut then return some (if hasPodFinalizer pod then removePodFinalizer pod else return ())
  else do
    let enabled ← isNamespaceEnabled pod.metadata.ns
    if !enabled then return some (return ())
    else if ownedByJob pod then return some (return ())
    else if GoMap.get labelInstrumented pod.metadata.labels ≠ "true" then return some (return ())
    else if pod.metadata.deletionTimestamp.isNone then return some (watchPod pod)
    else if GoMap.get annotationPostprocess pod.metadata.annotations ≠ "" then
      return some (if hasPodFinalizer pod then removePodFinalizer pod else return ())
    else if !hasPodFinalizer pod then return some (return ())
    else if !shouldPostprocessPod pod then return some (removePodFinalizer pod)
    else return none

def podHandling (pod : Pod) : Handling pod where
  course := podCourse pod
  create := w.createPostprocessJobForPod pod
  release := removePodFinalizer pod
  giveUp := removePodFinalizer pod

theorem bind_done (program : ApiProgram Unit) : (program >>= fun _ => (Program.done () : ApiProgram Unit)) = program :=
  bind_pure_unit

/-- What is left when nobody looks at the report. -/
theorem erase_report {kind : Kind} {object : Object kind} (handling : Handling object) :
    (handling.report >>= fun _ => (pure () : ApiProgram Unit)) = (handling.course >>= fun course =>
      match course with
      | some rest => rest
      | none => handling.create >>= fun created =>
        match created with
        | .ok _ => handling.release
        | .error error => handling.afterFailure error >>= fun _ => pure ()) := by
  rw [Handling.report, bind_assoc]
  congr 1
  funext course
  cases course with
  | some rest => simp [bind_assoc, bind_done]
  | none =>
    dsimp only
    rw [bind_assoc]
    congr 1
    funext created
    cases created with
    | ok value => simp [Handling.settle, bind_assoc, bind_done]
    | error error => simp [Handling.settle, bind_assoc]

theorem jobFailure_erases (job : Job) (error : PostprocessError) :
    ((jobHandling w job).afterFailure error >>= fun _ => (pure () : ApiProgram Unit)) = afterJobFailure job error := by
  cases error with
  | postprocessBusy => rfl
  | wrapped error =>
    simp only [Handling.afterFailure, afterJobFailure]
    split
    · simp [jobHandling, abandonJob, releaseJob, bind_assoc, bind_done]
    · rfl

theorem podFailure_erases (pod : Pod) (error : PostprocessError) :
    ((podHandling w pod).afterFailure error >>= fun _ => (pure () : ApiProgram Unit)) = afterPodFailure pod error := by
  cases error with
  | postprocessBusy => rfl
  | wrapped error =>
    simp only [Handling.afterFailure, afterPodFailure]
    split
    · simp [podHandling, bind_assoc, bind_done]
    · rfl

theorem jobHandling_erases (job : Job) :
    ((jobHandling w job).report >>= fun _ => (pure () : ApiProgram Unit)) = onJobEvent w (.object job) := by
  have handled : onJobEvent w (.object job) = onJob w job := rfl
  rw [erase_report, handled]
  simp only [jobFailure_erases]
  have course : (jobHandling w job).course = jobCourse w job := rfl
  rw [course, jobCourse, onJob, Program.bind_ite]
  refine ite_congr rfl (fun _ => rfl) fun _ => ?_
  rw [bind_assoc]
  refine congrArg (isNamespaceOptedOut job.metadata.ns >>= ·) (funext fun optedOut => ?_)
  rw [Program.bind_ite]
  refine ite_congr rfl (fun _ => rfl) fun _ => ?_
  rw [bind_assoc]
  refine congrArg (isNamespaceEnabled job.metadata.ns >>= ·) (funext fun enabled => ?_)
  rw [Program.bind_ite]
  refine ite_congr rfl (fun _ => rfl) fun _ => ?_
  rw [Program.bind_ite]
  refine ite_congr rfl (fun _ => rfl) fun _ => ?_
  rw [finishJob, Program.bind_ite]
  refine ite_congr rfl (fun _ => rfl) fun _ => ?_
  rw [Program.bind_ite]
  refine ite_congr rfl (fun _ => rfl) fun _ => ?_
  rw [bind_assoc]
  refine congrArg (shouldPostprocess job >>= ·) (funext fun qualifies => ?_)
  rw [Program.bind_ite]
  refine ite_congr rfl (fun _ => rfl) fun _ => ?_
  refine congrArg (w.createPostprocessJob job >>= ·) (funext fun created => ?_)
  cases created <;> rfl

theorem podHandling_erases (pod : Pod) :
    ((podHandling w pod).report >>= fun _ => (pure () : ApiProgram Unit)) = onPodEvent w (.object pod) := by
  have handled : onPodEvent w (.object pod) = onPod w pod := rfl
  rw [erase_report, handled]
  simp only [podFailure_erases]
  have course : (podHandling w pod).course = podCourse pod := rfl
  rw [course, podCourse, onPod, bind_assoc]
  refine congrArg (isNamespaceOptedOut pod.metadata.ns >>= ·) (funext fun optedOut => ?_)
  rw [Program.bind_ite]
  refine ite_congr rfl (fun _ => rfl) fun _ => ?_
  rw [bind_assoc]
  refine congrArg (isNamespaceEnabled pod.metadata.ns >>= ·) (funext fun enabled => ?_)
  rw [Program.bind_ite]
  refine ite_congr rfl (fun _ => rfl) fun _ => ?_
  rw [Program.bind_ite]
  refine ite_congr rfl (fun _ => rfl) fun _ => ?_
  rw [Program.bind_ite]
  refine ite_congr rfl (fun _ => rfl) fun _ => ?_
  rw [Program.bind_ite]
  refine ite_congr rfl (fun _ => rfl) fun _ => ?_
  rw [finishPod, Program.bind_ite]
  refine ite_congr rfl (fun _ => rfl) fun _ => ?_
  rw [Program.bind_ite]
  refine ite_congr rfl (fun _ => rfl) fun _ => ?_
  rw [Program.bind_ite]
  refine ite_congr rfl (fun _ => rfl) fun _ => ?_
  refine congrArg (w.createPostprocessJobForPod pod >>= ·) (funext fun created => ?_)
  cases created <;> rfl

/-! What a request keeps of the object. -/

section Keeping
variable (kind : Kind) (key : Key) (uid : String)

def SparesCount : Request → Prop
  | .patch other place (.annotate name _) => ¬ (other = kind ∧ place = key ∧ name = annotationPostprocessRetries)
  | .update other _ => other ≠ kind
  | _ => True

def SparesFinalizers : Request → Prop
  | .patch other place (.setFinalizers _ _) => ¬ (other = kind ∧ place = key)
  | .update other _ => other ≠ kind
  | _ => True

/-- The object of this UID, if it is stored, was stored before, with the same count. -/
def CountKept (before after : Cluster) : Prop :=
  ∀ object : Object kind, after.find kind key = some object → object.metadata.uid = uid →
    ∃ old : Object kind, before.find kind key = some old ∧ old.metadata.uid = uid ∧
      GoMap.lookup annotationPostprocessRetries object.metadata.annotations =
        GoMap.lookup annotationPostprocessRetries old.metadata.annotations

/-- An object with finalizers is still stored, with the same ones. -/
def FinalizersKept (before after : Cluster) : Prop :=
  ∀ object : Object kind, before.find kind key = some object → object.metadata.finalizers ≠ [] →
    ∃ now : Object kind, after.find kind key = some now ∧ now.metadata.finalizers = object.metadata.finalizers

variable {kind key uid} {circumstance : Circumstance} {cluster : Cluster} {request : Request}

theorem CountKept.refl (cluster : Cluster) : CountKept kind key uid cluster cluster :=
  fun object found same => ⟨object, found, same, rfl⟩

theorem CountKept.trans {first second third : Cluster} (left : CountKept kind key uid first second)
    (right : CountKept kind key uid second third) : CountKept kind key uid first third := by
  intro object found same
  obtain ⟨middle, between, mine, later⟩ := right object found same
  obtain ⟨old, before, own, earlier⟩ := left middle between mine
  exact ⟨old, before, own, later.trans earlier⟩

theorem FinalizersKept.refl (cluster : Cluster) : FinalizersKept kind key cluster cluster :=
  fun object found _ => ⟨object, found, rfl⟩

theorem FinalizersKept.trans {first second third : Cluster} (left : FinalizersKept kind key first second)
    (right : FinalizersKept kind key second third) : FinalizersKept kind key first third := by
  intro object found filled
  obtain ⟨middle, between, same⟩ := left object found filled
  obtain ⟨now, after, again⟩ := right middle between (same ▸ filled)
  exact ⟨now, after, again.trans same⟩

theorem countKept_serve (fresh : circumstance.uid ≠ uid) (spares : SparesCount kind key request) :
    CountKept kind key uid cluster (serve circumstance cluster request).2 := by
  intro object found same
  cases (serve_effect circumstance cluster request).comes found with
  | stayed _ _ before => exact ⟨object, before, same, rfl⟩
  | created draft free named => exact absurd same fresh
  | updated draft old before named => exact absurd rfl spares
  | patched change old before =>
    refine ⟨old, before, (uid_patched change old).symm.trans same, ?_⟩
    cases change with
    | annotate name value => exact GoMap.lookup_set_of_ne (fun retries => spares ⟨rfl, rfl, retries.symm⟩) _ _
    | setFinalizers | setOwner | mergeData => rfl
  | deleted old before => exact ⟨old, before, same, rfl⟩

/-- What is written in place of an object with the same finalizers. -/
theorem finalizersKept_write {written : Kind} {object : Object written}
    (same : ∀ sort : written = kind, object.key = key → ∀ old : Object kind, cluster.find kind key = some old →
      (sort ▸ object : Object kind).metadata.finalizers = old.metadata.finalizers) :
    FinalizersKept kind key cluster (cluster.write object) := by
  intro old found filled
  by_cases sort : written = kind
  · subst sort
    by_cases here : object.key = key
    · have finalizers : object.metadata.finalizers = old.metadata.finalizers := same rfl here old found
      have stays : released object = false := by simp [released, finalizers, filled]
      refine ⟨stamp (cluster.revision + 1) object, ?_, finalizers⟩
      rw [← here]
      exact find_write_self cluster object stays
    · exact ⟨old, (find_write_of_key cluster here).trans found, rfl⟩
  · exact ⟨old, (find_write_of_kind cluster object (Ne.symm sort) key).trans found, rfl⟩

theorem finalizersKept_serve (spares : SparesFinalizers kind key request) :
    FinalizersKept kind key cluster (serve circumstance cluster request).2 := by
  generalize after : (serve circumstance cluster request).2 = next
  have effect := serve_effect circumstance cluster request
  rw [after] at effect
  cases effect with
  | unchanged => exact .refl cluster
  | created other draft free =>
    refine finalizersKept_write fun sort here old found => ?_
    subst sort
    rw [here, found] at free
    cases free
  | updated other draft old found =>
    refine finalizersKept_write fun sort => ?_
    exact absurd sort spares
  | patched other place change old found =>
    refine finalizersKept_write fun sort here before stored => ?_
    subst sort
    have named : place = key := (Keyed.key_of_find? found).symm.trans ((key_patched change old).symm.trans here)
    subst named
    obtain rfl := Option.some.inj (found.symm.trans stored)
    cases change with
    | setFinalizers finalizers version => exact absurd ⟨rfl, rfl⟩ spares
    | annotate | setOwner | mergeData => rfl
  | deleted other place old found =>
    refine finalizersKept_write fun sort here before stored => ?_
    subst sort
    have named : place = key := (Keyed.key_of_find? found).symm.trans here
    subst named
    obtain rfl := Option.some.inj (found.symm.trans stored)
    rfl

/-! And programs of such requests. -/

variable {situation : Situation} {α : Type} {program : ApiProgram α}

theorem fair_run (program : ApiProgram α) (fair : Fair uid situation.coming) :
    Fair uid (program.run answer situation).2.coming := by
  induction program generalizing situation with
  | done value => exact fair
  | call request next ih => exact ih _ fair.later

theorem countKept_run (fair : Fair uid situation.coming) (uses : program.Uses (SparesCount kind key)) :
    CountKept kind key uid situation.cluster (program.run answer situation).2.cluster := by
  induction program generalizing situation with
  | done value => exact .refl _
  | call request next ih => exact (countKept_serve (fair 0).2 uses.1).trans (ih _ fair.later (uses.2 _))

theorem finalizersKept_run (uses : program.Uses (SparesFinalizers kind key)) :
    FinalizersKept kind key situation.cluster (program.run answer situation).2.cluster := by
  induction program generalizing situation with
  | done value => exact .refl _
  | call request next ih =>
    have first : FinalizersKept kind key situation.cluster (answer situation request).2.cluster :=
      finalizersKept_serve uses.1
    exact first.trans (ih _ (uses.2 _))

theorem reads_run (uses : program.Uses Reads) : (program.run answer situation).2.cluster = situation.cluster := by
  induction program generalizing situation with
  | done value => rfl
  | call request next ih => exact (ih _ (uses.2 _)).trans (serve_reads uses.1)

/-- A recorded count is stored, and one that could not be recorded leaves everything as it is. -/
theorem annotate_serve {text : String} (noLoss : ∀ message, circumstance.fate ≠ .lost message) :
    ((serve circumstance cluster (.patch kind key (.annotate annotationPostprocessRetries text))).1.isOk = true →
      ∀ now : Object kind,
        (serve circumstance cluster (.patch kind key (.annotate annotationPostprocessRetries text))).2.find kind key = some now →
          GoMap.lookup annotationPostprocessRetries now.metadata.annotations = some text) ∧
    ((serve circumstance cluster (.patch kind key (.annotate annotationPostprocessRetries text))).1.isOk = false →
      (serve circumstance cluster (.patch kind key (.annotate annotationPostprocessRetries text))).2 = cluster) := by
  cases fate : circumstance.fate with
  | lost message => exact absurd fate (noLoss message)
  | refused message =>
    have failing : circumstance.fate ≠ .served := by simp [fate]
    have failure : ∃ message, (serve circumstance cluster
        (.patch kind key (.annotate annotationPostprocessRetries text))).1 = .error (.other message) := serve_failed failing
    obtain ⟨other, failure⟩ := failure
    rw [serve_refused fate, failure]
    exact ⟨(fun succeeded => by cases succeeded), fun _ => rfl⟩
  | served =>
    rw [serve_served fate]
    cases found : cluster.find kind key with
    | none =>
      simp only [perform, found]
      exact ⟨(fun succeeded => by cases succeeded), fun _ => trivial⟩
    | some old =>
      have here : old.key = key := Keyed.key_of_find? found
      simp only [perform, found, MergePatch.accepts, if_true]
      refine ⟨fun _ now stored => ?_, fun failed => by cases failed⟩
      rw [find_write, key_patched, if_pos here] at stored
      split at stored
      · cases stored
      · obtain rfl := Option.some.inj stored
        exact GoMap.lookup_set_self _ _ _

end Keeping

/-! The creation of the postprocess Job. -/

section Creating
variable {kind : Kind} {key : Key}

theorem core_spares {ns triggerName triggerUID : String} {request : Request} (isTrigger : kind = .job ∨ kind = .pod)
    (only : Only (CoreWrites w ns triggerName triggerUID) request) :
    SparesCount kind key request ∧ SparesFinalizers kind key request := by
  rcases only with reads | writes
  · cases request with
    | update | patch => cases reads
    | _ => exact ⟨trivial, trivial⟩
  · have other : Kind.configMap ≠ kind := by rcases isTrigger with rfl | rfl <;> decide
    cases writes with
    | mergesInputs cm => exact ⟨other, other⟩
    | _ => exact ⟨trivial, trivial⟩

theorem annotateTrigger_spares (what : String) (result : Except PostprocessError String) :
    (annotateTrigger kind key what result).Uses fun request =>
      SparesCount kind key request ∧ SparesFinalizers kind key request := by
  cases result with
  | error error => trivial
  | ok name =>
    have another : annotationPostprocess ≠ annotationPostprocessRetries := by decide
    rw [annotateTrigger, patch_bind, Program.uses_call]
    refine ⟨⟨fun same => another same.2.2, trivial⟩, fun response => ?_⟩
    split <;> trivial

theorem reads_spare {request : Request} (reads : Reads request) :
    SparesCount kind key request ∧ SparesFinalizers kind key request := by
  cases request with
  | update | patch => cases reads
  | _ => exact ⟨trivial, trivial⟩

theorem createPostprocessJob_spares (job : Job) : (w.createPostprocessJob job).Uses fun request =>
    SparesCount .job job.key request ∧ SparesFinalizers .job job.key request := by
  unfold Watcher.createPostprocessJob
  apply ((gatherPods_uses job).mono fun _ => reads_spare).bind
  intro pods
  apply ((gatherAnnotations_uses job).mono fun _ => reads_spare).bind
  intro gathered
  exact ((createPostprocessJobCore_uses w _ _ _ _ _ _ _).mono fun _ => core_spares w (Or.inl rfl)).bind
    (annotateTrigger_spares _)

theorem createPostprocessJobForPod_spares (pod : Pod) : (w.createPostprocessJobForPod pod).Uses fun request =>
    SparesCount .pod pod.key request ∧ SparesFinalizers .pod pod.key request := by
  unfold Watcher.createPostprocessJobForPod
  exact ((createPostprocessJobCore_uses w _ _ _ _ _ _ _).mono fun _ => core_spares w (Or.inr rfl)).bind
    (annotateTrigger_spares _)

/-- A program that ends busy has written nothing. -/
def Waits {α : Type} (program : ApiProgram (Except PostprocessError α)) : Prop :=
  ∀ situation : Situation, (program.run answer situation).1 = .error .postprocessBusy →
    (program.run answer situation).2.cluster = situation.cluster

theorem Waits.after_reads {α β : Type} {program : ApiProgram β} {rest : β → ApiProgram (Except PostprocessError α)}
    (reads : program.Uses Reads) (later : ∀ value, Waits (rest value)) : Waits (program >>= rest) := by
  intro situation busy
  rw [Program.run_bind] at busy ⊢
  exact (later _ _ busy).trans (reads_run reads)

/-- Of the Jobs that are listed one at most is in the slot, so that none was deleted
when that is another run's. -/
theorem guard_waits (call : Call) (situation : Situation)
    (occupied : (call.guard.run answer situation).1 = .otherRun) :
    (call.guard.run answer situation).2.cluster = situation.cluster := by
  have unchanged : (answer situation (.list .job call.watcher.ns call.selector)).2.cluster = situation.cluster :=
    serve_reads rfl
  rw [guard_eq, list_bind, Program.run_call] at occupied ⊢
  cases listed : (answer situation (.list .job call.watcher.ns call.selector)).1 with
  | error error =>
    rw [listed] at occupied
    cases occupied
  | ok existing =>
    have items : existing = (situation.cluster.store .job).items.filter fun job =>
        job.metadata.ns = call.watcher.ns && selects call.selector job.metadata.labels := by
      have served : (serve (situation.coming 0) situation.cluster (.list .job call.watcher.ns call.selector)).1 =
        .ok existing := listed
      unfold serve at served
      split at served
      · exact (Except.ok.inj served).symm
      · cases served
      · cases served
    rw [listed] at occupied
    dsimp only at occupied ⊢
    rw [examineJobs_filter, items, listed_items] at occupied ⊢
    cases found : call.listed situation.cluster with
    | none => exact unchanged
    | some job =>
      have inSlot := listed_name call found
      rw [found] at occupied
      simp only [Option.toList_some, Watcher.examineJobs, inSlot, ne_eq, not_true_eq_false, if_false] at occupied ⊢
      split at occupied
      · cases occupied
      · rename_i unfailed
        rw [if_neg unfailed]
        split at occupied
        · rename_i foreign
          rw [if_pos foreign]
          exact unchanged
        · cases occupied

theorem launch_busy (call : Call) (situation : Situation) :
    (call.launch.run answer situation).1 ≠ .error .postprocessBusy := by
  unfold Call.launch Watcher.launchPostprocessJob
  simp only [Program.run_bind, create_bind, Program.run_call]
  split
  · simp [Program.run_bind]
  · simp
  · simp

theorem core_waits (call : Call) : Waits call.core := by
  intro situation
  obtain ⟨rest, cut, busy, same, free⟩ : ∃ rest, call.core = call.guard >>= rest ∧
      rest .otherRun = pure (.error .postprocessBusy) ∧ rest .sameRun = pure (.ok call.postprocessName) ∧
      rest .neither = call.launch := ⟨_, rfl, rfl, rfl, rfl⟩
  rw [cut, Program.run_bind]
  cases occupied : (call.guard.run answer situation).1 with
  | otherRun =>
    rw [busy]
    intro _
    exact guard_waits call situation occupied
  | sameRun =>
    rw [same]
    intro busy
    cases busy
  | neither =>
    rw [free]
    intro busy
    exact absurd busy (launch_busy call _)

theorem Waits.annotate {program : ApiProgram (Except PostprocessError String)} (waits : Waits program) (what : String) :
    Waits (program >>= annotateTrigger kind key what) := by
  intro situation busy
  rw [Program.run_bind] at busy ⊢
  cases created : (program.run answer situation).1 with
  | error error =>
    rw [created] at busy
    have same : error = .postprocessBusy := Except.error.inj busy
    exact waits situation (created.trans (congrArg _ same))
  | ok name =>
    rw [created] at busy
    simp only [annotateTrigger, patch_bind, Program.run_call] at busy
    split at busy <;> cases busy

theorem createPostprocessJob_waits (job : Job) : Waits (w.createPostprocessJob job) := by
  unfold Watcher.createPostprocessJob
  apply Waits.after_reads (gatherPods_uses job)
  intro pods
  apply Waits.after_reads (gatherAnnotations_uses job)
  intro gathered
  exact (core_waits ⟨w, job.metadata.ns, job.metadata.name, "Job", job.metadata.uid, pods, gathered.1,
    gathered.2⟩).annotate _

theorem createPostprocessJobForPod_waits (pod : Pod) : Waits (w.createPostprocessJobForPod pod) := by
  unfold Watcher.createPostprocessJobForPod
  exact (core_waits ⟨w, pod.metadata.ns, pod.metadata.name, "Pod", pod.metadata.uid, [pod], _, none⟩).annotate _

end Creating

/-! What both handlers have in common. -/

structure Lawful {kind : Kind} {object : Object kind} (handling : Handling object) : Prop where
  course : handling.course.Uses Reads
  rest : ∀ rest, handling.course.Returns (some rest) → rest.Uses (SparesCount kind object.key)
  create : handling.create.Uses fun request =>
    SparesCount kind object.key request ∧ SparesFinalizers kind object.key request
  release : handling.release.Uses (SparesCount kind object.key)
  giveUp : handling.giveUp.Uses (SparesCount kind object.key)
  waits : Waits handling.create

section Laws

theorem reads_spareCount {kind : Kind} {key : Key} {α : Type} {program : ApiProgram α} (uses : program.Uses Reads) :
    program.Uses (SparesCount kind key) := uses.mono fun _ reads => (reads_spare reads).1

theorem removeFinalizer_spares (job : Job) : (removeFinalizer job).Uses (SparesCount .job job.key) :=
  removeFinalizerFrom_uses finalizerName job fun _ => trivial

theorem removePodFinalizer_spares (pod : Pod) : (removePodFinalizer pod).Uses (SparesCount .pod pod.key) :=
  removeFinalizerFrom_uses podFinalizerName pod fun _ => trivial

theorem releaseJob_spares (job : Job) : (releaseJob job).Uses (SparesCount .job job.key) := by
  unfold releaseJob
  split
  · exact removeFinalizer_spares job
  · trivial

theorem abandonJob_spares (job : Job) : (abandonJob job).Uses (SparesCount .job job.key) :=
  (deleteWorkloadIdentity_uses _ _ fun _ _ => trivial).bind fun _ => releaseJob_spares job

theorem watchJob_spares (job : Job) : (watchJob job).Uses (SparesCount .job job.key) := by
  unfold watchJob
  split
  · trivial
  · apply (reads_spareCount (shouldPostprocess_uses job)).bind
    intro qualifies
    split
    · exact addFinalizerTo_uses finalizerName job fun _ => trivial
    · trivial

theorem watchPod_spares (pod : Pod) : (watchPod pod).Uses (SparesCount .pod pod.key) := by
  unfold watchPod
  split
  · trivial
  · split
    · trivial
    · exact addFinalizerTo_uses podFinalizerName pod fun _ => trivial

theorem onPostprocessJob_spares (job : Job) : (onPostprocessJob w job).Uses (SparesCount .job job.key) := by
  refine (onPostprocessJob_uses w job).mono fun request only => ?_
  rcases only with reads | writes
  · exact (reads_spare reads).1
  · have another : annotationAIBOMCollected ≠ annotationPostprocessRetries := by decide
    obtain ⟨_, writes⟩ := writes
    cases writes with
    | marks time => exact fun same => another same.2.2
    | _ => trivial

theorem jobCourse_reads (job : Job) : (jobCourse w job).Uses Reads := by
  unfold jobCourse
  refine Program.uses_ite (fun _ => trivial) fun _ => ?_
  apply (namespaceLabel_uses _ _).bind
  intro optedOut
  refine Program.uses_ite (fun _ => trivial) fun _ => ?_
  apply (namespaceLabel_uses _ _).bind
  intro enabled
  refine Program.uses_ite (fun _ => trivial) fun _ => Program.uses_ite (fun _ => trivial) fun _ => ?_
  refine Program.uses_ite (fun _ => trivial) fun _ => Program.uses_ite (fun _ => trivial) fun _ => ?_
  apply (shouldPostprocess_uses job).bind
  intro qualifies
  exact Program.uses_ite (fun _ => trivial) fun _ => trivial

theorem jobCourse_spares (job : Job) (rest : ApiProgram Unit) (returns : (jobCourse w job).Returns (some rest)) :
    rest.Uses (SparesCount .job job.key) := by
  unfold jobCourse at returns
  rcases Program.returns_ite returns with ended | returns
  · obtain rfl := Option.some.inj ended
    exact onPostprocessJob_spares w job
  obtain ⟨optedOut, _, returns⟩ := Program.returns_bind.mp returns
  rcases Program.returns_ite returns with ended | returns
  · obtain rfl := Option.some.inj ended
    exact releaseJob_spares job
  obtain ⟨enabled, _, returns⟩ := Program.returns_bind.mp returns
  rcases Program.returns_ite returns with ended | returns
  · obtain rfl := Option.some.inj ended
    trivial
  rcases Program.returns_ite returns with ended | returns
  · obtain rfl := Option.some.inj ended
    exact watchJob_spares job
  rcases Program.returns_ite returns with ended | returns
  · obtain rfl := Option.some.inj ended
    exact releaseJob_spares job
  rcases Program.returns_ite returns with ended | returns
  · obtain rfl := Option.some.inj ended
    trivial
  obtain ⟨qualifies, _, returns⟩ := Program.returns_bind.mp returns
  rcases Program.returns_ite returns with ended | ended
  · obtain rfl := Option.some.inj ended
    exact abandonJob_spares job
  · cases ended

theorem podCourse_reads (pod : Pod) : (podCourse pod).Uses Reads := by
  unfold podCourse
  apply (namespaceLabel_uses _ _).bind
  intro optedOut
  refine Program.uses_ite (fun _ => trivial) fun _ => ?_
  apply (namespaceLabel_uses _ _).bind
  intro enabled
  refine Program.uses_ite (fun _ => trivial) fun _ => Program.uses_ite (fun _ => trivial) fun _ => ?_
  refine Program.uses_ite (fun _ => trivial) fun _ => Program.uses_ite (fun _ => trivial) fun _ => ?_
  refine Program.uses_ite (fun _ => trivial) fun _ => Program.uses_ite (fun _ => trivial) fun _ => ?_
  exact Program.uses_ite (fun _ => trivial) fun _ => trivial

theorem releasePod_spares (pod : Pod) :
    (if hasPodFinalizer pod then removePodFinalizer pod else return ()).Uses (SparesCount .pod pod.key) := by
  split
  · exact removePodFinalizer_spares pod
  · trivial

theorem podCourse_spares (pod : Pod) (rest : ApiProgram Unit) (returns : (podCourse pod).Returns (some rest)) :
    rest.Uses (SparesCount .pod pod.key) := by
  unfold podCourse at returns
  obtain ⟨optedOut, _, returns⟩ := Program.returns_bind.mp returns
  rcases Program.returns_ite returns with ended | returns
  · obtain rfl := Option.some.inj ended
    exact releasePod_spares pod
  obtain ⟨enabled, _, returns⟩ := Program.returns_bind.mp returns
  rcases Program.returns_ite returns with ended | returns
  · obtain rfl := Option.some.inj ended
    trivial
  rcases Program.returns_ite returns with ended | returns
  · obtain rfl := Option.some.inj ended
    trivial
  rcases Program.returns_ite returns with ended | returns
  · obtain rfl := Option.some.inj ended
    trivial
  rcases Program.returns_ite returns with ended | returns
  · obtain rfl := Option.some.inj ended
    exact watchPod_spares pod
  rcases Program.returns_ite returns with ended | returns
  · obtain rfl := Option.some.inj ended
    exact releasePod_spares pod
  rcases Program.returns_ite returns with ended | returns
  · obtain rfl := Option.some.inj ended
    trivial
  rcases Program.returns_ite returns with ended | ended
  · obtain rfl := Option.some.inj ended
    exact removePodFinalizer_spares pod
  · cases ended

theorem jobHandling_lawful (job : Job) : Lawful (jobHandling w job) where
  course := jobCourse_reads w job
  rest := jobCourse_spares w job
  create := createPostprocessJob_spares w job
  release := releaseJob_spares job
  giveUp := abandonJob_spares job
  waits := createPostprocessJob_waits w job

theorem podHandling_lawful (pod : Pod) : Lawful (podHandling w pod) where
  course := podCourse_reads pod
  rest := podCourse_spares pod
  create := createPostprocessJobForPod_spares w pod
  release := removePodFinalizer_spares pod
  giveUp := removePodFinalizer_spares pod
  waits := createPostprocessJobForPod_waits w pod

end Laws

/-! One event. -/

/-- What an event that is reported so has done to its object. -/
structure Accounts {kind : Kind} (object : Object kind) (uid : String) (before : Cluster) (report : Report)
    (after : Cluster) : Prop where
  keeps : report.recorded = false → CountKept kind object.key uid before after
  stores : report.recorded = true → (∃ error, report.attempt = some (.error (.wrapped error))) ∧
    nextRetryCount object.metadata.annotations < maxPostprocessRetries ∧
    ∀ now : Object kind, after.find kind object.key = some now →
      GoMap.lookup annotationPostprocessRetries now.metadata.annotations =
        some (toString (nextRetryCount object.metadata.annotations))
  waits : report.attempt = some (.error .postprocessBusy) → after = before
  holds : ∀ error, report.attempt = some (.error error) →
    nextRetryCount object.metadata.annotations < maxPostprocessRetries → FinalizersKept kind object.key before after

section Event
variable {kind : Kind} {object : Object kind} {handling : Handling object} {uid : String} {situation : Situation}

theorem settle_accounts (lawful : Lawful handling) (fair : Fair uid situation.coming) :
    Accounts object uid situation.cluster ((handling.create >>= handling.settle).run answer situation).1
      ((handling.create >>= handling.settle).run answer situation).2.cluster := by
  have kept : CountKept kind object.key uid situation.cluster (handling.create.run answer situation).2.cluster :=
    countKept_run fair (lawful.create.mono fun _ spares => spares.1)
  have held : FinalizersKept kind object.key situation.cluster (handling.create.run answer situation).2.cluster :=
    finalizersKept_run (lawful.create.mono fun _ spares => spares.2)
  have fairLater : Fair uid (handling.create.run answer situation).2.coming := fair_run _ fair
  have waits := lawful.waits situation
  rw [Program.run_bind]
  generalize (handling.create.run answer situation).2 = middle at kept held fairLater waits ⊢
  cases created : (handling.create.run answer situation).1 with
  | ok value =>
    simp only [Handling.settle, Program.run_bind]
    exact {
      keeps := fun _ => kept.trans (countKept_run fairLater lawful.release)
      stores := fun recorded => by cases recorded
      waits := fun busy => by cases busy
      holds := fun error failed => by cases failed }
  | error error =>
    cases error with
    | postprocessBusy =>
      exact {
        keeps := fun _ => kept
        stores := fun recorded => by cases recorded
        waits := fun _ => waits created
        holds := fun _ _ _ => held }
    | wrapped error =>
      simp only [Handling.settle, Handling.afterFailure, Program.run_bind]
      by_cases exhausted : nextRetryCount object.metadata.annotations ≥ maxPostprocessRetries
      · rw [if_pos exhausted, Program.run_bind]
        exact {
          keeps := fun _ => kept.trans (countKept_run fairLater lawful.giveUp)
          stores := fun recorded => by cases recorded
          waits := fun busy => by cases busy
          holds := fun _ _ remaining => absurd remaining (not_lt.mpr exhausted) }
      · rw [if_neg exhausted, patch_bind, Program.run_call]
        obtain ⟨stored, spared⟩ := @annotate_serve kind object.key (middle.coming 0) middle.cluster
          (toString (nextRetryCount object.metadata.annotations)) (fairLater 0).1
        have unrecorded (fails : (answer middle (.patch kind object.key (.annotate annotationPostprocessRetries
            (toString (nextRetryCount object.metadata.annotations))))).1.isOk = false) :
            (answer middle (.patch kind object.key (.annotate annotationPostprocessRetries
              (toString (nextRetryCount object.metadata.annotations))))).2.cluster = middle.cluster :=
          spared fails
        exact {
          keeps := fun fails => (unrecorded fails).symm ▸ kept
          stores := fun recorded => ⟨⟨error, rfl⟩, not_le.mp exhausted, stored recorded⟩
          waits := fun busy => by cases busy
          holds := fun _ _ _ => held.trans (finalizersKept_serve trivial) }

theorem report_accounts (lawful : Lawful handling) (fair : Fair uid situation.coming) :
    Accounts object uid situation.cluster (handling.report.run answer situation).1
      (handling.report.run answer situation).2.cluster := by
  have read : (handling.course.run answer situation).2.cluster = situation.cluster := reads_run lawful.course
  have fairLater : Fair uid (handling.course.run answer situation).2.coming := fair_run _ fair
  have returns : handling.course.Returns (handling.course.run answer situation).1 := Program.run_returns _ _ situation
  rw [Handling.report, Program.run_bind]
  generalize (handling.course.run answer situation).2 = middle at read fairLater ⊢
  rw [← read]
  cases course : (handling.course.run answer situation).1 with
  | some rest =>
    rw [course] at returns
    simp only [Program.run_bind]
    exact {
      keeps := fun _ => countKept_run fairLater (lawful.rest rest returns)
      stores := fun recorded => by cases recorded
      waits := fun busy => by cases busy
      holds := fun error failed => by cases failed }
  | none => exact settle_accounts lawful fairLater

end Event

/-! All events of one object. -/

/-- A kind's events, how they are handled, and the finalizer that they remove. -/
structure Handler (kind : Kind) where
  finalizer : String
  onEvent : Notification kind → ApiProgram Unit
  handling : (object : Object kind) → Handling object
  erases : ∀ object, ((handling object).report >>= fun _ => (pure () : ApiProgram Unit)) = onEvent (.object object)
  lawful : ∀ object, Lawful (handling object)

def jobHandler : Handler .job where
  finalizer := finalizerName
  onEvent := onJobEvent w
  handling := jobHandling w
  erases := jobHandling_erases w
  lawful := jobHandling_lawful w

def podHandler : Handler .pod where
  finalizer := podFinalizerName
  onEvent := onPodEvent w
  handling := podHandling w
  erases := podHandling_erases w
  lawful := podHandling_lawful w

namespace Handler
variable {kind : Kind} (handler : Handler kind) (object : Object kind) (situation : Situation)

/-- What the event leaves. -/
def after : Cluster := ((handler.onEvent (.object object)).run answer situation).2.cluster

def reported : Report := ((handler.handling object).report.run answer situation).1

variable {handler object situation}

theorem accounts {uid : String} (fair : Fair uid situation.coming) :
    Accounts object uid situation.cluster (handler.reported object situation) (handler.after object situation) := by
  rw [after, ← handler.erases, Program.run_bind]
  exact report_accounts (handler.lawful object) fair

end Handler

/-- A failed creation that did not end busy, and whose count was stored. -/
def Report.counted (report : Report) : Nat :=
  match report.attempt with
  | some (.error (.wrapped _)) => if report.recorded then 1 else 0
  | _ => 0

/-- The cluster, and how many failures have been counted. -/
structure Ledger where
  cluster : Cluster
  counted : Nat

section Runs
variable {kind : Kind} (handler : Handler kind) (key : Key) (uid : String)

/-- The next event is given the stored object; in between others may do anything but
touch its count. -/
inductive Step (ledger : Ledger) : Ledger → Prop where
  | event (object : Object kind) (coming : Nat → Circumstance) (stored : ledger.cluster.find kind key = some object)
      (mine : object.metadata.uid = uid) (fair : Fair uid coming) :
    Step ledger {
      cluster := handler.after object ⟨ledger.cluster, coming⟩
      counted := ledger.counted + (handler.reported object ⟨ledger.cluster, coming⟩).counted }
  | others (cluster : Cluster) (kept : CountKept kind key uid ledger.cluster cluster) :
    Step ledger { cluster := cluster, counted := ledger.counted }

/-- The annotation that a number of counted failures leaves. -/
def countText (counted : Nat) : Option String := if counted = 0 then none else some (toString (counted : Int))

structure Counts (kind : Kind) (key : Key) (uid : String) (ledger : Ledger) : Prop where
  below : (ledger.counted : Int) < maxPostprocessRetries
  stored : ∀ object : Object kind, ledger.cluster.find kind key = some object → object.metadata.uid = uid →
    GoMap.lookup annotationPostprocessRetries object.metadata.annotations = countText ledger.counted

variable {handler key uid}

theorem count_of_text {counted : Nat} (below : (counted : Int) < maxPostprocessRetries) {annotations : GoMap}
    (text : GoMap.lookup annotationPostprocessRetries annotations = countText counted) :
    postprocessRetryCount annotations = counted := by
  have small : (counted : Int) < 5 := below
  unfold postprocessRetryCount GoMap.get
  rw [text, countText]
  split
  · rename_i zero
    subst zero
    decide
  · rw [Option.getD_some, atoi_toString (by omega) (by omega), Option.getD_some]

/-- A count that is still below `maxPostprocessRetries` is simply increased. -/
theorem next_of_count {counted : Nat} (below : (counted : Int) < maxPostprocessRetries) {annotations : GoMap}
    (count : postprocessRetryCount annotations = counted) : nextRetryCount annotations = counted + 1 := by
  have small : maxPostprocessRetries = 5 := rfl
  have next := nextRetryCount_cases annotations
  omega

theorem Counts.count {ledger : Ledger} (counts : Counts kind key uid ledger) {object : Object kind}
    (stored : ledger.cluster.find kind key = some object) (mine : object.metadata.uid = uid) :
    postprocessRetryCount object.metadata.annotations = ledger.counted :=
  count_of_text counts.below (counts.stored object stored mine)

theorem Counts.step {ledger next : Ledger} (counts : Counts kind key uid ledger)
    (step : Step handler key uid ledger next) : Counts kind key uid next := by
  cases step with
  | others cluster kept =>
    refine ⟨counts.below, fun object stored mine => ?_⟩
    obtain ⟨old, before, own, same⟩ := kept object stored mine
    exact same.trans (counts.stored old before own)
  | event object coming stored mine fair =>
    have here : object.key = key := Keyed.key_of_find? stored
    have count : postprocessRetryCount object.metadata.annotations = ledger.counted := counts.count stored mine
    have accounts := @Handler.accounts kind handler object ⟨ledger.cluster, coming⟩ uid fair
    generalize handler.reported object ⟨ledger.cluster, coming⟩ = report at accounts ⊢
    cases recorded : report.recorded with
    | false =>
      have nothing : report.counted = 0 := by
        unfold Report.counted
        split
        · simp [recorded]
        · rfl
      rw [nothing]
      refine ⟨counts.below, fun now stored own => ?_⟩
      obtain ⟨old, before, same, kept⟩ := accounts.keeps recorded now (here ▸ stored) own
      exact kept.trans (counts.stored old (here ▸ before) same)
    | true =>
      obtain ⟨⟨error, failed⟩, below, stores⟩ := accounts.stores recorded
      have one : report.counted = 1 := by simp [Report.counted, failed, recorded]
      rw [one]
      rw [next_of_count counts.below count] at below stores
      refine ⟨by push_cast; exact below, fun now stored _ => ?_⟩
      rw [stores now (here ▸ stored), countText, if_neg (Nat.succ_ne_zero _)]
      push_cast
      rfl

theorem Counts.run {start ledger : Ledger} (counts : Counts kind key uid start)
    (run : Relation.ReflTransGen (Step handler key uid) start ledger) : Counts kind key uid ledger := by
  induction run with
  | refl => exact counts
  | tail _ step ih => exact ih.step step

/-- The finalizer that the object has is on no object of its key any more. -/
def Removed (finalizer : String) (object : Object kind) (after : Cluster) : Prop :=
  finalizer ∈ object.metadata.finalizers ∧
    ∀ now : Object kind, after.find kind object.key = some now → finalizer ∉ now.metadata.finalizers

variable (handler key uid)

/-- The count is that of the failures, and what the next event may do. -/
structure Exact (ledger : Ledger) : Prop where
  below : (ledger.counted : Int) < maxPostprocessRetries
  count : ∀ object : Object kind, ledger.cluster.find kind key = some object → object.metadata.uid = uid →
    postprocessRetryCount object.metadata.annotations = ledger.counted
  givesUp : ∀ (object : Object kind) (coming : Nat → Circumstance) (error : PostprocessError),
    ledger.cluster.find kind key = some object → object.metadata.uid = uid → Fair uid coming →
    (handler.reported object ⟨ledger.cluster, coming⟩).attempt = some (.error error) →
    Removed handler.finalizer object (handler.after object ⟨ledger.cluster, coming⟩) →
      error ≠ .postprocessBusy ∧ postprocessRetryCount object.metadata.annotations = maxPostprocessRetries - 1
  waits : ∀ (object : Object kind) (coming : Nat → Circumstance),
    ledger.cluster.find kind key = some object → object.metadata.uid = uid → Fair uid coming →
    (handler.reported object ⟨ledger.cluster, coming⟩).attempt = some (.error .postprocessBusy) →
      handler.after object ⟨ledger.cluster, coming⟩ = ledger.cluster

def Unannotated (kind : Kind) (key : Key) (uid : String) (cluster : Cluster) : Prop :=
  ∀ object : Object kind, cluster.find kind key = some object → object.metadata.uid = uid →
    GoMap.lookup annotationPostprocessRetries object.metadata.annotations = none

variable {handler key uid}

theorem Counts.exact {ledger : Ledger} (counts : Counts kind key uid ledger) : Exact handler key uid ledger where
  below := counts.below
  count _ stored mine := counts.count stored mine
  givesUp := by
    intro object coming error stored mine fair failed removed
    have here : object.key = key := Keyed.key_of_find? stored
    have accounts := @Handler.accounts kind handler object ⟨ledger.cluster, coming⟩ uid fair
    constructor
    · rintro rfl
      have same := accounts.waits failed
      rw [same] at removed
      exact removed.2 object (here ▸ stored) removed.1
    · have count : postprocessRetryCount object.metadata.annotations = ledger.counted := counts.count stored mine
      have below := counts.below
      have next := next_of_count counts.below count
      have exhausted : ¬ nextRetryCount object.metadata.annotations < maxPostprocessRetries := by
        intro remaining
        obtain ⟨now, after, same⟩ := accounts.holds error failed remaining object (here ▸ stored)
          (List.ne_nil_of_mem removed.1)
        exact removed.2 now after (same ▸ removed.1)
      omega
  waits := by
    intro object coming stored mine fair busy
    exact (handler.accounts fair).waits busy

theorem exact_of_run {cluster : Cluster} {ledger : Ledger} (unannotated : Unannotated kind key uid cluster)
    (run : Relation.ReflTransGen (Step handler key uid) { cluster := cluster, counted := 0 } ledger) :
    Exact handler key uid ledger := by
  have start : Counts kind key uid { cluster := cluster, counted := 0 } :=
    ⟨(by decide : (0 : Int) < 5), fun object stored mine => unannotated object stored mine⟩
  exact (start.run run).exact

end Runs

/-- Along all events of one Job, and along all events of one Pod. -/
theorem retries_accounted :
    (∀ (key : Key) (uid : String) (start : Cluster) (ledger : Ledger), Unannotated .job key uid start →
      Relation.ReflTransGen (Step (jobHandler w) key uid) { cluster := start, counted := 0 } ledger →
        Exact (jobHandler w) key uid ledger) ∧
    ∀ (key : Key) (uid : String) (start : Cluster) (ledger : Ledger), Unannotated .pod key uid start →
      Relation.ReflTransGen (Step (podHandler w) key uid) { cluster := start, counted := 0 } ledger →
        Exact (podHandler w) key uid ledger :=
  ⟨fun _ _ _ _ unannotated run => exact_of_run unannotated run,
    fun _ _ _ _ unannotated run => exact_of_run unannotated run⟩

/-! A deleted Pod whose postprocess Job cannot be created. -/

def deletedPredictor : Pod where
  metadata := { name := "predictor", ns := "team", uid := "pod-1", finalizers := [podFinalizerName]
                labels := GoMap.ofList [(labelInstrumented, "true")]
                annotations := GoMap.ofList [(annotationPrefix ++ "model", "m")], deletionTimestamp := some 1 }
  content := { spec := { containers := [{ name := "main" }] } }

def teamNamespace : Object .namespace where
  metadata := { name := "team", ns := "", labels := GoMap.ofList [(labelEnabled, "true")] }
  content := ()

def predictorCluster : Cluster :=
  (Cluster.empty.write deletedPredictor).setCache .namespace (Keyed.ofList [teamNamespace])

/-- The eleventh request of an event is the creation of the Job. -/
def jobRefused (n : Nat) : Circumstance :=
  { fate := if n = 10 then .refused "timeout" else .served, uid := "fresh", time := 2 }

theorem fair_jobRefused : Fair "pod-1" jobRefused := by
  intro n
  have fresh : "fresh" ≠ "pod-1" := by decide
  refine ⟨fun message => ?_, fresh⟩
  simp only [jobRefused]
  split <;> simp

def predictorKey : Key := ("team", "predictor")

/-- What the next event of it leaves, and reports. -/
def predictorEvent (cluster : Cluster) : Cluster × Report :=
  let stored := (cluster.find .pod predictorKey).getD deletedPredictor
  ((podHandler exampleWatcher).after stored ⟨cluster, jobRefused⟩,
    (podHandler exampleWatcher).reported stored ⟨cluster, jobRefused⟩)

def twiceFailed : Cluster := (predictorEvent (predictorEvent predictorCluster).1).1

theorem predictor_step (cluster : Cluster) (counted : Nat)
    (stored : ((cluster.find .pod predictorKey).map fun pod => pod.metadata.uid) = some "pod-1")
    (fails : (predictorEvent cluster).2.counted = 1) :
    Step (podHandler exampleWatcher) predictorKey "pod-1" { cluster := cluster, counted := counted }
      { cluster := (predictorEvent cluster).1, counted := counted + 1 } := by
  obtain ⟨pod, found, mine⟩ := Option.map_eq_some_iff.mp stored
  have step : Step (podHandler exampleWatcher) predictorKey "pod-1" { cluster := cluster, counted := counted } _ :=
    .event pod jobRefused found mine fair_jobRefused
  simp only [predictorEvent, found, Option.getD_some] at fails ⊢
  rw [fails] at step
  exact step

/-- The pod is still there after the first failure, and the next event fails as well. -/
def onceFailed : Checked ((predictorEvent predictorCluster).1.find .pod predictorKey) fun pod =>
    pod.metadata.uid = "pod-1" ∧ (predictorEvent predictorCluster).2.counted = 1 ∧
      (predictorEvent (predictorEvent predictorCluster).1).2.counted = 1 := .of (by decide +kernel)

/-- After two failures the count is two. -/
theorem retries_accounted_predictor : Exact (podHandler exampleWatcher) predictorKey "pod-1"
    { cluster := twiceFailed, counted := 2 } := by
  have unannotated : Unannotated .pod predictorKey "pod-1" predictorCluster := by
    have fresh : (predictorCluster.find .pod predictorKey).all (fun pod =>
        GoMap.lookup annotationPostprocessRetries pod.metadata.annotations = none) = true := by decide +kernel
    intro pod found _
    rw [found] at fresh
    exact of_decide_eq_true fresh
  obtain ⟨pod, stored, mine, once, twice⟩ := onceFailed
  have first := predictor_step predictorCluster 0 (by decide +kernel) once
  have second := predictor_step (predictorEvent predictorCluster).1 1 (by rw [stored, Option.map_some, mine]) twice
  exact (retries_accounted exampleWatcher).2 predictorKey "pod-1" predictorCluster _ unannotated
    ((Relation.ReflTransGen.single first).tail second)

end AibomWebhook.RetryAccounting
