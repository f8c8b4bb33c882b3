import AibomWebhook.JobGuard
import AibomWebhook.Lifetime
import AibomWebhook.PostprocessInputs

/-! Whether a workload can change what the watcher makes of it by setting the watcher's
own annotations and label when it is created. Two objects that differ in nothing else
live through the same changes and the same answers of the API server. -/

namespace AibomWebhook.Bookkeeping
open Aibomdata Events GoText JobGuard Kubernetes Lifetime Objects Postprocess PostprocessData PostprocessInputs Requests
open Writes

def bookkeepingAnnotations : List String := [annotationPostprocess, annotationPostprocessRetries]

def withoutBookkeeping (annotations : GoMap) : StringMap :=
  ((annotations.getD ∅).erase annotationPostprocess).erase annotationPostprocessRetries

/-- An object with other labels and annotations; what version it has does not matter. -/
def relabelled {kind : Kind} (object : Object kind) (version : Nat) (labels annotations : GoMap) : Object kind :=
  { object with metadata :=
      { object.metadata with resourceVersion := version, labels := labels, annotations := annotations } }

/-- Two objects that differ in the watcher's bookkeeping only. -/
def Twins {kind : Kind} (first second : Object kind) : Prop :=
  ∃ version labels annotations, second = relabelled first version labels annotations ∧
    (labels.getD ∅).erase labelPostprocessFor = (first.metadata.labels.getD ∅).erase labelPostprocessFor ∧
    withoutBookkeeping annotations = withoutBookkeeping first.metadata.annotations

/-! Sequences. -/

section
variable {kind : Kind} (handle : Object kind → ApiProgram Unit) (key : Key)

/-- Whether a step creates a Job. -/
def stepCreates (cluster : Cluster) : Step kind → Bool
  | .event answers =>
    match cluster.find kind key with
    | none => false
    | some object => ((handle object).served (answers.serve key kind) cluster).any createsJob
  | _ => false

/-- Of each step, whether it creates a Job. -/
def creations (cluster : Cluster) : List (Step kind) → List Bool
  | [] => []
  | step :: rest => stepCreates handle key cluster step :: creations (act handle key cluster step) rest

end

/-! What the rest of the metadata says is the same of both twins. -/

section Metadata

theorem get_of_erase {first second : GoMap} {own key : String}
    (same : (second.getD ∅).erase own = (first.getD ∅).erase own) (other : key ≠ own) :
    GoMap.lookup key second = GoMap.lookup key first := by
  have found := congrArg (Keyed.find? key) same
  rw [Keyed.find?_erase_of_ne other, Keyed.find?_erase_of_ne other] at found
  rw [GoMap.lookup, GoMap.lookup, found]

/-- The watcher's own annotations are left out of those that it passes on. -/
theorem collect_eq (annotations : GoMap) : collectAIBOMAnnotations annotations =
    collectAIBOMAnnotations (some (withoutBookkeeping annotations)) := by
  simp only [collectAIBOMAnnotations, GoMap.entries, withoutBookkeeping, Keyed.erase, Option.getD_some,
    List.filterMap_filter]
  congr 2
  funext entry
  obtain ⟨key, value⟩ := entry
  by_cases first : key = annotationPostprocess
  · subst first
    have cut : cutPrefix annotationPrefix annotationPostprocess = some "postprocess-job" := by decide
    simp [cut, internalAnnotationKeys]
  · by_cases second : key = annotationPostprocessRetries
    · subst second
      have cut : cutPrefix annotationPrefix annotationPostprocessRetries = some "postprocess-retries" := by decide
      simp [cut, internalAnnotationKeys]
    · simp [first, second]

theorem collect_of_twins {first second : GoMap} (same : withoutBookkeeping second = withoutBookkeeping first) :
    collectAIBOMAnnotations second = collectAIBOMAnnotations first := by
  rw [collect_eq second, same, ← collect_eq]

end Metadata

/-! Twins of equal standing are handled by one program. -/

/-- How many attempts are left after this one fails, counting this one. -/
def budget (annotations : GoMap) : Int := max 1 (maxPostprocessRetries + 1 - nextRetryCount annotations)

/-- What the handlers look at in the bookkeeping annotations is the same of an object and its twin. -/
structure Standing {kind : Kind} (object : Object kind) (labels annotations : GoMap) : Prop where
  sameLabels : (labels.getD ∅).erase labelPostprocessFor = (object.metadata.labels.getD ∅).erase labelPostprocessFor
  sameAnnotations : withoutBookkeeping annotations = withoutBookkeeping object.metadata.annotations
  annotated : GoMap.get annotationPostprocess annotations ≠ "" ↔
    GoMap.get annotationPostprocess object.metadata.annotations ≠ ""
  budget : budget annotations = budget object.metadata.annotations

section Jobs
variable {w : Watcher} {job : Job} {version : Nat} {labels annotations : GoMap}

theorem hasAIBOMAnnotations_twin (same : withoutBookkeeping annotations = withoutBookkeeping job.metadata.annotations) :
    hasAIBOMAnnotations annotations = hasAIBOMAnnotations job.metadata.annotations := by
  rw [hasAIBOMAnnotations, hasAIBOMAnnotations, collect_of_twins same]

theorem shouldPostprocess_twin (same : withoutBookkeeping annotations = withoutBookkeeping job.metadata.annotations) :
    shouldPostprocess (relabelled job version labels annotations) = shouldPostprocess job := by
  simp only [shouldPostprocess, getInstrumentedPods, relabelled, hasAIBOMAnnotations_twin same]

theorem jobset_twin (same : (labels.getD ∅).erase labelPostprocessFor =
    (job.metadata.labels.getD ∅).erase labelPostprocessFor) :
    GoMap.get jobsetLabel labels = GoMap.get jobsetLabel job.metadata.labels := by
  rw [GoMap.get, GoMap.get, get_of_erase same (by decide)]

theorem gatherPods_twin (same : (labels.getD ∅).erase labelPostprocessFor =
    (job.metadata.labels.getD ∅).erase labelPostprocessFor) :
    gatherPods (relabelled job version labels annotations) = gatherPods job := by
  have jobset := jobset_twin same
  simp only [gatherPods, getInstrumentedPods, relabelled, jobset]

theorem gatherAnnotations_twin (sameLabels : (labels.getD ∅).erase labelPostprocessFor =
      (job.metadata.labels.getD ∅).erase labelPostprocessFor)
    (sameAnnotations : withoutBookkeeping annotations = withoutBookkeeping job.metadata.annotations) :
    gatherAnnotations (relabelled job version labels annotations) = gatherAnnotations job := by
  have jobset := jobset_twin sameLabels
  simp only [gatherAnnotations, relabelled, jobset, collect_of_twins sameAnnotations, jobResult]

theorem createPostprocessJob_twin (sameLabels : (labels.getD ∅).erase labelPostprocessFor =
      (job.metadata.labels.getD ∅).erase labelPostprocessFor)
    (sameAnnotations : withoutBookkeeping annotations = withoutBookkeeping job.metadata.annotations) :
    w.createPostprocessJob (relabelled job version labels annotations) = w.createPostprocessJob job := by
  simp only [Watcher.createPostprocessJob, gatherPods_twin sameLabels, gatherAnnotations_twin sameLabels sameAnnotations]
  rfl

theorem exhausted_iff {first second : GoMap} (same : budget second = budget first) :
    (nextRetryCount second ≥ maxPostprocessRetries ↔ nextRetryCount first ≥ maxPostprocessRetries) ∧
    (¬ nextRetryCount first ≥ maxPostprocessRetries → nextRetryCount second = nextRetryCount first) := by
  simp only [budget] at same
  omega

theorem afterJobFailure_twin (same : budget annotations = budget job.metadata.annotations) (error : PostprocessError) :
    afterJobFailure (relabelled job version labels annotations) error = afterJobFailure job error := by
  obtain ⟨exhausted, count⟩ := exhausted_iff same
  cases error with
  | postprocessBusy => rfl
  | wrapped error =>
    by_cases last : nextRetryCount job.metadata.annotations ≥ maxPostprocessRetries
    · have twinLast : nextRetryCount (relabelled job version labels annotations).metadata.annotations ≥
          maxPostprocessRetries := exhausted.mpr last
      rw [afterJobFailure, afterJobFailure]
      simp only [if_pos last, if_pos twinLast]
      rfl
    · have sameCount : nextRetryCount (relabelled job version labels annotations).metadata.annotations =
          nextRetryCount job.metadata.annotations := count last
      simp only [afterJobFailure, sameCount, if_neg last]
      rfl

theorem finishJob_twin (standing : Standing job labels annotations) :
    finishJob w (relabelled job version labels annotations) = finishJob w job := by
  have failure (error : PostprocessError) : afterJobFailure (relabelled job version labels annotations) error =
      afterJobFailure job error := afterJobFailure_twin standing.budget error
  have recorded : GoMap.get annotationPostprocess (relabelled job version labels annotations).metadata.annotations ≠ "" ↔
      GoMap.get annotationPostprocess job.metadata.annotations ≠ "" := standing.annotated
  simp only [finishJob, shouldPostprocess_twin standing.sameAnnotations,
    createPostprocessJob_twin standing.sameLabels standing.sameAnnotations, failure]
  by_cases annotated : GoMap.get annotationPostprocess job.metadata.annotations ≠ ""
  · simp only [if_pos annotated, if_pos (recorded.mpr annotated)]
    rfl
  · simp only [if_neg annotated, if_neg (mt recorded.mp annotated)]
    rfl

theorem onJob_twin (standing : Standing job labels annotations) (first : isPostprocessJob job = false)
    (second : isPostprocessJob (relabelled job version labels annotations) = false) :
    onJob w (relabelled job version labels annotations) = onJob w job := by
  have watching : watchJob (relabelled job version labels annotations) = watchJob job := by
    simp only [watchJob, shouldPostprocess_twin standing.sameAnnotations]
    rfl
  simp only [onJob, first, second, watching, finishJob_twin standing, Bool.false_eq_true, if_false]
  rfl

end Jobs

section Pods
variable {w : Watcher} {pod : Pod} {version : Nat} {labels annotations : GoMap}

theorem inputsOf_twin (standing : Standing pod labels annotations) (dataCM : Option ConfigMap)
    (signingKey datasetSigningKey : Option Sha256.Bytes) (jobResults : GoMap) :
    inputsOf w.codec dataCM signingKey datasetSigningKey [relabelled pod version labels annotations] jobResults =
      inputsOf w.codec dataCM signingKey datasetSigningKey [pod] jobResults := by
  have label (key : String) (other : key ≠ labelPostprocessFor) :
      GoMap.get key labels = GoMap.get key pod.metadata.labels := by
    rw [GoMap.get, GoMap.get, get_of_erase standing.sameLabels other]
  have jobName : podJobName (relabelled pod version labels annotations) = podJobName pod := by
    simp only [podJobName, relabelled, label "batch.kubernetes.io/job-name" (by decide), label "job-name" (by decide)]
  have role : GoMap.get llmdRoleLabel (relabelled pod version labels annotations).metadata.labels =
      GoMap.get llmdRoleLabel pod.metadata.labels := label llmdRoleLabel (by decide)
  have info (c : Container) : containerInfo w.codec jobResults (relabelled pod version labels annotations) c =
      containerInfo w.codec jobResults pod c := by
    simp only [containerInfo, jobName, role]
    rfl
  have infos : (Pod.spec (relabelled pod version labels annotations)).containers.map
      (containerInfo w.codec jobResults (relabelled pod version labels annotations)) =
        pod.spec.containers.map (containerInfo w.codec jobResults pod) := List.map_congr_left fun c _ => info c
  simp only [inputsOf, List.flatMap_cons, List.flatMap_nil, List.append_nil, infos]
  rfl

theorem shouldPostprocessPod_twin (standing : Standing pod labels annotations) :
    shouldPostprocessPod (relabelled pod version labels annotations) = shouldPostprocessPod pod := by
  have aibom : hasAIBOMAnnotations (relabelled pod version labels annotations).metadata.annotations =
      hasAIBOMAnnotations pod.metadata.annotations := by
    rw [hasAIBOMAnnotations, hasAIBOMAnnotations]
    congr 3
    exact collect_of_twins standing.sameAnnotations
  rw [shouldPostprocessPod, shouldPostprocessPod, aibom]
  rfl

theorem createPostprocessJobForPod_twin (standing : Standing pod labels annotations) :
    w.createPostprocessJobForPod (relabelled pod version labels annotations) = w.createPostprocessJobForPod pod := by
  have collected : collectAIBOMAnnotations (relabelled pod version labels annotations).metadata.annotations =
      collectAIBOMAnnotations pod.metadata.annotations := collect_of_twins standing.sameAnnotations
  have inputs (ns name : String) (jobResults : GoMap) :
      w.buildPostprocessInputs ns name [relabelled pod version labels annotations] jobResults =
        w.buildPostprocessInputs ns name [pod] jobResults := by
    simp only [Watcher.buildPostprocessInputs, inputsOf_twin standing]
  simp only [Watcher.createPostprocessJobForPod, Watcher.createPostprocessJobCore, Watcher.launchPostprocessJob, inputs,
    collected]
  rfl

theorem afterPodFailure_twin (same : budget annotations = budget pod.metadata.annotations) (error : PostprocessError) :
    afterPodFailure (relabelled pod version labels annotations) error = afterPodFailure pod error := by
  obtain ⟨exhausted, count⟩ := exhausted_iff same
  cases error with
  | postprocessBusy => rfl
  | wrapped error =>
    by_cases last : nextRetryCount pod.metadata.annotations ≥ maxPostprocessRetries
    · have twinLast : nextRetryCount (relabelled pod version labels annotations).metadata.annotations ≥
          maxPostprocessRetries := exhausted.mpr last
      rw [afterPodFailure, afterPodFailure]
      simp only [if_pos last, if_pos twinLast]
      rfl
    · have sameCount : nextRetryCount (relabelled pod version labels annotations).metadata.annotations =
          nextRetryCount pod.metadata.annotations := count last
      simp only [afterPodFailure, sameCount, if_neg last]
      rfl

theorem onPod_twin (standing : Standing pod labels annotations) :
    onPod w (relabelled pod version labels annotations) = onPod w pod := by
  have job : GoMap.lookup "batch.kubernetes.io/job-name" labels =
      GoMap.lookup "batch.kubernetes.io/job-name" pod.metadata.labels := get_of_erase standing.sameLabels (by decide)
  have owned : ownedByJob (relabelled pod version labels annotations) = ownedByJob pod := by
    rw [ownedByJob, ownedByJob, GoMap.get, GoMap.get]
    simp [relabelled, job]
  have instrumented : GoMap.get labelInstrumented (relabelled pod version labels annotations).metadata.labels =
      GoMap.get labelInstrumented pod.metadata.labels := by
    simp only [relabelled, GoMap.get, get_of_erase standing.sameLabels (by decide : labelInstrumented ≠ labelPostprocessFor)]
  have failure (error : PostprocessError) : afterPodFailure (relabelled pod version labels annotations) error =
      afterPodFailure pod error := afterPodFailure_twin standing.budget error
  have recorded : GoMap.get annotationPostprocess (relabelled pod version labels annotations).metadata.annotations ≠ "" ↔
      GoMap.get annotationPostprocess pod.metadata.annotations ≠ "" := standing.annotated
  have watching : watchPod (relabelled pod version labels annotations) = watchPod pod := by
    simp only [watchPod, shouldPostprocessPod_twin standing]
    rfl
  have finishing : finishPod w (relabelled pod version labels annotations) = finishPod w pod := by
    simp only [finishPod, shouldPostprocessPod_twin standing, createPostprocessJobForPod_twin standing, failure]
    by_cases annotated : GoMap.get annotationPostprocess pod.metadata.annotations ≠ ""
    · simp only [if_pos annotated, if_pos (recorded.mpr annotated)]
      rfl
    · simp only [if_neg annotated, if_neg (mt recorded.mp annotated)]
      rfl
  simp only [onPod, owned, instrumented, watching, finishing]
  rfl

end Pods

/-! Runs of twins. -/

theorem withoutBookkeeping_set {name : String} (own : name ∈ bookkeepingAnnotations) (value : String) (annotations : GoMap) :
    withoutBookkeeping (GoMap.set name value annotations) = withoutBookkeeping annotations := by
  have erased : ((annotations.getD ∅).put (name, value)).erase name = (annotations.getD ∅).erase name :=
    Keyed.erase_put_self (name, value) (annotations.getD ∅)
  rcases List.mem_cons.mp own with rfl | retries
  · simp only [withoutBookkeeping, GoMap.set, Option.getD_some, erased]
  · obtain rfl := List.mem_singleton.mp retries
    simp only [withoutBookkeeping, GoMap.set, Option.getD_some]
    rw [Keyed.erase_comm, erased, Keyed.erase_comm]

/-- A request that neither creates a Job nor records one. -/
def Mute (request : Request) : Prop :=
  (∀ job, request ≠ .create .job job) ∧ ∀ kind key name, request ≠ .patch kind key (.annotate annotationPostprocess name)

/-- A handler of one kind, with the labels for which it does nothing but keep its own books. -/
structure Handling (w : Watcher) {kind : Kind} (handle : Object kind → ApiProgram Unit) (claims : GoMap → Prop) : Prop where
  isTrigger : kind = .job ∨ kind = .pod
  twin : ∀ object version labels annotations, Standing object labels annotations → ¬ claims object.metadata.labels →
    ¬ claims labels → handle (relabelled object version labels annotations) = handle object
  uses : ∀ object, ¬ claims object.metadata.labels → (handle object).Uses (Only (RunWrites w object))
  mute : ∀ object, claims object.metadata.labels ∨ GoMap.get annotationPostprocess object.metadata.annotations ≠ "" →
    (handle object).Uses Mute

section Runs
variable {w : Watcher} {kind : Kind} {handle : Object kind → ApiProgram Unit} {claims : GoMap → Prop} {key : Key}

/-- The object is passed over: it is taken for a postprocess Job, or for one that has its own. -/
def Hidden (claims : GoMap → Prop) (object : Object kind) : Prop :=
  claims object.metadata.labels ∨ GoMap.get annotationPostprocess object.metadata.annotations ≠ ""

instance [DecidablePred claims] (object : Object kind) : Decidable (Hidden claims object) :=
  inferInstanceAs (Decidable (_ ∨ _))

def Quiet (kind : Kind) (claims : GoMap → Prop) (key : Key) (cluster : Cluster) : Prop :=
  ∀ object : Object kind, cluster.find kind key = some object → Hidden claims object

/-- Both clusters have the object, in two versions of equal standing. -/
def Paired (kind : Kind) (claims : GoMap → Prop) (key : Key) (first second : Cluster) : Prop :=
  ∃ (object : Object kind) (version : Nat) (labels annotations : GoMap), first.find kind key = some object ∧
    second.find kind key = some (relabelled object version labels annotations) ∧ Standing object labels annotations ∧
    ¬ claims object.metadata.labels ∧ ¬ claims labels

/-- Both clusters have the object in versions of equal standing, or neither has it. -/
def Even (kind : Kind) (claims : GoMap → Prop) (key : Key) (first second : Cluster) : Prop :=
  Paired kind claims key first second ∨ first.find kind key = none ∧ second.find kind key = none

theorem createsJob_before (first second : Cluster) (request : Request) (response : Response request) :
    createsJob ⟨first, request, response⟩ = createsJob ⟨second, request, response⟩ := by
  cases request with
  | create kind object => cases kind <;> cases response <;> rfl
  | _ => rfl

theorem served_any (program : ApiProgram Unit) (answers : Answers) (first second : Cluster) :
    (program.served (answers.serve key kind) first).any createsJob =
      (program.served (answers.serve key kind) second).any createsJob := by
  induction program generalizing first second with
  | done value => rfl
  | call request next ih =>
    simp only [Program.served_call, List.any_cons]
    exact congrArg₂ (· || ·) (createsJob_before _ _ _ _) (ih _ _ _)

/-- Two writes of the object with the same finalizers and the same mark for deletion. -/
theorem Even.write {first second : Cluster} {object : Object kind} {version : Nat} {labels annotations : GoMap}
    (here : object.key = key) (standing : Standing object labels annotations)
    (workload : ¬ claims object.metadata.labels) (twinWorkload : ¬ claims labels) :
    Even kind claims key (first.write object) (second.write (relabelled object version labels annotations)) := by
  have twinKey : (relabelled object version labels annotations).key = key := here
  have sameRelease : released (relabelled object version labels annotations) = released object := rfl
  simp only [Even, Paired, find_write, here, twinKey, if_true, sameRelease]
  cases gone : released object with
  | true => exact Or.inr ⟨rfl, rfl⟩
  | false => exact Or.inl ⟨_, second.revision + 1, labels, annotations, rfl, rfl,
      ⟨standing.sameLabels, standing.sameAnnotations, standing.annotated, standing.budget⟩, workload, twinWorkload⟩

/-- The changes that an event of a workload makes to its own object. -/
def OwnChange (change : MergePatch) : Prop :=
  (∃ name ∈ bookkeepingAnnotations, ∃ value, change = .annotate name value) ∨
    ∃ finalizers, change = .setFinalizers finalizers none

theorem run_change {object : Object kind} {place : Key} {change : MergePatch} (isTrigger : kind = .job ∨ kind = .pod)
    (only : Only (RunWrites w object) (.patch kind place change)) : OwnChange change := by
  rcases only with reads | writes
  · exact absurd reads (by simp [Reads, Request.writes])
  · cases writes with
    | core core =>
      cases core
      rcases isTrigger with same | same <;> cases same
    | records name => exact Or.inl ⟨_, by decide, name, rfl⟩
    | countsRetry n => exact Or.inl ⟨_, by decide, _, rfl⟩
    | setsFinalizers finalizers => exact Or.inr ⟨finalizers, rfl⟩

theorem accepts_own {change : MergePatch} (own : OwnChange change) (metadata : ObjectMeta) :
    change.accepts metadata = true := by
  rcases own with ⟨name, _, value, rfl⟩ | ⟨finalizers, rfl⟩ <;> rfl

theorem budget_congr {first second : GoMap} (same : GoMap.get annotationPostprocessRetries second =
    GoMap.get annotationPostprocessRetries first) : budget second = budget first := by
  rw [budget, budget, nextRetryCount, nextRetryCount, postprocessRetryCount, postprocessRetryCount, same]

/-- The same bookkeeping written to an object and to its twin. -/
theorem Standing.annotate {object : Object kind} {labels annotations : GoMap} (standing : Standing object labels annotations)
    {name : String} (own : name ∈ bookkeepingAnnotations) (value : String) :
    Standing (patched (.annotate name value) object) labels (GoMap.set name value annotations) where
  sameLabels := standing.sameLabels
  sameAnnotations := by
    simp only [patched, MergePatch.apply, withoutBookkeeping_set own]
    exact standing.sameAnnotations
  annotated := by
    simp only [patched, MergePatch.apply]
    rcases List.mem_cons.mp own with rfl | retries
    · rw [GoMap.get_set_self, GoMap.get_set_self]
    · obtain rfl := List.mem_singleton.mp retries
      rw [GoMap.get_set_of_ne (by decide), GoMap.get_set_of_ne (by decide)]
      exact standing.annotated
  budget := by
    simp only [patched, MergePatch.apply]
    rcases List.mem_cons.mp own with rfl | retries
    · have first : Bookkeeping.budget (GoMap.set annotationPostprocess value annotations) =
          Bookkeeping.budget annotations := budget_congr (GoMap.get_set_of_ne (by decide) _ _)
      rw [first, standing.budget]
      exact (budget_congr (GoMap.get_set_of_ne (by decide) _ _)).symm
    · obtain rfl := List.mem_singleton.mp retries
      exact budget_congr (by rw [GoMap.get_set_self, GoMap.get_set_self])

theorem Even.patch {first second : Cluster} {change : MergePatch} (own : OwnChange change)
    (even : Even kind claims key first second) :
    Even kind claims key (perform "" 0 first (.patch kind key change)).2
      (perform "" 0 second (.patch kind key change)).2 := by
  rcases even with ⟨object, version, labels, annotations, found, twinFound, standing, workload, twinWorkload⟩ | ⟨gone, twinGone⟩
  · have here : object.key = key := Keyed.key_of_find? found
    simp only [perform, found, twinFound, accepts_own own, if_true]
    rcases own with ⟨name, own, value, rfl⟩ | ⟨finalizers, rfl⟩
    · have there : (patched (.annotate name value) object).key = key := here
      exact Even.write there (standing.annotate own value) workload twinWorkload
    · have there : (patched (.setFinalizers finalizers none) object).key = key := here
      exact Even.write there
        ⟨standing.sameLabels, standing.sameAnnotations, standing.annotated, standing.budget⟩ workload twinWorkload
  · simp only [perform, gone, twinGone]
    exact Or.inr ⟨gone, twinGone⟩

theorem Even.delete {first second : Cluster} (uid : String) (time : Time) (even : Even kind claims key first second) :
    Even kind claims key (perform uid time first (.delete kind key)).2 (perform uid time second (.delete kind key)).2 := by
  rcases even with ⟨object, version, labels, annotations, found, twinFound, standing, workload, twinWorkload⟩ | ⟨gone, twinGone⟩
  · have here : object.key = key := Keyed.key_of_find? found
    simp only [perform, found, twinFound]
    have there : (deleting time object).key = key := here
    exact Even.write there
      ⟨standing.sameLabels, standing.sameAnnotations, standing.annotated, standing.budget⟩ workload twinWorkload
  · simp only [perform, gone, twinGone]
    exact Or.inr ⟨gone, twinGone⟩

theorem Even.serve {first second : Cluster} {object : Object kind} {request : Request}
    (isTrigger : kind = .job ∨ kind = .pod) (only : Only (RunWrites w object) request) (answers : Answers)
    (even : Even kind claims key first second) :
    Even kind claims key (answers.serve key kind first request).2 (answers.serve key kind second request).2 := by
  simp only [Answers.serve]
  split
  · rename_i performed
    rw [Bool.and_eq_true] at performed
    cases request with
    | patch other place change =>
      obtain ⟨rfl, rfl⟩ : other = kind ∧ place = key := by simpa [writesOwn] using performed.1
      exact even.patch (run_change isTrigger only)
    | delete other place =>
      obtain ⟨rfl, rfl⟩ : other = kind ∧ place = key := by simpa [writesOwn] using performed.1
      exact even.delete "" 0
    | _ => exact absurd performed.1 Bool.false_ne_true
  · exact even

/-- A step of the lives of two objects of equal standing. -/
theorem Even.step {first second : Cluster} (handling : Handling w handle claims) (even : Even kind claims key first second)
    (step : Step kind) : stepCreates handle key first step = stepCreates handle key second step ∧
      Even kind claims key (act handle key first step) (act handle key second step) := by
  rcases even with ⟨object, version, labels, annotations, found, twinFound, standing, workload, twinWorkload⟩ | ⟨gone, twinGone⟩
  · have here : object.key = key := Keyed.key_of_find? found
    have even : Even kind claims key first second :=
      Or.inl ⟨object, version, labels, annotations, found, twinFound, standing, workload, twinWorkload⟩
    cases step with
    | event answers =>
      simp only [stepCreates, act, found, twinFound, handling.twin object version labels annotations standing workload twinWorkload]
      refine ⟨served_any _ _ _ _, ?_⟩
      exact ((handling.uses object workload).run_related (answers.serve key kind) (answers.serve key kind)
        (fun _ _ _ only now => ⟨rfl, now.serve handling.isTrigger only answers⟩) even).2
    | status content =>
      simp only [stepCreates, act, found, twinFound]
      have there : ({ object with content := content object.content } : Object kind).key = key := here
      exact ⟨trivial, Even.write there
        ⟨standing.sameLabels, standing.sameAnnotations, standing.annotated, standing.budget⟩ workload twinWorkload⟩
    | deletion time => exact ⟨rfl, even.delete "" time⟩
  · cases step with
    | event answers =>
      simp only [stepCreates, act, gone, twinGone]
      exact ⟨trivial, Or.inr ⟨gone, twinGone⟩⟩
    | status content =>
      simp only [stepCreates, act, gone, twinGone]
      exact ⟨trivial, Or.inr ⟨gone, twinGone⟩⟩
    | deletion time => exact ⟨rfl, Even.delete "" time (Or.inr ⟨gone, twinGone⟩)⟩

theorem Even.creations {first second : Cluster} (handling : Handling w handle claims) (even : Even kind claims key first second)
    (steps : List (Step kind)) : creations handle key first steps = creations handle key second steps := by
  induction steps generalizing first second with
  | nil => rfl
  | cons step rest ih =>
    obtain ⟨same, later⟩ := even.step handling step
    rw [Bookkeeping.creations, Bookkeeping.creations, same, ih later]

/-! Runs of an object that is passed over. -/

theorem hidden_patched {object : Object kind} {change : MergePatch} (unrecorded : ∀ name, change ≠ .annotate annotationPostprocess name)
    (hidden : Hidden claims object) : Hidden claims (patched change object) := by
  rcases hidden with claimed | recorded
  · exact Or.inl (by rw [labels_patched]; exact claimed)
  · right
    cases change with
    | annotate name value =>
      have other : annotationPostprocess ≠ name := fun same => unrecorded value (same ▸ rfl)
      simp only [patched, MergePatch.apply, GoMap.get_set_of_ne other]
      exact recorded
    | setFinalizers finalizers version => exact recorded
    | setOwner owner => exact recorded
    | mergeData entries => exact recorded

theorem Quiet.serve {cluster : Cluster} {request : Request} (mute : Mute request) (answers : Answers)
    (quiet : Quiet kind claims key cluster) : Quiet kind claims key (answers.serve key kind cluster request).2 := by
  simp only [Answers.serve]
  split
  · rename_i performed
    rw [Bool.and_eq_true] at performed
    intro object found
    cases (perform_effect "" 0 cluster request).comes found with
    | stayed => exact quiet object (by assumption)
    | created => exact absurd performed.1 Bool.false_ne_true
    | updated => exact absurd performed.1 Bool.false_ne_true
    | patched change old before => exact hidden_patched (fun name same => mute.2 kind key name (same ▸ rfl)) (quiet old before)
    | deleted old before => exact quiet old before
  · exact quiet

theorem mute_creates_no_job {entry : Served ApiServer Cluster} (mute : Mute entry.request) : createsJob entry = false := by
  obtain ⟨before, request, response⟩ := entry
  cases request with
  | create kind object =>
    cases kind with
    | job => exact absurd rfl (mute.1 object)
    | _ => cases response <;> rfl
  | _ => rfl

theorem Quiet.step {cluster : Cluster} (handling : Handling w handle claims) (quiet : Quiet kind claims key cluster)
    (step : Step kind) : stepCreates handle key cluster step = false ∧ Quiet kind claims key (act handle key cluster step) := by
  cases step with
  | event answers =>
    cases found : cluster.find kind key with
    | none =>
      simp only [stepCreates, act, found]
      exact ⟨trivial, quiet⟩
    | some object =>
      have mute := handling.mute object (quiet object found)
      simp only [stepCreates, act, found]
      refine ⟨?_, mute.run (answers.serve key kind) (fun _ _ still now => now.serve still answers) quiet⟩
      rw [List.any_eq_false]
      intro entry member
      simp [mute_creates_no_job (mute.served (answers.serve key kind) cluster entry member)]
  | status content =>
    cases found : cluster.find kind key with
    | none =>
      simp only [stepCreates, act, found]
      exact ⟨trivial, quiet⟩
    | some object =>
      simp only [stepCreates, act, found]
      refine ⟨trivial, fun later after => ?_⟩
      rw [find_write] at after
      split at after
      · split at after
        · exact absurd after (by simp)
        · obtain rfl := Option.some.inj after
          exact quiet object found
      · exact quiet later after
  | deletion time =>
    refine ⟨rfl, fun object found => ?_⟩
    cases (perform_effect "" time cluster (.delete kind key)).comes found with
    | stayed => exact quiet object (by assumption)
    | deleted old before => exact quiet old before

theorem Quiet.creations {cluster : Cluster} (handling : Handling w handle claims) (quiet : Quiet kind claims key cluster)
    (steps : List (Step kind)) : creations handle key cluster steps = steps.map fun _ => false := by
  induction steps generalizing cluster with
  | nil => rfl
  | cons step rest ih =>
    obtain ⟨none, later⟩ := quiet.step handling step
    rw [Bookkeeping.creations, none, ih later, List.map_cons]

end Runs

/-! The two handlers. -/

section Handlers
variable {w : Watcher}

theorem mute_reads {request : Request} (reads : Reads request) : Mute request := by
  constructor
  · rintro job rfl
    exact absurd reads (by simp [Reads, Request.writes])
  · rintro kind key name rfl
    exact absurd reads (by simp [Reads, Request.writes])

theorem mute_finalizers (kind : Kind) (key : Key) (finalizers : List String) :
    Mute (.patch kind key (.setFinalizers finalizers none)) := by
  constructor
  · rintro job same
    cases same
  · rintro other place name same
    cases same

theorem mute_collect {job : Job} {request : Request} (writes : CollectWrites job request) : Mute request := by
  constructor
  · rintro other rfl
    cases writes
  · rintro kind key name same
    cases writes with
    | marks time =>
      injection same with _ _ change
      injection change with recorded
      exact absurd recorded (by decide)
    | _ => cases same

theorem releaseJob_mute (job : Job) : (if hasFinalizer job then removeFinalizer job else return ()).Uses Mute := by
  split
  · exact removeFinalizerFrom_uses finalizerName job fun _ => mute_finalizers _ _ _
  · trivial

theorem releasePod_mute (pod : Pod) : (if hasPodFinalizer pod then removePodFinalizer pod else return ()).Uses Mute := by
  split
  · exact removeFinalizerFrom_uses podFinalizerName pod fun _ => mute_finalizers _ _ _
  · trivial

theorem onJob_mute (job : Job) (hidden : Hidden (fun labels => GoMap.get labelPostprocessFor labels ≠ "") job) :
    (onJob w job).Uses Mute := by
  unfold onJob
  split
  · exact (onPostprocessJob_uses w job).mono fun _ only => only.elim mute_reads fun writes => mute_collect writes.2
  · rename_i workload
    have recorded : GoMap.get annotationPostprocess job.metadata.annotations ≠ "" :=
      hidden.resolve_left fun claimed => workload (by simpa [isPostprocessJob] using claimed)
    apply ((namespaceLabel_uses _ _).mono fun _ => mute_reads).bind
    intro optedOut
    split
    · exact releaseJob_mute job
    · apply ((namespaceLabel_uses _ _).mono fun _ => mute_reads).bind
      intro enabled
      split
      · trivial
      · split
        · unfold watchJob
          split
          · trivial
          · apply ((shouldPostprocess_uses job).mono fun _ => mute_reads).bind
            intro qualifies
            split
            · exact addFinalizerTo_uses finalizerName job fun _ => mute_finalizers _ _ _
            · trivial
        · rw [finishJob, if_pos recorded]
          exact releaseJob_mute job

theorem onPod_mute (pod : Pod) (hidden : Hidden (fun _ => False) pod) : (onPod w pod).Uses Mute := by
  have recorded : GoMap.get annotationPostprocess pod.metadata.annotations ≠ "" := hidden.resolve_left id
  unfold onPod
  apply ((namespaceLabel_uses _ _).mono fun _ => mute_reads).bind
  intro optedOut
  split
  · exact releasePod_mute pod
  · apply ((namespaceLabel_uses _ _).mono fun _ => mute_reads).bind
    intro enabled
    split
    · trivial
    · split
      · trivial
      · split
        · trivial
        · split
          · unfold watchPod
            split
            · trivial
            · split
              · trivial
              · exact addFinalizerTo_uses podFinalizerName pod fun _ => mute_finalizers _ _ _
          · rw [finishPod, if_pos recorded]
            exact releasePod_mute pod

theorem jobHandling (w : Watcher) : Handling w (onJob w) fun labels => GoMap.get labelPostprocessFor labels ≠ "" where
  isTrigger := Or.inl rfl
  twin _ _ _ _ standing workload twinWorkload := onJob_twin standing (decide_eq_false workload) (decide_eq_false twinWorkload)
  uses object workload := onJob_uses w object (decide_eq_false workload)
  mute := onJob_mute

theorem podHandling (w : Watcher) : Handling w (onPod w) fun _ => False where
  isTrigger := Or.inr rfl
  twin _ _ _ _ standing _ _ := onPod_twin standing
  uses object _ := onPod_uses w object
  mute := onPod_mute

end Handlers

/-! The condition. -/

/-- Either both are passed over, or neither is and as many attempts may fail for each. -/
def Comparable {kind : Kind} (claims : GoMap → Prop) (first second : Object kind) : Prop :=
  (Hidden claims first ∧ Hidden claims second) ∨ (¬ Hidden claims first ∧ ¬ Hidden claims second ∧
    budget second.metadata.annotations = budget first.metadata.annotations)

theorem creations_of_comparable {w : Watcher} {kind : Kind} {handle : Object kind → ApiProgram Unit}
    {claims : GoMap → Prop} {key : Key} {first second : Object kind} {before twinBefore : Cluster}
    (handling : Handling w handle claims) (twins : Twins first second) (comparable : Comparable claims first second)
    (found : before.find kind key = some first) (twinFound : twinBefore.find kind key = some second)
    (steps : List (Step kind)) : creations handle key before steps = creations handle key twinBefore steps := by
  rcases comparable with ⟨hidden, twinHidden⟩ | ⟨visible, twinVisible, sameBudget⟩
  · have quiet : Quiet kind claims key before := by
      intro object stored
      obtain rfl := Option.some.inj (found.symm.trans stored)
      exact hidden
    have twinQuiet : Quiet kind claims key twinBefore := by
      intro object stored
      obtain rfl := Option.some.inj (twinFound.symm.trans stored)
      exact twinHidden
    rw [quiet.creations handling, twinQuiet.creations handling]
  · obtain ⟨version, labels, annotations, rfl, sameLabels, sameAnnotations⟩ := twins
    obtain ⟨unclaimed, unrecorded⟩ := not_or.mp visible
    obtain ⟨twinUnclaimed, twinUnrecorded⟩ := not_or.mp twinVisible
    have standing : Standing first labels annotations :=
      ⟨sameLabels, sameAnnotations, iff_of_false twinUnrecorded unrecorded, sameBudget⟩
    exact Even.creations handling
      (Or.inl ⟨first, version, labels, annotations, found, twinFound, standing, unclaimed, twinUnclaimed⟩) steps

/-- Twins stay twins through the webhook. -/
theorem twins_created {first second : Job} (twins : Twins first second) (trusted requester : String) :
    Twins (created trusted requester first) (created trusted requester second) := by
  obtain ⟨version, labels, annotations, rfl, sameLabels, sameAnnotations⟩ := twins
  obtain ⟨stored, firstMetadata, firstLabels⟩ := created_metadata trusted requester first
  obtain ⟨twinStored, secondMetadata, secondLabels⟩ :=
    created_metadata trusted requester (relabelled first version labels annotations)
  have content : (created trusted requester (relabelled first version labels annotations)).content =
      (created trusted requester first).content := created_content trusted requester rfl
  refine ⟨version, twinStored, annotations, ?_, ?_, ?_⟩
  · have metadata : (created trusted requester (relabelled first version labels annotations)).metadata =
        (relabelled (created trusted requester first) version twinStored annotations).metadata := by
      rw [secondMetadata]
      unfold relabelled
      rw [firstMetadata]
    exact congrArg₂ Object.mk metadata content
  · rw [firstMetadata]
    exact secondLabels.trans (sameLabels.trans firstLabels.symm)
  · rw [firstMetadata]
    exact sameAnnotations

/-- Jobs as the webhook lets them through, and Pods: of two that differ in the watcher's
bookkeeping only, a postprocess Job is created for one whenever it is for the other, if
they are comparable. -/
theorem same_creations_of_comparable (w : Watcher) :
    (∀ (trusted requester : String) (first second : Job) (before twinBefore : Cluster), Twins first second →
      Comparable (fun labels => GoMap.get labelPostprocessFor labels ≠ "") (created trusted requester first)
        (created trusted requester second) →
      before.find .job first.key = some (created trusted requester first) →
      twinBefore.find .job first.key = some (created trusted requester second) →
      ∀ steps, creations (onJob w) first.key before steps = creations (onJob w) first.key twinBefore steps) ∧
    (∀ (first second : Pod) (before twinBefore : Cluster), Twins first second →
      Comparable (fun _ => False) first second → before.find .pod first.key = some first →
      twinBefore.find .pod first.key = some second →
      ∀ steps, creations (onPod w) first.key before steps = creations (onPod w) first.key twinBefore steps) := by
  constructor
  · intro trusted requester first second before twinBefore twins comparable found twinFound steps
    exact creations_of_comparable (jobHandling w) (twins_created twins trusted requester) comparable found twinFound steps
  · intro first second before twinBefore twins comparable found twinFound steps
    exact creations_of_comparable (podHandling w) twins comparable found twinFound steps

/-- A finished Job, with the annotations that its user gives it. -/
def finishedJob (annotations : GoMap) : Job where
  metadata := { name := "train", ns := "team", uid := "job-1", resourceVersion := 1, annotations := annotations }
  content := { template := { spec := { containers := [] } }, conditions := [{ type := "Complete", status := "True" }] }

/-- A deleted predictor with the finalizer. -/
def deletedPod (annotations : GoMap) : Pod where
  metadata := { name := "predictor", ns := "team", uid := "pod-1", resourceVersion := 1, annotations := annotations
                labels := GoMap.ofList [(labelInstrumented, "true")], finalizers := [podFinalizerName]
                deletionTimestamp := some 1 }
  content := gpuPod.content

/-- Everything is granted; nothing is stored yet but the workload and its pod. -/
def granting : Answers where
  answer
    | .cached .namespace _ => some enabledNamespace
    | .list .pod _ _ => .ok [gpuPod]
    | .list _ _ _ => .ok []
    | .get _ _ => .error .notFound
    | .create _ object => .ok object
    | .update _ object => .ok object
    | .patch kind _ _ => .ok (blank kind)
    | .delete _ _ => .ok ()
    | .generateKey => .ok []
    | request => failed "" 0 request
  takesEffect := fun _ => true

theorem twins_annotated (annotations : GoMap) (same : withoutBookkeeping annotations = ∅) :
    Twins (finishedJob none) (finishedJob annotations) ∧ Twins (deletedPod none) (deletedPod annotations) :=
  ⟨⟨1, none, annotations, rfl, rfl, same⟩, ⟨1, _, annotations, rfl, rfl, same⟩⟩

theorem same_creations_of_comparable_on_examples :
    creations (onJob Creation.exampleWatcher) ("team", "train") (Cluster.empty.write (finishedJob none)) [.event granting] =
      creations (onJob Creation.exampleWatcher) ("team", "train")
        (Cluster.empty.write (finishedJob (GoMap.ofList [(annotationPostprocessRetries, "many")]))) [.event granting] ∧
    creations (onPod Creation.exampleWatcher) ("team", "predictor") (Cluster.empty.write (deletedPod none)) [.event granting] =
      creations (onPod Creation.exampleWatcher) ("team", "predictor")
        (Cluster.empty.write (deletedPod (GoMap.ofList [(annotationPostprocessRetries, "0")]))) [.event granting] := by
  obtain ⟨job, _⟩ := twins_annotated (GoMap.ofList [(annotationPostprocessRetries, "many")]) (Keyed.ext_items (by decide +kernel))
  obtain ⟨_, pod⟩ := twins_annotated (GoMap.ofList [(annotationPostprocessRetries, "0")]) (Keyed.ext_items (by decide +kernel))
  constructor
  · refine (same_creations_of_comparable Creation.exampleWatcher).1 "watcher" "user" _ _ _ _ job ?_ rfl rfl _
    exact Or.inr ⟨by decide +kernel, by decide +kernel, by decide +kernel⟩
  · refine (same_creations_of_comparable Creation.exampleWatcher).2 _ _ _ _ pod ?_ rfl rfl _
    exact Or.inr ⟨by decide +kernel, by decide +kernel, by decide +kernel⟩

theorem annotation_dodged : creations (onJob Creation.exampleWatcher) (finishedJob none).key
      (Cluster.empty.write (finishedJob none)) [.event granting] ≠
    creations (onJob Creation.exampleWatcher) (finishedJob none).key
      (Cluster.empty.write (finishedJob (GoMap.ofList [(annotationPostprocess, "done")]))) [.event granting] := by
  decide

/-- A Job that its user has given the annotation is never postprocessed. -/
theorem annotation_dodges : ¬ ∀ (trusted requester : String) (first second : Job) (before twinBefore : Cluster),
    Twins first second → before.find .job first.key = some (created trusted requester first) →
    twinBefore.find .job first.key = some (created trusted requester second) → ∀ steps,
    creations (onJob Creation.exampleWatcher) first.key before steps =
      creations (onJob Creation.exampleWatcher) first.key twinBefore steps := by
  intro claim
  obtain ⟨twins, _⟩ := twins_annotated (GoMap.ofList [(annotationPostprocess, "done")]) (Keyed.ext_items (by decide +kernel))
  have same := claim "watcher" "user" _ _ (Cluster.empty.write (finishedJob none))
    (Cluster.empty.write (finishedJob (GoMap.ofList [(annotationPostprocess, "done")]))) twins rfl rfl [.event granting]
  exact annotation_dodged same

end AibomWebhook.Bookkeeping
