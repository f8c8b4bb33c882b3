import AibomWebhook.JobGuard
import AibomWebhook.PodPatch

/-! Histories of Jobs that pass the webhook (`handleJobAdmission` of
internal/webhook/handler.go) before they are stored: where a stored Job's
`postprocess-for` labels come from. -/

namespace AibomWebhook.JobLabels
open Aibomdata JobGuard JsonPatch Objects PodJson PodPatch Webhook

/-! The JSON text of a Job. -/

def encodeTemplate (quantityText : Quantity → String) (template : PodTemplateSpec) : Json :=
  object [("metadata", some (object [("labels", template.labels.map encodeMap)])),
    ("spec", some (encodeSpec quantityText template.spec))]

def encodeJobSpec (quantityText : Quantity → String) (content : JobContent) : Json :=
  object [("backoffLimit", content.backoffLimit.map fun limit => .number limit),
    ("ttlSecondsAfterFinished", content.ttlSecondsAfterFinished.map fun seconds => .number seconds),
    ("template", some (encodeTemplate quantityText content.template))]

def encodeJobStatus (content : JobContent) : Json :=
  object [("conditions", arrayUnlessEmpty (fun condition : JobCondition =>
    object [("type", some (.text condition.type)), ("status", some (.text condition.status))]) content.conditions)]

def encodeJob (quantityText : Quantity → String) (job : Job) : Json :=
  object [("metadata", some (encodeMetadata job.metadata)), ("spec", some (encodeJobSpec quantityText job.content)),
    ("status", some (encodeJobStatus job.content))]

/-! The handler. -/

inductive Operation where
  | create
  | update
  deriving DecidableEq, Repr

structure AdmissionRequest where
  operation : Operation
  username : String
  object : Job
  oldObject : Option Job

/-- The object that an update is compared with. -/
def AdmissionRequest.oldJob (req : AdmissionRequest) : Option Job :=
  if req.operation = .update then req.oldObject else none

structure AdmissionResponse where
  allowed : Bool
  patch : Option (List PatchOperation)

def handleJobAdmission (trustedWatcherIdentity : String) (req : AdmissionRequest) : AdmissionResponse :=
  match sanitizeJobPostprocessLabel req.object req.oldJob req.username trustedWatcherIdentity with
  | [] => { allowed := true, patch := none }
  | patches => { allowed := true, patch := some patches }

/-- The object as the API server goes on with it. -/
def admitted (trustedWatcherIdentity : String) (req : AdmissionRequest) : Job :=
  match (handleJobAdmission trustedWatcherIdentity req).patch with
  | none => req.object
  | some patches => withoutLabels patches req.object

/-! Histories. -/

/-- A request for a Job, which is stored under its key once it is admitted, or a deletion. -/
inductive Event where
  | request (operation : Operation) (username : String) (job : Job)
  | delete (key : Key)

abbrev Jobs := Keyed (Object.key : Job → Key)

/-- A creation needs a free name, an update a stored Job. -/
def store (trustedWatcherIdentity : String) (jobs : Jobs) : Event → Jobs
  | .request operation username job =>
    match operation, jobs.find? job.key with
    | .create, none => jobs.put (admitted trustedWatcherIdentity
        { operation := .create, username := username, object := job, oldObject := none })
    | .update, some old => jobs.put (admitted trustedWatcherIdentity
        { operation := .update, username := username, object := job, oldObject := some old })
    | _, _ => jobs
  | .delete key => jobs.erase key

def stored (trustedWatcherIdentity : String) (history : List Event) : Jobs :=
  history.foldl (store trustedWatcherIdentity) ∅

/-! The property. -/

/-- Where a Job carries labels. -/
inductive Position where
  | own
  | template

def Position.labels (position : Position) (job : Job) : GoMap :=
  match position with
  | own => job.metadata.labels
  | template => job.content.template.labels

def Carries (position : Position) (value : String) (job : Job) : Prop :=
  GoMap.lookup labelPostprocessFor (position.labels job) = some value

/-- A request of the trusted identity that was stored with this value in this place. -/
def PutByTrusted (trustedWatcherIdentity : String) (history : List Event) (key : Key) (position : Position)
    (value : String) : Prop :=
  ∃ before operation job after, history = before ++ .request operation trustedWatcherIdentity job :: after ∧
    job.key = key ∧ Carries position value job ∧
    (stored trustedWatcherIdentity (before ++ [.request operation trustedWatcherIdentity job])).find? key = some job

/-! What an admission does to the labels. -/

def Position.path : Position → String
  | own => jobLabelPath
  | template => templateLabelPath

section Admission
variable {trusted : String} {req : AdmissionRequest}

theorem handle_patch (trusted : String) (req : AdmissionRequest) :
    (handleJobAdmission trusted req).patch =
      match sanitizeJobPostprocessLabel req.object req.oldJob req.username trusted with
      | [] => none
      | patches => some patches := by
  unfold handleJobAdmission
  cases sanitizeJobPostprocessLabel req.object req.oldJob req.username trusted <;> rfl

theorem handle_trusted (own : req.username = trusted) : (handleJobAdmission trusted req).patch = none := by
  rw [handle_patch, sanitizeJobPostprocessLabel, if_pos (Or.inr own)]

theorem admitted_trusted (own : req.username = trusted) : admitted trusted req = req.object := by
  rw [admitted, handle_trusted own]

theorem withoutLabels_nil (job : Job) : withoutLabels [] job = job := rfl

theorem admitted_eq (trusted : String) (req : AdmissionRequest) : admitted trusted req =
    withoutLabels (sanitizeJobPostprocessLabel req.object req.oldJob req.username trusted) req.object := by
  rw [admitted, handle_patch]
  split
  · rename_i absent
    split at absent
    · rename_i unpatched
      rw [unpatched, withoutLabels_nil]
    · cases absent
  · rename_i patches present
    split at present
    · cases present
    · obtain rfl := Option.some.inj present
      rfl

theorem labels_withoutLabels (position : Position) (patches : List PatchOperation) (job : Job) :
    position.labels (withoutLabels patches job) =
      if patches.any fun patch => patch.path = position.path then dropLabel (position.labels job)
      else position.labels job := by
  cases position with
  | own =>
    change (withoutLabels patches job).metadata.labels =
      if patches.any fun patch => patch.path = jobLabelPath then dropLabel job.metadata.labels else job.metadata.labels
    cases removed : patches.any fun patch => patch.path = jobLabelPath <;> simp [withoutLabels, removed]
  | template =>
    change (withoutLabels patches job).content.template.labels =
      if patches.any fun patch => patch.path = templateLabelPath then dropLabel job.content.template.labels
      else job.content.template.labels
    cases removed : patches.any fun patch => patch.path = templateLabelPath <;> simp [withoutLabels, removed]

theorem key_withoutLabels (patches : List PatchOperation) (job : Job) : (withoutLabels patches job).key = job.key := by
  simp only [withoutLabels, Object.key]
  split <;> rfl

theorem key_admitted (trusted : String) (req : AdmissionRequest) : (admitted trusted req).key = req.object.key := by
  rw [admitted_eq, key_withoutLabels]

/-- A label is removed where this admission has changed it. -/
theorem removes_iff (guarded : ¬(trusted = "" ∨ req.username = trusted)) (position : Position) :
    ((sanitizeJobPostprocessLabel req.object req.oldJob req.username trusted).any fun patch => patch.path = position.path) =
      changedLabel (position.labels req.object) (req.oldJob.bind position.labels) := by
  have paths : jobLabelPath ≠ templateLabelPath := by decide
  rw [sanitizeJobPostprocessLabel, if_neg guarded, List.any_append]
  cases position with
  | own =>
    show _ = changedLabel req.object.metadata.labels (req.oldJob.bind fun old => old.metadata.labels)
    cases changedLabel req.object.metadata.labels (req.oldJob.bind fun old => old.metadata.labels) <;>
      cases changedLabel req.object.content.template.labels (req.oldJob.bind fun old => old.content.template.labels) <;>
      simp [Position.path, paths.symm]
  | template =>
    show _ = changedLabel req.object.content.template.labels (req.oldJob.bind fun old => old.content.template.labels)
    cases changedLabel req.object.metadata.labels (req.oldJob.bind fun old => old.metadata.labels) <;>
      cases changedLabel req.object.content.template.labels (req.oldJob.bind fun old => old.content.template.labels) <;>
      simp [Position.path, paths]

theorem lookup_dropLabel (labels : GoMap) : GoMap.lookup labelPostprocessFor (dropLabel labels) = none := by
  cases labels with
  | none => rfl
  | some map => simp [GoMap.lookup, dropLabel]

/-- What another identity's Job carries once it is admitted, the old Job carried. -/
theorem carries_before (configured : trusted ≠ "") (foreign : req.username ≠ trusted) {position : Position} {value : String}
    (carries : Carries position value (admitted trusted req)) : ∃ old, req.oldJob = some old ∧ Carries position value old := by
  have guarded : ¬(trusted = "" ∨ req.username = trusted) := by simp [configured, foreign]
  rw [Carries, admitted_eq, labels_withoutLabels, removes_iff guarded] at carries
  split at carries
  · rw [lookup_dropLabel] at carries
    cases carries
  · rename_i unchanged
    simp only [changedLabel, carries, decide_eq_true_eq, not_not] at unchanged
    obtain ⟨old, before⟩ : ∃ old, req.oldJob = some old := by
      cases before : req.oldJob with
      | none =>
        rw [before] at unchanged
        cases unchanged
      | some old => exact ⟨old, rfl⟩
    rw [before] at unchanged
    exact ⟨old, before, unchanged⟩

end Admission

/-! The patches, on the JSON text. -/

section Patches
variable {qt : Quantity → String}

def Position.withLabels (position : Position) (labels : GoMap) (job : Job) : Job :=
  match position with
  | own => { job with metadata := { job.metadata with labels := labels } }
  | template => { job with content := { job.content with template := { job.content.template with labels := labels } } }

def removal (position : Position) : PatchOperation := { op := .remove, path := position.path }

theorem edit_labels (position : Position) {job : Job} {labels : StringMap} (present : position.labels job = some labels)
    (listed : (labels.find? labelPostprocessFor).isSome) :
    ((removal position).marshal qt).apply (encodeJob qt job) =
      some (encodeJob qt (position.withLabels (some (labels.erase labelPostprocessFor)) job)) := by
  have removed := map_remove listed
  cases position with
  | own =>
    have path : pointer jobLabelPath = some (["metadata", "labels"] ++ [labelPostprocessFor]) := by rfl
    have present : job.metadata.labels = some labels := present
    have edited := metadata_editLabels present removed
    simp only [Operation.apply, removal, PatchOperation.marshal, Position.path, path, Option.bind_some, operate_append,
      Option.map_none]
    rw [encodeJob, object, within_record (by rfl), edited]
    rfl
  | template =>
    have path : pointer templateLabelPath =
        some (["spec", "template", "metadata", "labels"] ++ [labelPostprocessFor]) := by rfl
    have present : job.content.template.labels = some labels := present
    simp only [Operation.apply, removal, PatchOperation.marshal, Position.path, path, Option.bind_some, operate_append,
      Option.map_none]
    rw [encodeJob, object, within_record (by rfl), encodeJobSpec, object, within_record (by rfl), encodeTemplate, object,
      within_record (by rfl), present, object, within_record (by rfl), Json.within, removed]
    rfl

theorem apply_removal (position : Position) {job : Job}
    (carries : (GoMap.lookup labelPostprocessFor (position.labels job)).isSome) :
    ((removal position).marshal qt).apply (encodeJob qt job) =
      some (encodeJob qt (position.withLabels (dropLabel (position.labels job)) job)) := by
  cases labels : position.labels job with
  | none =>
    rw [labels] at carries
    cases carries
  | some map =>
    refine edit_labels position labels ?_
    rw [labels, GoMap.lookup, Option.isSome_map] at carries
    exact carries

theorem carries_of_changed {labels oldLabels : GoMap} (changed : changedLabel labels oldLabels = true) :
    (GoMap.lookup labelPostprocessFor labels).isSome := by
  unfold changedLabel at changed
  split at changed
  · cases changed
  · rename_i value found
    rw [found]
    rfl

/-- The removals of one admission apply to its object, and leave it as the API server goes on with it. -/
theorem sanitize_applies (job : Job) (oldJob : Option Job) (username trusted : String) :
    applyPatch ((sanitizeJobPostprocessLabel job oldJob username trusted).map (PatchOperation.marshal qt)) (encodeJob qt job) =
      some (encodeJob qt (withoutLabels (sanitizeJobPostprocessLabel job oldJob username trusted) job)) := by
  have paths : jobLabelPath ≠ templateLabelPath := by decide
  unfold sanitizeJobPostprocessLabel
  split
  · rfl
  · by_cases own : changedLabel job.metadata.labels (oldJob.bind fun old => old.metadata.labels) = true <;>
      by_cases template : changedLabel job.content.template.labels (oldJob.bind fun old => old.content.template.labels) = true
    · have first : _ = some (encodeJob qt (Position.own.withLabels (dropLabel job.metadata.labels) job)) :=
        apply_removal .own (carries_of_changed own)
      have second : _ = some (encodeJob qt (Position.template.withLabels (dropLabel job.content.template.labels)
          (Position.own.withLabels (dropLabel job.metadata.labels) job))) :=
        apply_removal .template (carries_of_changed template)
      rw [if_pos own, if_pos template]
      change (((removal .own).marshal qt).apply (encodeJob qt job)).bind
        (fun json => (((removal .template).marshal qt).apply json).bind some) = _
      rw [first]
      simp only [Option.bind_some]
      refine (congrArg (Option.bind · some) second).trans ?_
      simp [withoutLabels, Position.withLabels, paths, paths.symm]
    · have first : _ = some (encodeJob qt (Position.own.withLabels (dropLabel job.metadata.labels) job)) :=
        apply_removal .own (carries_of_changed own)
      rw [if_pos own, if_neg template]
      change (((removal .own).marshal qt).apply (encodeJob qt job)).bind some = _
      rw [first]
      simp [withoutLabels, Position.withLabels, paths]
    · have second : _ = some (encodeJob qt (Position.template.withLabels (dropLabel job.content.template.labels) job)) :=
        apply_removal .template (carries_of_changed template)
      rw [if_neg own, if_pos template]
      change (((removal .template).marshal qt).apply (encodeJob qt job)).bind some = _
      rw [second]
      simp [withoutLabels, Position.withLabels, paths.symm]
    · rw [if_neg own, if_neg template]
      rfl

end Patches

/-! The histories. -/

theorem stored_append (trusted : String) (history : List Event) (event : Event) :
    stored trusted (history ++ [event]) = store trusted (stored trusted history) event := by
  rw [stored, List.foldl_append, List.foldl_cons, List.foldl_nil, ← stored]

/-- What is stored after an event was stored before, or is the event's Job as it was admitted. -/
theorem store_cases {trusted : String} {jobs : Jobs} {event : Event} {key : Key} {job : Job}
    (found : (store trusted jobs event).find? key = some job) :
    jobs.find? key = some job ∨ ∃ req : AdmissionRequest, event = .request req.operation req.username req.object ∧
      req.object.key = key ∧ job = admitted trusted req ∧ (∀ old, req.oldJob = some old → jobs.find? key = some old) := by
  cases event with
  | delete place =>
    left
    by_cases same : key = place
    · subst same
      rw [store, Keyed.find?_erase_self] at found
      cases found
    · rwa [store, Keyed.find?_erase_of_ne same] at found
  | request operation username object =>
    have put (req : AdmissionRequest) (here : req.object = object)
        (stored : (jobs.put (admitted trusted req)).find? key = some job) :
        jobs.find? key = some job ∨ (object.key = key ∧ job = admitted trusted req) := by
      rw [Keyed.find?_put, key_admitted, here] at stored
      split at stored
      · rename_i same
        exact Or.inr ⟨same, (Option.some.inj stored).symm⟩
      · exact Or.inl stored
    simp only [store] at found
    split at found
    · rename_i free
      refine (put _ rfl found).imp_right fun ⟨named, admission⟩ => ⟨_, rfl, named, admission, ?_⟩
      intro old before
      cases before
    · rename_i old present
      refine (put _ rfl found).imp_right fun ⟨named, admission⟩ => ⟨_, rfl, named, admission, ?_⟩
      intro other before
      obtain rfl := Option.some.inj before
      rw [← named, present]
    · exact Or.inl found

theorem PutByTrusted.append {trusted : String} {history : List Event} {key : Key} {position : Position} {value : String}
    (put : PutByTrusted trusted history key position value) (event : Event) :
    PutByTrusted trusted (history ++ [event]) key position value := by
  obtain ⟨before, operation, job, after, rfl, rest⟩ := put
  exact ⟨before, operation, job, after ++ [event], by simp, rest⟩

theorem put_of_stored {trusted : String} (configured : trusted ≠ "") {history : List Event} {key : Key} {job : Job}
    (found : (stored trusted history).find? key = some job) {position : Position} {value : String}
    (carries : Carries position value job) : PutByTrusted trusted history key position value := by
  induction history using List.reverseRecOn generalizing key job with
  | nil => cases found
  | append_singleton history event ih =>
    have after := found
    rw [stored_append] at after
    rcases store_cases after with before | ⟨req, rfl, rfl, rfl, old⟩
    · exact (ih before carries).append event
    · by_cases own : req.username = trusted
      · subst own
        rw [admitted_trusted rfl] at carries found
        exact ⟨history, req.operation, req.object, [], rfl, rfl, carries, found⟩
      · obtain ⟨previous, compared, carried⟩ := carries_before configured own carries
        exact (ih (old previous compared) carried).append _

/-- A Job's label comes from the trusted identity, whose own Jobs are left as they are,
and the patch for any Job applies to it. -/
theorem label_only_from_watcher (trusted : String) (configured : trusted ≠ "") :
    (∀ history key job position value, (stored trusted history).find? key = some job → Carries position value job →
      PutByTrusted trusted history key position value) ∧
    (∀ req : AdmissionRequest, req.username = trusted → (handleJobAdmission trusted req).patch = none) ∧
    ∀ (req : AdmissionRequest) patches qt, (handleJobAdmission trusted req).patch = some patches →
      applyPatch (patches.map (PatchOperation.marshal qt)) (encodeJob qt req.object) =
        some (encodeJob qt (admitted trusted req)) := by
  refine ⟨fun _ _ _ _ _ found carries => put_of_stored configured found carries, fun _ own => handle_trusted own, ?_⟩
  intro req patches qt returned
  have applied : applyPatch ((sanitizeJobPostprocessLabel req.object req.oldJob req.username trusted).map
      (PatchOperation.marshal qt)) (encodeJob qt req.object) = some (encodeJob qt (admitted trusted req)) := by
    rw [admitted_eq]
    exact sanitize_applies req.object req.oldJob req.username trusted
  rw [handle_patch] at returned
  split at returned
  · cases returned
  · rwa [Option.some.inj returned] at applied

def labelledJob (templateLabels : GoMap) : Job where
  metadata := { name := "train-aibom-postprocess", ns := "aibom", labels := GoMap.ofList [(labelPostprocessFor, "train")] }
  content := { template := { labels := templateLabels, spec := { containers := [] } } }

/-- A user adds the label to the template of a Job that the watcher has labelled. -/
def updatedHistory : List Event :=
  [.request .create "watcher" (labelledJob none),
    .request .update "user" (labelledJob (GoMap.ofList [(labelPostprocessFor, "train")]))]

theorem label_only_from_watcher_on_update : ∃ job,
    (stored "watcher" updatedHistory).find? ("aibom", "train-aibom-postprocess") = some job ∧
      GoMap.lookup labelPostprocessFor job.content.template.labels = none ∧
      PutByTrusted "watcher" updatedHistory ("aibom", "train-aibom-postprocess") .own "train" := by
  have ends : ((stored "watcher" updatedHistory).find? ("aibom", "train-aibom-postprocess")).map (fun job =>
      (GoMap.lookup labelPostprocessFor job.metadata.labels, GoMap.lookup labelPostprocessFor job.content.template.labels)) =
        some (some "train", none) := by decide +kernel
  obtain ⟨job, found, labels⟩ := Option.map_eq_some_iff.mp ends
  obtain ⟨own, template⟩ := Prod.mk.inj labels
  exact ⟨job, found, template,
    (label_only_from_watcher "watcher" (by decide)).1 updatedHistory _ job .own "train" found own⟩

end AibomWebhook.JobLabels
