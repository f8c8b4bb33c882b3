import AibomWebhook.Mutator

/-! What the webhook does to a Job that claims to be a postprocess Job
(internal/webhook/jobguard.go). -/

namespace AibomWebhook.JobGuard
open Aibomdata JsonPatch Objects Webhook

/-- Whether this admission is the one that brings the label in or changes it. -/
def changedLabel (labels oldLabels : GoMap) : Bool :=
  match GoMap.lookup labelPostprocessFor labels with
  | none => false
  | some val => GoMap.lookup labelPostprocessFor oldLabels ≠ some val

def jobLabelPath : String := "/metadata/labels/aibom.io~1postprocess-for"

def templateLabelPath : String := "/spec/template/metadata/labels/aibom.io~1postprocess-for"

def sanitizeJobPostprocessLabel (job : Job) (oldJob : Option Job) (requesterUsername trustedIdentity : String) :
    List PatchOperation :=
  if trustedIdentity = "" ∨ requesterUsername = trustedIdentity then []
  else
    (if changedLabel job.metadata.labels (oldJob.bind fun old => old.metadata.labels) then
      [{ op := .remove, path := jobLabelPath }] else []) ++
    (if changedLabel job.content.template.labels (oldJob.bind fun old => old.content.template.labels) then
      [{ op := .remove, path := templateLabelPath }] else [])

def dropLabel (labels : GoMap) : GoMap := labels.map (Keyed.erase labelPostprocessFor)

/-- The Job with these removals made. -/
def withoutLabels (patches : List PatchOperation) (job : Job) : Job where
  metadata :=
    if patches.any fun patch => patch.path = jobLabelPath then
      { job.metadata with labels := dropLabel job.metadata.labels }
    else job.metadata
  content :=
    if patches.any fun patch => patch.path = templateLabelPath then
      { job.content with template :=
          { job.content.template with labels := dropLabel job.content.template.labels } }
    else job.content

/-- A new Job as it is stored. -/
def created (trustedIdentity requesterUsername : String) (job : Job) : Job :=
  withoutLabels (sanitizeJobPostprocessLabel job none requesterUsername trustedIdentity) job

theorem erase_dropLabel (labels : GoMap) :
    ((dropLabel labels).getD ∅).erase labelPostprocessFor = (labels.getD ∅).erase labelPostprocessFor := by
  cases labels with
  | none => rfl
  | some map =>
    apply Keyed.ext_items
    simp [dropLabel, Keyed.erase, List.filter_filter]

/-- Only the label is ever touched. -/
theorem created_metadata (trustedIdentity requesterUsername : String) (job : Job) :
    ∃ labels, (created trustedIdentity requesterUsername job).metadata = { job.metadata with labels := labels } ∧
      (labels.getD ∅).erase labelPostprocessFor = (job.metadata.labels.getD ∅).erase labelPostprocessFor := by
  simp only [created, withoutLabels]
  split
  · exact ⟨_, rfl, erase_dropLabel _⟩
  · exact ⟨_, rfl, rfl⟩

/-- The labels of the Job itself do not decide what becomes of its template. -/
theorem created_content (trustedIdentity requesterUsername : String) {first second : Job}
    (same : second.content = first.content) : (created trustedIdentity requesterUsername second).content =
      (created trustedIdentity requesterUsername first).content := by
  have paths : ¬ jobLabelPath = templateLabelPath := by decide
  have removed (job : Job) (guarded : ¬ (trustedIdentity = "" ∨ requesterUsername = trustedIdentity)) :
      (sanitizeJobPostprocessLabel job none requesterUsername trustedIdentity).any
        (fun patch => decide (patch.path = templateLabelPath)) = changedLabel job.content.template.labels none := by
    simp only [sanitizeJobPostprocessLabel, if_neg guarded, Option.bind_none]
    by_cases own : changedLabel job.metadata.labels none = true <;>
      by_cases template : changedLabel job.content.template.labels none = true <;> simp [own, template, paths]
  simp only [created, withoutLabels]
  by_cases trusted : trustedIdentity = "" ∨ requesterUsername = trustedIdentity
  · simp only [sanitizeJobPostprocessLabel, if_pos trusted, List.any_nil, Bool.false_eq_true, if_false]
    exact same
  · rw [removed second trusted, removed first trusted, same]

end AibomWebhook.JobGuard
