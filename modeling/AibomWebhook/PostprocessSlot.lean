import AibomWebhook.Creation
import AibomWebhook.Library.Checked

/-! Whether a postprocess Job that another run of the same workload is still using is
left alone. `createPostprocessJobCore` looks at the Jobs first, and then writes the
inputs and creates its Job without looking again. -/

namespace AibomWebhook.PostprocessSlot
open Aibomdata Creation Kubernetes Objects Postprocess PostprocessData Requests

/-- Whether a request changes or deletes a ConfigMap that is there. -/
def overwrites (key : Key) : Request → Bool
  | .update .configMap object => object.key = key
  | .patch .configMap other _ => other = key
  | .delete .configMap other => other = key
  | _ => false

section Property
variable (weather : Weather) (call : Call) (start : Cluster)

/-- A request that takes effect on the inputs that an unfinished Job of another run mounts. -/
structure Clobbers (entry : Served ApiServer Cluster) : Prop where
  overwrites : overwrites call.inputs entry.request = true
  performed : ∀ message, weather.fate entry.request ≠ .refused message
  mounted : ∃ inputs, entry.before.find .configMap call.inputs = some inputs
  busy : ∃ job, entry.before.find .job call.slot = some job ∧ jobResult job = "" ∧ call.ofOtherRun job

/-- The call succeeds only if the Job is then its run's, and never clobbers another's inputs. -/
structure SlotKept : Prop where
  succeeds : ∀ name, (call.outcome weather start).1 = .ok name →
    ∃ job, (call.outcome weather start).2.find .job call.slot = some job ∧ ¬ call.ofOtherRun job
  spares : ∀ entry ∈ call.trace weather start, ¬ Clobbers weather call entry

/-- The inputs that are there get overwritten. -/
def Overwritten (cluster : Cluster) : Prop :=
  weather.fate (inputsRequest call) = .served ∧ ∃ existing, cluster.find .configMap call.inputs = some existing ∧
    ∀ message, weather.fate (merging call (call.seen weather cluster) existing) ≠ .refused message

/-- A Job of another run, if the call goes on over one, makes its Create fail and, while
it is unfinished, keeps its inputs. -/
def Undisturbed (cluster : Cluster) : Prop :=
  ∀ job, cluster.find .job call.slot = some job → call.ofOtherRun job →
    weather.fate (jobCreation call) ≠ .served ∧ (jobResult job = "" → ¬ Overwritten weather call cluster)

variable {weather call start}

theorem overwrites_writes {key : Key} {request : Request} (does : overwrites key request = true) :
    request.writes = some .configMap := by
  unfold overwrites at does
  split at does
  · rfl
  · rfl
  · rfl
  · exact absurd does Bool.false_ne_true

/-- A Job whose deletion was requested is gone, or has the result it had. -/
theorem find_deleted {cluster : Cluster} {job : Job}
    (found : (weather.serve cluster (.delete .job call.slot)).2.find .job call.slot = some job) :
    ∃ old, cluster.find .job call.slot = some old ∧ jobResult job = jobResult old := by
  generalize after : (weather.serve cluster (.delete .job call.slot)).2 = next at found
  have effect := serve_effect (weather.circumstance (.delete .job call.slot)) cluster (.delete .job call.slot)
  have met : (Kubernetes.serve (weather.circumstance (.delete .job call.slot)) cluster
    (.delete .job call.slot)).2 = next := after
  rw [met] at effect
  cases effect with
  | unchanged => exact ⟨job, found, rfl⟩
  | deleted kind key old stored =>
    refine ⟨old, stored, ?_⟩
    rw [find_write] at found
    split at found
    · split at found
      · exact absurd found (by simp)
      · obtain rfl := Option.some.inj found
        rfl
    · rw [stored] at found
      obtain rfl := Option.some.inj found
      rfl

/-- The Job that the call creates is one of its own run. -/
theorem created_ofOwnRun (weather : Weather) (call : Call) (cluster : Cluster) :
    ¬ call.ofOtherRun (call.created weather cluster) := by
  intro foreign
  have uid : GoMap.get annotationPostprocessTriggerUID (call.created weather cluster).metadata.annotations =
      call.triggerUID := triggerUID_job call
  exact foreign.2 uid

/-- A guard that found this run's Job leaves it in the slot. -/
theorem sameRun_occupies (occupant : (call.guard.run weather.serve start).1 = .sameRun) :
    ∃ job, (call.guard.run weather.serve start).2.find .job call.slot = some job ∧ ¬ call.ofOtherRun job := by
  rw [guard_run] at occupant ⊢
  split at occupant
  · rename_i served
    rw [if_pos served]
    simp only [Call.occupant] at occupant
    split at occupant
    · exact absurd occupant (by simp)
    · rename_i job listed
      split at occupant
      · exact absurd occupant (by simp)
      · rename_i unfailed
        split at occupant
        · exact absurd occupant (by simp)
        · rename_i own
          have stays : ¬ (call.listed start).any (fun job => jobResult job = "Failed") = true := by
            rw [listed]
            simpa using unfailed
          rw [if_neg stays]
          rw [Call.listed, Option.filter_eq_some_iff] at listed
          exact ⟨job, listed.1, own⟩
  · exact absurd occupant (by simp)

theorem guard_spares : ∀ entry ∈ call.guard.served weather.serve start, ¬ Clobbers weather call entry := by
  intro entry member clobbers
  rw [guard_served] at member
  rcases List.mem_cons.mp member with rfl | member
  · exact absurd clobbers.overwrites Bool.false_ne_true
  · split at member
    · rename_i condition
      rcases List.mem_cons.mp member with rfl | member
      · exact absurd clobbers.overwrites Bool.false_ne_true
      · obtain rfl := List.mem_singleton.mp member
        obtain ⟨job, found, unfinished, _⟩ := clobbers.busy
        obtain ⟨old, stored, result⟩ := find_deleted found
        obtain ⟨other, listed, failed⟩ := (Option.any_eq_true _ _).mp condition.2
        rw [Call.listed, Option.filter_eq_some_iff, stored] at listed
        obtain rfl := Option.some.inj listed.1
        rw [unfinished, of_decide_eq_true failed] at result
        exact absurd result (by decide)
    · simp at member

/-- After its Job is created the call only touches the inputs of its own Job. -/
theorem finish_spares {cluster : Cluster} {entry : Served ApiServer Cluster}
    (member : entry ∈ match (weather.serve cluster (jobCreation call)).1 with
      | .ok created =>
        (ownDataConfigMap created call.inputsName).served weather.serve (weather.serve cluster (jobCreation call)).2
      | .error _ => []) : ¬ Clobbers weather call entry := by
  intro clobbers
  by_cases served : weather.fate (jobCreation call) = .served
  · cases occupied : cluster.find .job call.slot with
    | none =>
      rw [serve_jobCreation_free served occupied] at member
      have before := ownDataConfigMap_served weather call _ _ entry member
      obtain ⟨job, found, _, foreign⟩ := clobbers.busy
      rw [before, find_launched] at found
      obtain rfl := Option.some.inj found
      exact created_ofOwnRun weather call cluster foreign
    | some job =>
      rw [serve_jobCreation_taken served occupied] at member
      simp at member
  · obtain ⟨message, failed⟩ := weather.serve_failed cluster (jobCreation call) served
    have error : (weather.serve cluster (jobCreation call)).1 = .error (.other message) := failed
    rw [error] at member
    simp at member

/-- Of the launch only the update of the inputs can clobber those of another run. -/
theorem launch_clobbers_iff (weather : Weather) (call : Call) (cluster : Cluster) :
    (∃ entry ∈ call.launch.served weather.serve cluster, Clobbers weather call entry) ↔
      Overwritten weather call cluster ∧
        ∃ job, cluster.find .job call.slot = some job ∧ jobResult job = "" ∧ call.ofOtherRun job := by
  rw [launch_served]
  constructor
  · rintro ⟨entry, member, clobbers⟩
    have writes := overwrites_writes clobbers.overwrites
    rw [List.mem_append, List.mem_append, List.mem_append] at member
    rcases member with reading | writing | key | finishing
    · rw [(buildInputs_uses call).served weather.serve cluster entry reading] at writes
      exact absurd writes (by simp)
    · rw [createInputs_served] at writing
      rcases List.mem_cons.mp writing with rfl | writing
      · exact absurd clobbers.overwrites Bool.false_ne_true
      · split at writing
        · rename_i served
          split at writing
          · obtain rfl := List.mem_singleton.mp writing
            exact absurd clobbers.overwrites Bool.false_ne_true
          · rename_i existing found
            obtain rfl := List.mem_singleton.mp writing
            exact ⟨⟨served, existing, found, clobbers.performed⟩, clobbers.busy⟩
        · simp at writing
    · rcases (ensureKey_uses call).served weather.serve _ entry key with none | secret
      · rw [none] at writes
        exact absurd writes (by simp)
      · rw [secret] at writes
        exact absurd writes (by simp)
    · rw [finish_served] at finishing
      rcases List.mem_cons.mp finishing with rfl | owning
      · exact absurd clobbers.overwrites Bool.false_ne_true
      · exact absurd clobbers (finish_spares owning)
  · rintro ⟨⟨served, existing, found, performed⟩, busy⟩
    let update : Served ApiServer Cluster :=
      ⟨cluster, merging call (call.seen weather cluster) existing,
        (weather.serve cluster (merging call (call.seen weather cluster) existing)).1⟩
    refine ⟨update, ?_, ?_⟩
    · rw [createInputs_served, if_pos served, found]
      have second : update ∈ [⟨cluster, inputsRequest call, (weather.serve cluster (inputsRequest call)).1⟩, update] :=
        List.mem_cons_of_mem _ (List.mem_singleton_self update)
      exact List.mem_append_right _ (List.mem_append_left _ second)
    · have own : existing.key = call.inputs := Keyed.key_of_find? found
      exact { overwrites := decide_eq_true own, performed := performed, mounted := ⟨existing, found⟩, busy := busy }

/-- The launch succeeds over the Job of another run exactly when its Create is answered. -/
theorem launch_succeeds_iff (weather : Weather) (call : Call) (cluster : Cluster) :
    (∀ name, (call.launch.run weather.serve cluster).1 = .ok name →
      ∃ job, (call.launch.run weather.serve cluster).2.find .job call.slot = some job ∧ ¬ call.ofOtherRun job) ↔
    ∀ job, cluster.find .job call.slot = some job → call.ofOtherRun job → weather.fate (jobCreation call) ≠ .served := by
  have jobs := find_ready_job weather call cluster call.slot
  rw [launch_run]
  by_cases served : weather.fate (jobCreation call) = .served
  · cases occupied : cluster.find .job call.slot with
    | none =>
      rw [occupied] at jobs
      constructor
      · intro _ job found
        exact absurd found (by simp)
      · intro _ name succeeded
        exact ⟨_, finish_created_job served jobs, created_ofOwnRun weather call _⟩
    | some job =>
      rw [occupied] at jobs
      rw [finish_taken served jobs]
      constructor
      · intro kept other same foreign
        obtain rfl := Option.some.inj same
        obtain ⟨found, stored, own⟩ := kept _ rfl
        rw [jobs] at stored
        obtain rfl := Option.some.inj stored
        exact absurd foreign own
      · intro undisturbed name succeeded
        exact ⟨job, jobs, fun foreign => undisturbed job rfl foreign served⟩
  · obtain ⟨error, failed⟩ := finish_failed served
    rw [failed]
    constructor
    · intro _ _ _ _
      exact served
    · intro _ name succeeded
      exact absurd succeeded (by simp)

/-- The slot is kept exactly when the call goes on over no Job of another run. -/
theorem slot_kept_iff (weather : Weather) (call : Call) (start : Cluster) :
    SlotKept weather call start ↔ (call.Passes weather start → Undisturbed weather call (call.middle weather start)) := by
  have guarded : ∀ entry ∈ call.guard.served weather.serve start, ¬ Clobbers weather call entry := guard_spares
  cases occupant : (call.guard.run weather.serve start).1 with
  | otherRun =>
    have stops : ¬ call.Passes weather start := by rw [← guard_neither_iff, occupant]; simp
    refine iff_of_true ⟨?_, ?_⟩ fun passes => absurd passes stops
    · simp [Call.outcome, occupant]
    · simpa [Call.trace, occupant] using guarded
  | sameRun =>
    have stops : ¬ call.Passes weather start := by rw [← guard_neither_iff, occupant]; simp
    refine iff_of_true ⟨?_, ?_⟩ fun passes => absurd passes stops
    · simp only [Call.outcome, occupant]
      intro _ _
      exact sameRun_occupies occupant
    · simpa [Call.trace, occupant] using guarded
  | neither =>
    have passes : call.Passes weather start := (guard_neither_iff weather call start).mp occupant
    have succeeds := launch_succeeds_iff weather call (call.middle weather start)
    have clobbers := launch_clobbers_iff weather call (call.middle weather start)
    constructor
    · intro kept _ job found foreign
      have result := kept.succeeds
      simp only [Call.outcome, occupant] at result
      refine ⟨succeeds.mp result job found foreign, fun unfinished overwritten => ?_⟩
      obtain ⟨entry, member, clobbered⟩ := clobbers.mpr ⟨overwritten, job, found, unfinished, foreign⟩
      have traced : entry ∈ call.trace weather start := by
        simp only [Call.trace, occupant]
        exact List.mem_append_right _ member
      exact kept.spares entry traced clobbered
    · intro undisturbed
      constructor
      · simp only [Call.outcome, occupant]
        exact succeeds.mpr fun job found foreign => (undisturbed passes job found foreign).1
      · simp only [Call.trace, occupant]
        intro entry member clobbered
        rcases List.mem_append.mp member with early | late
        · exact guarded entry early clobbered
        · obtain ⟨overwritten, job, found, unfinished, foreign⟩ := clobbers.mp ⟨entry, late, clobbered⟩
          exact (undisturbed passes job found foreign).2 unfinished overwritten

end Property

/-! The failed Job of an earlier run has a finalizer, so that it is still there when the
Create comes. No request fails. -/

def terminatingJob : Job :=
  let earlier := exampleWatcher.postprocessJob "team" "train" "Job" "job-0"
  { metadata := { earlier.metadata with finalizers := ["foregroundDeletion"] }
    content := { earlier.content with conditions := [{ type := "Failed", status := "True" }] } }

def terminatingCluster : Cluster := Cluster.empty.write terminatingJob

/-- The call succeeds, and the name is that of the earlier run's Job. -/
def slotTaken : Checked
    ((exampleCall.outcome (failing fun _ => false) terminatingCluster).2.find .job exampleCall.slot) fun job =>
      (exampleCall.outcome (failing fun _ => false) terminatingCluster).1 = .ok exampleCall.postprocessName ∧
      exampleCall.ofOtherRun job := .of (by decide +kernel)

theorem terminating_job_taken_for_own : ¬ SlotKept (failing fun _ => false) exampleCall terminatingCluster := by
  intro kept
  obtain ⟨job, stored, succeeded, other⟩ := slotTaken
  obtain ⟨named, found, own⟩ := kept.succeeds _ succeeded
  obtain rfl := Option.some.inj (stored.symm.trans found)
  exact own other

end AibomWebhook.PostprocessSlot
