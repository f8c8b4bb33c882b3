import AibomWebhook.Writes

/-! The life of one Job or Pod under the watcher: others change its status or delete
it, and its events are handled one after the other, each with the object as it is
stored at that time. The API server answers as it likes; what it accepts of the
requests for the object itself takes effect. -/

namespace AibomWebhook.Lifetime
open Aibomdata Events Kubernetes Objects Postprocess PostprocessData Requests Writes

/-- How the requests of one handler call end. -/
structure Answers where
  answer : (request : Request) → Response request
  takesEffect : Request → Bool

inductive Step (kind : Kind) where
  | event (answers : Answers)
  | status (content : Content kind → Content kind)
  | deletion (time : Time)

section
variable {kind : Kind} (handle : Object kind → ApiProgram Unit) (key : Key)

/-- Whether a request writes the object itself. -/
def writesOwn (kind : Kind) (key : Key) : Request → Bool
  | .patch other place _ => other = kind && place = key
  | .delete other place => other = kind && place = key
  | _ => false

def Answers.serve (kind : Kind) (answers : Answers) (cluster : Cluster) (request : Request) :
    Response request × Cluster :=
  (answers.answer request,
    if writesOwn kind key request && answers.takesEffect request then (perform "" 0 cluster request).2 else cluster)

def act (cluster : Cluster) : Step kind → Cluster
  | .event answers =>
    match cluster.find kind key with
    | none => cluster
    | some object => ((handle object).run (answers.serve key kind) cluster).2
  | .status content =>
    match cluster.find kind key with
    | none => cluster
    | some object => cluster.write { object with content := content object.content }
  | .deletion time => (perform "" time cluster (.delete kind key)).2

def live (cluster : Cluster) (steps : List (Step kind)) : Cluster := steps.foldl (act handle key) cluster

def Step.isEvent : Step kind → Bool
  | .event _ => true
  | _ => false

def events (steps : List (Step kind)) : Nat := steps.countP Step.isEvent

end

/-! What becomes of the object. -/

section Object
variable {kind : Kind}

/-- The object is gone, or has lost its finalizer. -/
def Released (finalizer : String) (kind : Kind) (key : Key) (cluster : Cluster) : Prop :=
  ∀ object, cluster.find kind key = some object → holdsFinalizer finalizer object = false

/-- What the handlers look at, apart from the deletion timestamp, which is only ever set. -/
structure Alike (first second : Object kind) : Prop where
  ns : second.metadata.ns = first.metadata.ns
  name : second.metadata.name = first.metadata.name
  uid : second.metadata.uid = first.metadata.uid
  labels : second.metadata.labels = first.metadata.labels
  annotations : second.metadata.annotations = first.metadata.annotations
  finalizers : second.metadata.finalizers = first.metadata.finalizers
  content : second.content = first.content
  deletion : first.metadata.deletionTimestamp.isSome = true → second.metadata.deletionTimestamp.isSome = true

theorem Alike.refl (object : Object kind) : Alike object object := ⟨rfl, rfl, rfl, rfl, rfl, rfl, rfl, id⟩

theorem Alike.trans {first second third : Object kind} (left : Alike first second) (right : Alike second third) :
    Alike first third where
  ns := right.ns.trans left.ns
  name := right.name.trans left.name
  uid := right.uid.trans left.uid
  labels := right.labels.trans left.labels
  annotations := right.annotations.trans left.annotations
  finalizers := right.finalizers.trans left.finalizers
  content := right.content.trans left.content
  deletion := fun marked => right.deletion (left.deletion marked)

theorem Alike.key {first second : Object kind} (alike : Alike first second) : second.key = first.key :=
  Prod.ext alike.ns alike.name

theorem Alike.holdsFinalizer {first second : Object kind} (alike : Alike first second) (finalizer : String) :
    Events.holdsFinalizer finalizer second = Events.holdsFinalizer finalizer first := by
  rw [Events.holdsFinalizer, Events.holdsFinalizer, alike.finalizers]

theorem alike_stamp (version : Nat) (object : Object kind) : Alike object (stamp version object) :=
  ⟨rfl, rfl, rfl, rfl, rfl, rfl, rfl, id⟩

theorem alike_deleting (time : Time) (object : Object kind) : Alike object (deleting time object) :=
  ⟨rfl, rfl, rfl, rfl, rfl, rfl, rfl, fun _ => rfl⟩

theorem Alike.annotated {first second : Object kind} (alike : Alike first second) (name value : String) :
    Alike (patched (.annotate name value) first) (patched (.annotate name value) second) where
  ns := alike.ns
  name := alike.name
  uid := alike.uid
  labels := alike.labels
  annotations := by simp [patched, MergePatch.apply, alike.annotations]
  finalizers := alike.finalizers
  content := by
    have same := alike.content
    cases kind <;> exact same
  deletion := alike.deletion

/-- The object is stored, as it was up to a mark for deletion. -/
def Stands (key : Key) (object : Object kind) (cluster : Cluster) : Prop :=
  ∃ now, cluster.find kind key = some now ∧ Alike object now

theorem not_released {finalizer : String} {object : Object kind} (holds : holdsFinalizer finalizer object = true) :
    released object = false := by
  have some : object.metadata.finalizers ≠ [] := by
    intro none
    simp [holdsFinalizer, none] at holds
  simp [released, some]

/-- Marking an object that has a finalizer for deletion leaves it. -/
theorem Stands.delete {key : Key} {object : Object kind} {cluster : Cluster} {finalizer : String} (uid : String)
    (time : Time) (holds : holdsFinalizer finalizer object = true) (stands : Stands key object cluster) :
    Stands key object (perform uid time cluster (.delete kind key)).2 := by
  obtain ⟨now, found, alike⟩ := stands
  have here : now.key = key := Keyed.key_of_find? found
  have marked : Alike object (deleting time now) := alike.trans (alike_deleting time now)
  have stays : released (deleting time now) = false :=
    not_released ((marked.holdsFinalizer finalizer).trans holds)
  have written := find_write_self cluster (deleting time now) stays
  rw [key_deleting, here] at written
  simp only [perform, found]
  exact ⟨_, written, marked.trans (alike_stamp _ _)⟩

/-- What a patch makes of the object. -/
theorem find_patch {key : Key} {cluster : Cluster} {now : Object kind} (uid : String) (time : Time) (change : MergePatch)
    (found : cluster.find kind key = some now) (accepted : change.accepts now.metadata = true) :
    (perform uid time cluster (.patch kind key change)).2.find kind key =
      if released (patched change now) then none else some (stamp (cluster.revision + 1) (patched change now)) := by
  have here : now.key = key := Keyed.key_of_find? found
  simp only [perform, found, accepted, if_true]
  rw [find_write, key_patched, if_pos here]

end Object

/-! The requests that leave the object alone. -/

section Serving
variable {kind : Kind} {key : Key} {object : Object kind}

/-- A request that does not patch the object. -/
def Spares (kind : Kind) (key : Key) : Request → Prop
  | .patch other place _ => ¬ (other = kind ∧ place = key)
  | _ => True

theorem Stands.serve {finalizer : String} (holds : holdsFinalizer finalizer object = true) (answers : Answers)
    {cluster : Cluster} {request : Request} (spares : Spares kind key request) (stands : Stands key object cluster) :
    Stands key object (answers.serve key kind cluster request).2 := by
  simp only [Answers.serve]
  split
  · rename_i performed
    rw [Bool.and_eq_true] at performed
    cases request with
    | patch other place change => exact absurd (by simpa [writesOwn] using performed.1) spares
    | delete other place =>
      obtain ⟨rfl, rfl⟩ : other = kind ∧ place = key := by simpa [writesOwn] using performed.1
      exact Stands.delete _ _ holds stands
    | _ => exact absurd performed.1 Bool.false_ne_true
  · exact stands

theorem Stands.run {α : Type} {finalizer : String} {program : ApiProgram α} (answers : Answers)
    (holds : holdsFinalizer finalizer object = true) (uses : program.Uses (Spares kind key)) {cluster : Cluster} (stands : Stands key object cluster) :
    Stands key object (program.run (answers.serve key kind) cluster).2 :=
  uses.run (answers.serve key kind) (fun _ _ spares now => now.serve holds answers spares) stands

theorem reads_spares {request : Request} (reads : Reads request) : Spares kind key request := by
  cases request with
  | patch other place change => exact absurd reads (by simp [Reads, Request.writes])
  | _ => trivial

/-- Creating a postprocess Job patches no Job and no Pod. -/
theorem core_spares {w : Watcher} {ns triggerName triggerUID : String} (isTrigger : kind = .job ∨ kind = .pod)
    {request : Request} (only : Only (CoreWrites w ns triggerName triggerUID) request) : Spares kind key request := by
  rcases only with reads | writes
  · exact reads_spares reads
  · cases writes with
    | ownsInputs place owner =>
      rintro ⟨rfl, _⟩
      rcases isTrigger with same | same <;> cases same
    | _ => trivial

end Serving

/-! What an API server may answer with. -/

def blank : (kind : Kind) → Object kind
  | .configMap => { metadata := { name := "", ns := "" }, content := {} }
  | .secret => { metadata := { name := "", ns := "" }, content := {} }
  | .serviceAccount => { metadata := { name := "", ns := "" }, content := () }
  | .role => { metadata := { name := "", ns := "" }, content := { rules := [] } }
  | .roleBinding => { metadata := { name := "", ns := "" }, content := { roleRefName := "", subjects := [] } }
  | .job => { metadata := { name := "", ns := "" }, content := { template := { spec := { containers := [] } } } }
  | .pod => { metadata := { name := "", ns := "" }, content := { spec := { containers := [] } } }
  | .namespace => { metadata := { name := "", ns := "" }, content := () }
  | .event =>
    { metadata := { name := "", ns := "" }
      content := { involvedNamespace := "", involvedName := "", type := "", reason := "", message := "" } }

def gpuPod : Pod where
  metadata := { name := "worker", ns := "" }
  content := { spec := { containers := [{ name := "main", resources := {
    limits := Keyed.ofList [(gpuResource, Quantity.ofNat 1)] } }] } }

def enabledNamespace : Object .namespace where
  metadata := { name := "", ns := "", labels := GoMap.ofList [(labelEnabled, "true")] }
  content := ()

end AibomWebhook.Lifetime
