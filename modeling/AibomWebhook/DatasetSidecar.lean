import AibomWebhook.PostprocessData
import AibomWebhook.Kubernetes

/-! The dataset sidecar of an instrumented pod (scripts/aibom-scripts/dataset_sidecar.py):
it publishes the detection file into the data ConfigMap whenever the file has changed,
and once more when it is told to stop. -/

namespace AibomWebhook.DatasetSidecar
open Kubernetes Objects PostprocessData Requests

/-! `patch_configmap` of k8s_api.py. -/

def publishedConfigMap (ns name : String) (dataUpdates : List (String × String)) : ConfigMap where
  metadata := { name := name, ns := ns }
  content := { data := GoMap.ofList dataUpdates }

/-- A ConfigMap that is missing is created; who loses the race to that patches after all. -/
def patchConfigMap (ns name : String) (dataUpdates : List (String × String)) : ApiProgram (Except ApiError Unit) := do
  match ← patch .configMap (ns, name) (.mergeData dataUpdates) with
  | .ok _ => return .ok ()
  | .error .notFound =>
    match ← create (publishedConfigMap ns name dataUpdates) with
    | .ok _ => return .ok ()
    | .error error =>
      if error ≠ .alreadyExists ∧ error ≠ .conflict then return .error error
      else
        match ← patch .configMap (ns, name) (.mergeData dataUpdates) with
        | .ok _ => return .ok ()
        | .error error => return .error error
  | .error error => return .error error

/-! The sidecar. -/

/-- What a pass finds of the detection file: when it was changed, and its canonical text
unless that cannot be read. -/
structure OutputFile where
  mtime : Nat
  payload : Option String

def finalPublishAttempts : Nat := 4

/-- A sidecar, with what each pass finds. In a pass at shutdown the time of the last change
is looked up once more afterwards. -/
structure Sidecar where
  podName : String
  podNamespace : String
  dataConfigMap : String
  signPayload : String → Option String
  polls : List (Option OutputFile)
  shutdown : List (Option OutputFile × Option Nat)

/-- An empty signature is none. -/
def Sidecar.dataUpdates (s : Sidecar) (payload : String) : List (String × String) :=
  (jsonKey .dataset s.podName, payload) ::
    match s.signPayload payload with
    | none => []
    | some signature => if signature = "" then [] else [(sigKey .dataset s.podName, signature)]

def Sidecar.runOnce (s : Sidecar) (lastMtime : Option Nat) (found : Option OutputFile) : ApiProgram (Option Nat) :=
  match found with
  | none => return lastMtime
  | some file =>
    if some file.mtime = lastMtime then return lastMtime
    else
      match file.payload with
      | none => return lastMtime
      | some payload =>
        if s.podName = "" ∨ s.podNamespace = "" ∨ s.dataConfigMap = "" then return some file.mtime
        else do
          match ← patchConfigMap s.podNamespace s.dataConfigMap (s.dataUpdates payload) with
          | .ok _ => return some file.mtime
          | .error _ => return lastMtime

def Sidecar.poll (s : Sidecar) : List (Option OutputFile) → Option Nat → ApiProgram (Option Nat)
  | [], lastMtime => return lastMtime
  | found :: rest, lastMtime => do
    let lastMtime ← s.runOnce lastMtime found
    s.poll rest lastMtime

def Sidecar.publishFinal (s : Sidecar) : List (Option OutputFile × Option Nat) → Option Nat → ApiProgram Unit
  | [], _ => return ()
  | (found, current) :: rest, lastMtime => do
    let lastMtime ← s.runOnce lastMtime found
    match current with
    | none => return ()
    | some mtime => if some mtime = lastMtime then return () else s.publishFinal rest lastMtime

def Sidecar.main (s : Sidecar) : ApiProgram Unit := do
  let lastMtime ← s.poll s.polls none
  s.publishFinal (s.shutdown.take finalPublishAttempts) lastMtime

/-! All that a sidecar sends. -/

inductive Publishes (key : Key) : Request → Prop where
  | patches (dataUpdates : List (String × String)) : Publishes key (.patch .configMap key (.mergeData dataUpdates))
  | creates (dataUpdates : List (String × String)) :
    Publishes key (.create .configMap (publishedConfigMap key.1 key.2 dataUpdates))

theorem patchConfigMap_uses (ns name : String) (dataUpdates : List (String × String)) :
    (patchConfigMap ns name dataUpdates).Uses (Publishes (ns, name)) := by
  rw [patchConfigMap, patch_bind, Program.uses_call]
  refine ⟨.patches dataUpdates, fun response => ?_⟩
  split
  · trivial
  · rw [create_bind, Program.uses_call]
    refine ⟨.creates dataUpdates, fun response => ?_⟩
    split
    · trivial
    · split
      · trivial
      · rw [patch_bind, Program.uses_call]
        refine ⟨.patches dataUpdates, fun response => ?_⟩
        split <;> trivial
  · trivial

variable (s : Sidecar)

theorem runOnce_uses (lastMtime : Option Nat) (found : Option OutputFile) :
    (s.runOnce lastMtime found).Uses (Publishes (s.podNamespace, s.dataConfigMap)) := by
  unfold Sidecar.runOnce
  split
  · trivial
  · split
    · trivial
    · split
      · trivial
      · split
        · trivial
        · apply (patchConfigMap_uses _ _ _).bind
          intro published
          split <;> trivial

theorem poll_uses (passes : List (Option OutputFile)) (lastMtime : Option Nat) :
    (s.poll passes lastMtime).Uses (Publishes (s.podNamespace, s.dataConfigMap)) := by
  induction passes generalizing lastMtime with
  | nil => trivial
  | cons found rest ih => exact (runOnce_uses s lastMtime found).bind fun later => ih later

theorem publishFinal_uses (passes : List (Option OutputFile × Option Nat)) (lastMtime : Option Nat) :
    (s.publishFinal passes lastMtime).Uses (Publishes (s.podNamespace, s.dataConfigMap)) := by
  induction passes generalizing lastMtime with
  | nil => trivial
  | cons pass rest ih =>
    obtain ⟨found, current⟩ := pass
    apply (runOnce_uses s lastMtime found).bind
    intro later
    split
    · trivial
    · split
      · trivial
      · exact ih later

theorem main_uses : s.main.Uses (Publishes (s.podNamespace, s.dataConfigMap)) :=
  (poll_uses s _ _).bind fun _ => publishFinal_uses s _ _

end AibomWebhook.DatasetSidecar
