import AibomWebhook.Library.Interleaving
import AibomWebhook.Writes

/-! The two names that a trigger gives to its data ConfigMap and to its workload
identity. A Role that is already there under the second one grants the first one,
whichever trigger it was created for. -/

namespace AibomWebhook.RoleNames
open Aibomdata Identity Kubernetes Objects Requests Writes

theorem configMapName_eq_iff_identity (first second : String) :
    configMapName first = configMapName second ↔ workloadIdentityName first = workloadIdentityName second :=
  (configMapName_eq_iff first second).trans (workloadIdentityName_eq_iff first second).symm

/-- What a pod derives from its own name, without a name from the webhook. -/
theorem resolveDataConfigMapName_eq {podName : String} (named : podName ≠ "") :
    resolveDataConfigMapName "" podName = configMapName podName := by
  simp only [resolveDataConfigMapName, ne_eq, not_true_eq_false, if_false, if_neg named]
  exact pythonPostprocessJobName_eq podName

/-! The admissions of all triggers, among requests of others. -/

structure Admission where
  ns : String
  triggerName : String

def Admission.program (admission : Admission) : ApiProgram Unit := do
  let _ ← ensureWorkloadIdentity admission.ns admission.triggerName (configMapName admission.triggerName)
  return ()

def admissions : System ApiServer Cluster Admission Admission (Cluster → Cluster) Circumstance where
  resolve := fun _ admission => some admission
  program := Admission.program
  act change cluster := change cluster
  serve := serve

abbrev Run := World ApiServer Cluster Admission

/-- Others may delete such a Role, but do not create or change one. -/
def Undisturbed (_ : Run) : Move Admission (Cluster → Cluster) Circumstance → Prop
  | .act change => ∀ (cluster : Cluster) (ns triggerName : String) (role : Object .role),
    (change cluster).find .role (ns, workloadIdentityName triggerName) = some role →
      ∃ old, cluster.find .role (ns, workloadIdentityName triggerName) = some old ∧ role.content = old.content
  | _ => True

/-- Every Role under the name of an identity is on the data ConfigMap of each of its triggers. -/
def RolesNamed (cluster : Cluster) : Prop :=
  ∀ (ns triggerName : String) (role : Object .role),
    cluster.find .role (ns, workloadIdentityName triggerName) = some role →
      role.content = (identityRole ns (workloadIdentityName triggerName) (configMapName triggerName)).content

attribute [local irreducible] workloadIdentityName configMapName

theorem program_uses (admission : Admission) :
    admission.program.Uses (Only (ProvisionWrites admission.ns admission.triggerName)) :=
  Program.Uses.bind (ensureWorkloadIdentity_uses admission.ns admission.triggerName) fun _ => trivial

/-- The Role of a trigger, under the name of another one's identity. -/
theorem content_of_name {ns triggerName other place : String}
    (same : workloadIdentityName other = workloadIdentityName triggerName) :
    (identityRole place (workloadIdentityName other) (configMapName other)).content =
      (identityRole ns (workloadIdentityName triggerName) (configMapName triggerName)).content := by
  have data : configMapName other = configMapName triggerName := (configMapName_eq_iff_identity _ _).mpr same
  simp only [identityRole, data]

/-- One request of an admission. -/
theorem RolesNamed.serve {cluster : Cluster} {ns triggerName : String} {request : Request} {circumstance : Circumstance}
    (named : RolesNamed cluster) (sent : Only (ProvisionWrites ns triggerName) request) :
    RolesNamed (serve circumstance cluster request).2 := by
  intro place other role found
  rcases found_provision sent found with before | ⟨draft, now, here, content⟩
  · exact named place other role before
  · subst now
    have drafted := provisioned_role sent
    subst drafted
    have called : (identityRole ns (workloadIdentityName triggerName) (configMapName triggerName)).metadata.name ≠ "" :=
      workloadIdentityName_ne_empty triggerName
    rw [key_born called] at here
    have same : workloadIdentityName triggerName = workloadIdentityName other := congrArg Prod.snd here
    rw [content]
    exact content_of_name same

theorem RolesNamed.reached {start world : Run} (fresh : start.threads = []) (named : RolesNamed start.shared)
    (reached : admissions.Reaches Undisturbed start world) : RolesNamed world.shared := by
  have sends : ∀ {world : Run}, admissions.Reaches Undisturbed start world → ∀ thread ∈ world.threads,
      thread.rest.Uses (Only (ProvisionWrites thread.owner.ns thread.owner.triggerName)) :=
    fun reached thread member => (reached.uses fresh program_uses thread member).2
  have kept : ∀ world next move, admissions.Reaches Undisturbed start world → RolesNamed world.shared →
      Undisturbed world move → admissions.step world move = some next → RolesNamed next.shared := by
    intro world next move before now allowed moved
    rcases System.step_cases moved with ⟨_, _, rfl, _, rfl⟩ | ⟨change, rfl, rfl⟩ |
      ⟨index, circumstance, thread, request, rest, rfl, found, calls, rfl⟩
    · exact now
    · intro ns triggerName role after
      obtain ⟨old, stored, same⟩ := allowed world.shared ns triggerName role after
      exact same.trans (now ns triggerName old stored)
    · have uses := sends before thread (List.mem_of_getElem? found)
      rw [calls] at uses
      exact now.serve uses.1
  have initial : (fun world : Run => RolesNamed world.shared) start := named
  exact System.Reaches.invariant initial kept reached

/-- The scripts' name for the data ConfigMap is the watcher's, two triggers share it exactly if they share
an identity, and so a Role that an admission finds is on the right one. -/
theorem one_naming {first : String} (nonempty : first ≠ "") (second : String) :
    resolveDataConfigMapName "" first = configMapName first ∧
    (configMapName first = configMapName second ↔ workloadIdentityName first = workloadIdentityName second) ∧
    ∀ start world : Run, start.threads = [] → RolesNamed start.shared →
      admissions.Reaches Undisturbed start world → ∀ (ns : String) (role : Object .role),
        world.shared.find .role (ns, workloadIdentityName first) = some role →
          role.content = (identityRole ns (workloadIdentityName first) (configMapName first)).content :=
  ⟨resolveDataConfigMapName_eq nonempty, configMapName_eq_iff_identity first second,
    fun _ _ fresh named reached ns role found => RolesNamed.reached fresh named reached ns first role found⟩

/-! One admission of another trigger of the same identity. -/

def empty : Run := World.initial Admission Cluster.empty

def admitted : List (Move Admission (Cluster → Cluster) Circumstance) :=
  .spawn { ns := "team", triggerName := "train-" } :: List.replicate 6 (.serve 0 { fate := .served, uid := "first", time := 0 })

def undisturbed (_ : Run) : Move Admission (Cluster → Cluster) Circumstance → Bool
  | .act _ => false
  | _ => true

theorem undisturbed_of (world : Run) (move : Move Admission (Cluster → Cluster) Circumstance)
    (checked : undisturbed world move = true) : Undisturbed world move := by
  cases move with
  | act change => cases checked
  | spawn cue => trivial
  | serve index circumstance => trivial

theorem one_naming_train : resolveDataConfigMapName "" "train" = configMapName "train" ∧
    ∃ world role, admissions.checkedRun undisturbed empty admitted = some world ∧
      world.shared.find .role ("team", workloadIdentityName "train") = some role ∧
      role.content = (identityRole "team" (workloadIdentityName "train") (configMapName "train")).content := by
  obtain ⟨named, -, roles⟩ := one_naming (show "train" ≠ "" by decide) "train-"
  have ends : ((admissions.checkedRun undisturbed empty admitted).bind fun world =>
      world.shared.find .role ("team", workloadIdentityName "train")).isSome = true := by decide +kernel
  obtain ⟨role, found⟩ := Option.isSome_iff_exists.mp ends
  obtain ⟨world, ran, stored⟩ := Option.bind_eq_some_iff.mp found
  have reached := System.reaches_of_checkedRun undisturbed_of ran
  exact ⟨named, world, role, ran, stored,
    roles empty world rfl (fun _ _ _ found => by cases found) reached "team" role stored⟩

end AibomWebhook.RoleNames
