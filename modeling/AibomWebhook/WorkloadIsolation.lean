import AibomWebhook.FinalFlush
import AibomWebhook.Library.Dns1123
import AibomWebhook.RoleNames

/-! Two workloads of one namespace, from the admission of their pods to the collection of
their postprocess Jobs: whether a step that is made for one touches what the other uses. -/

namespace AibomWebhook.WorkloadIsolation
open Aibomdata DatasetSidecar Dns1123 Events Identity Kubernetes Objects Postprocess PostprocessData Requests RoleNames
  WatcherRequests Writes
open FinalFlush (Deed dataKey)

/-- Those who act for a workload. The containers of its pods publish under the name that
the webhook gives them. -/
inductive Actor where
  | admission (admission : Admission)
  | job (job : Job)
  | pod (pod : Pod)
  | discovery (ns triggerName : String) (dataUpdates : List (String × String))
  | sidecar (triggerName : String) (sidecar : Sidecar)

inductive Cue where
  | admission (admission : Admission)
  | jobEvent (version : Nat) (key : Key)
  | podEvent (version : Nat) (key : Key)
  | discovery (ns triggerName : String) (dataUpdates : List (String × String))
  | sidecar (triggerName : String) (sidecar : Sidecar)

def storedVersion (kind : Kind) (version : Nat) (key : Key) (states : List Cluster) : Option (Object kind) :=
  (states[version]?).bind fun cluster => cluster.find kind key

def Cue.resolve (states : List Cluster) : Cue → Option Actor
  | .admission admitted => some (.admission admitted)
  | .jobEvent version key => (storedVersion .job version key states).map .job
  | .podEvent version key => (storedVersion .pod version key states).map .pod
  | .discovery ns triggerName dataUpdates => some (.discovery ns triggerName dataUpdates)
  | .sidecar triggerName s => some (.sidecar triggerName s)

def Actor.program (w : Watcher) : Actor → ApiProgram Unit
  | .admission admitted => admitted.program
  | .job found => onJob w found
  | .pod found => onPod w found
  | .discovery ns triggerName dataUpdates => do
    let _ ← patchConfigMap ns (configMapName triggerName) dataUpdates
    return ()
  | .sidecar triggerName s => { s with dataConfigMap := configMapName triggerName }.main

def workloads (w : Watcher) : System ApiServer Cluster Actor Cue Deed Circumstance where
  resolve := fun states cue => cue.resolve states
  program := Actor.program w
  act := Deed.apply
  serve := serve

abbrev Run := World ApiServer Cluster Actor

variable (w : Watcher)

/-- The workload that an actor acts for. -/
def Actor.For (ns triggerName : String) : Actor → Prop
  | .admission admitted => admitted.ns = ns ∧ admitted.triggerName = triggerName
  | .job found => if isPostprocessJob found then GoMap.get labelPostprocessNamespace found.metadata.labels = ns ∧
      GoMap.get labelPostprocessFor found.metadata.labels = triggerName
    else found.key = (ns, triggerName)
  | .pod found => found.key = (ns, triggerName)
  | .discovery podNamespace trigger _ => podNamespace = ns ∧ trigger = triggerName
  | .sidecar trigger s => s.podNamespace = ns ∧ trigger = triggerName

/-- A postprocess Job in the watcher's namespace has the name that the watcher gives it. -/
def Actor.Genuine : Actor → Prop
  | .job found => isPostprocessJob found = true → found.metadata.ns = w.ns → found.metadata.name =
      postprocessJobName (GoMap.get labelPostprocessNamespace found.metadata.labels)
        (GoMap.get labelPostprocessFor found.metadata.labels)
  | _ => True

/-- Others write no Role under the name of an identity. -/
def LeavesRoles : Deed → Prop
  | .put .role role => ∀ triggerName, role.metadata.name ≠ workloadIdentityName triggerName
  | _ => True

def Permitted (world : Run) : Move Cue Deed Circumstance → Prop
  | .spawn cue => ∀ actor, cue.resolve world.states = some actor → actor.Genuine w
  | .act deed => LeavesRoles deed
  | .serve _ _ => True

/-! The property. -/

/-- The objects that a workload uses: its data ConfigMap and its identity. -/
def belongings (ns triggerName : String) : List (Kind × Key) :=
  (.configMap, dataKey ns triggerName) :: identityKinds.map fun kind => (kind, (ns, workloadIdentityName triggerName))

/-- What is there of a workload's objects stays as it is. -/
def Untouched (ns triggerName : String) (before after : Cluster) : Prop :=
  ∀ place ∈ belongings ns triggerName, ∀ object, before.find place.1 place.2 = some object →
    after.find place.1 place.2 = some object

/-- The workload is still there. -/
def InUse (ns triggerName : String) (cluster : Cluster) : Prop :=
  (∃ job, cluster.find .job (ns, triggerName) = some job) ∨ ∃ pod, cluster.find .pod (ns, triggerName) = some pod

/-- No step for the first workload changes or deletes what the second one uses. -/
def StepsApart (ns first second : String) : Prop :=
  ∀ start world next : Run, start.threads = [] → (workloads w).Reaches (Permitted w) start world →
    ∀ index circumstance, (workloads w).step world (.serve index circumstance) = some next →
      (∀ thread, world.threads[index]? = some thread → thread.owner.For ns first) →
        InUse ns second world.shared → Untouched ns second world.shared next.shared

def Actor.isContainer : Actor → Bool
  | .discovery _ _ _ => true
  | .sidecar _ _ => true
  | _ => false

/-- A container for this workload that has published into this ConfigMap, or is about to. -/
def PublishesInto (ns triggerName : String) (place : Key) (thread : Thread ApiServer Cluster Actor) : Prop :=
  thread.owner.isContainer = true ∧ thread.owner.For ns triggerName ∧ ∃ request, Publishes place request ∧
    ((∃ entry ∈ thread.past, entry.request = request) ∨ ∃ rest, thread.rest = .call request rest)

/-- The containers of the two never write their entries into one ConfigMap. -/
def EntriesApart (ns first second : String) : Prop :=
  ∀ start world : Run, start.threads = [] → (workloads w).Reaches (Permitted w) start world →
    ∀ place, ∀ one ∈ world.threads, ∀ other ∈ world.threads,
      PublishesInto ns first place one → ¬ PublishesInto ns second place other

def Grants (role : RoleContent) (configMap : String) : Prop :=
  ∃ rule ∈ role.rules, "configmaps" ∈ rule.resources ∧ ("get" ∈ rule.verbs ∨ "patch" ∈ rule.verbs) ∧
    (rule.resourceNames = [] ∨ configMap ∈ rule.resourceNames)

/-- The Role of the first workload never grants the data ConfigMap of the second. -/
def GrantsApart (ns first second : String) : Prop :=
  ∀ start world : Run, start.threads = [] → RolesNamed start.shared → (workloads w).Reaches (Permitted w) start world →
    ∀ role : Object .role, world.shared.find .role (ns, workloadIdentityName first) = some role →
      ¬ Grants role.content (configMapName second)

/-- In the watcher's own namespace, the inputs of the first one's postprocess Job may have
the name of the second one's data. -/
def InputsShared (ns first second : String) : Prop := inputsKey w ns first = dataKey ns second

/-! Requests that leave a workload's objects alone. -/

def Leaves (ns triggerName : String) : Request → Prop
  | .update kind object => (kind, object.key) ∉ belongings ns triggerName
  | .patch kind key _ => (kind, key) ∉ belongings ns triggerName
  | .delete kind key => (kind, key) ∉ belongings ns triggerName
  | _ => True

def RoleSafe : Request → Prop
  | .create .role _ => False
  | .update .role _ => False
  | .patch .role _ _ => False
  | _ => True

variable {w} {ns first second : String}

attribute [local irreducible] workloadIdentityName configMapName

theorem leaves_reads {request : Request} (reads : Reads request) : Leaves ns second request := by
  cases request with
  | create | update | patch | delete => cases reads
  | _ => trivial

theorem roleSafe_reads {request : Request} (reads : Reads request) : RoleSafe request := by
  cases request with
  | create | update | patch | delete => cases reads
  | _ => trivial

theorem untouched_write {kind : Kind} {object : Object kind} {cluster : Cluster}
    (apart : (kind, object.key) ∉ belongings ns second) : Untouched ns second cluster (cluster.write object) := by
  rintro ⟨other, key⟩ member found before
  by_cases same : other = kind
  · subst same
    have different : object.key ≠ key := fun here => apart (here ▸ member)
    exact (find_write_of_key _ different).trans before
  · exact (find_write_of_kind _ _ same key).trans before

/-- What is created is new, so that nothing is changed by it. -/
theorem untouched_create {kind : Kind} {object : Object kind} {cluster : Cluster}
    (free : cluster.find kind object.key = none) : Untouched ns second cluster (cluster.write object) := by
  rintro ⟨other, key⟩ member found before
  by_cases same : other = kind
  · subst same
    have different : object.key ≠ key := by
      rintro rfl
      rw [free] at before
      cases before
    exact (find_write_of_key _ different).trans before
  · exact (find_write_of_kind _ _ same key).trans before

theorem untouched_serve {request : Request} (leaves : Leaves ns second request) (circumstance : Circumstance)
    (cluster : Cluster) : Untouched ns second cluster (serve circumstance cluster request).2 := by
  generalize after : (serve circumstance cluster request).2 = next
  have effect := serve_effect circumstance cluster request
  rw [after] at effect
  cases effect with
  | unchanged => exact fun _ _ _ before => before
  | created kind draft free => exact untouched_create free
  | updated kind draft old => exact untouched_write leaves
  | patched kind place change old found =>
    refine untouched_write ?_
    rw [key_patched, Keyed.key_of_find? found]
    exact leaves
  | deleted kind place old found =>
    refine untouched_write ?_
    rw [key_deleting, Keyed.key_of_find? found]
    exact leaves

/-! What the actors of the first workload send. -/

theorem mem_belongings {kind : Kind} {key : Key} : (kind, key) ∈ belongings ns second ↔
    (kind = .configMap ∧ key = dataKey ns second) ∨
      (kind ∈ identityKinds ∧ key = (ns, workloadIdentityName second)) := by
  simp only [belongings, List.mem_cons, Prod.mk.injEq, List.mem_map]
  refine or_congr_right ⟨?_, ?_⟩
  · rintro ⟨part, member, rfl, rfl⟩
    exact ⟨member, rfl⟩
  · rintro ⟨member, rfl⟩
    exact ⟨kind, member, rfl, rfl⟩

theorem configMap_apart {key : Key} (different : key ≠ dataKey ns second) : (Kind.configMap, key) ∉ belongings ns second := by
  rw [mem_belongings]
  rintro (⟨_, same⟩ | ⟨member, _⟩)
  · exact different same
  · exact absurd member (by decide)

/-- Jobs and Pods are not among them. -/
theorem trigger_apart {kind : Kind} (isTrigger : kind = .job ∨ kind = .pod) (key : Key) :
    (kind, key) ∉ belongings ns second := by
  rw [mem_belongings]
  rintro (⟨rfl, _⟩ | ⟨member, _⟩)
  · simp at isTrigger
  · rcases isTrigger with rfl | rfl <;> exact absurd member (by decide)

theorem core_permits (inputs : ¬InputsShared w ns first second) (triggerUID : String) :
    CorePermits w ns first triggerUID (Leaves ns second) where
  reads _ reads := leaves_reads reads
  clearsSlot := trigger_apart (Or.inl rfl) _
  clearsInputs := configMap_apart inputs
  createsInputs _ := trivial
  mergesInputs _ named := configMap_apart fun same => inputs (named.symm.trans same)
  createsKey _ _ := trivial
  launches _ := trivial
  ownsInputs _ := configMap_apart inputs

section Apart
variable (distinct : ¬AgreeUpToHyphens first second)
include distinct

theorem identity_apart {part : Kind} (member : part ∈ identityKinds) :
    (part, (ns, workloadIdentityName first)) ∉ belongings ns second := by
  rw [mem_belongings]
  rintro (⟨rfl, _⟩ | ⟨_, same⟩)
  · exact absurd member (by decide)
  · exact distinct ((workloadIdentityName_eq_iff _ _).mp (Prod.mk.inj same).2)

theorem data_apart : (Kind.configMap, dataKey ns first) ∉ belongings ns second :=
  configMap_apart fun same => distinct ((configMapName_eq_iff _ _).mp (Prod.mk.inj same).2)

theorem leaves_published {request : Request} (publishes : Publishes (dataKey ns first) request) :
    Leaves ns second request := by
  cases publishes with
  | patches => exact data_apart distinct
  | creates => trivial

variable (inputs : ¬InputsShared w ns first second)
include inputs

theorem run_permits {kind : Kind} (isTrigger : kind = .job ∨ kind = .pod) {object : Object kind}
    (named : object.key = (ns, first)) : RunPermits w object (Leaves ns second) := by
  obtain ⟨rfl, rfl⟩ := Prod.mk.inj named
  exact {
    core := core_permits inputs _
    records := fun _ => trigger_apart isTrigger _
    countsRetry := fun _ => trigger_apart isTrigger _
    setsFinalizers := fun _ => trigger_apart isTrigger _
    dropsIdentity := fun _ _ member => identity_apart distinct member }

theorem collect_leaves {job : Job} (here : job.metadata.ns = w.ns)
    (slot : job.metadata.name = postprocessJobName ns first)
    (workload : GoMap.get labelPostprocessNamespace job.metadata.labels = ns)
    (label : GoMap.get labelPostprocessFor job.metadata.labels = first) {request : Request}
    (writes : CollectWrites job request) : Leaves ns second request := by
  cases writes with
  | marks | dropsJob => exact trigger_apart (Or.inl rfl) _
  | dropsData =>
    rw [label, workload]
    exact data_apart distinct
  | dropsIdentity part member =>
    rw [label, workload]
    exact identity_apart distinct member
  | reports => trivial
  | dropsInputs =>
    rw [here, slot]
    exact configMap_apart inputs

theorem program_leaves {actor : Actor} (genuine : actor.Genuine w) (own : actor.For ns first) :
    (actor.program w).Sends Legal (Leaves ns second) := by
  cases actor with
  | admission admitted =>
    refine ((program_uses admitted).mono fun request only => ?_).sends
    rcases only with reads | writes
    · exact leaves_reads reads
    · cases writes <;> trivial
  | job found =>
    rw [Actor.For] at own
    split at own
    · rename_i postprocess
      rw [Actor.program, onJob, if_pos postprocess]
      refine ((onPostprocessJob_uses w found).mono fun request only => ?_).sends
      rcases only with reads | ⟨here, writes⟩
      · exact leaves_reads reads
      · obtain ⟨workload, label⟩ := own
        have slot := genuine postprocess here
        rw [workload, label] at slot
        exact collect_leaves distinct inputs here slot workload label writes
    · rename_i workload
      exact onJob_sends (run_permits distinct inputs (Or.inl rfl) own) (Bool.eq_false_iff.mpr workload)
  | pod found => exact onPod_sends (run_permits distinct inputs (Or.inr rfl) own)
  | discovery podNamespace trigger dataUpdates =>
    obtain ⟨rfl, rfl⟩ := own
    have uses : ((Actor.discovery podNamespace trigger dataUpdates).program w).Uses (Publishes (dataKey podNamespace trigger)) :=
      (patchConfigMap_uses podNamespace (configMapName trigger) dataUpdates).bind fun _ => trivial
    exact (uses.mono fun _ => leaves_published distinct).sends
  | sidecar trigger s =>
    obtain ⟨rfl, rfl⟩ := own
    exact ((main_uses { s with dataConfigMap := configMapName trigger }).mono fun _ => leaves_published distinct).sends

theorem program_sends (actor : Actor) (genuine : actor.Genuine w) :
    (actor.program w).Sends Legal (fun request => actor.For ns first → Leaves ns second request) := by
  by_cases own : actor.For ns first
  · exact (program_leaves distinct inputs genuine own).mono fun _ leaves _ => leaves
  · exact ((Program.uses_any _).mono fun _ _ other => absurd other own).sends

theorem run_sends {start world : Run} (fresh : start.threads = []) (reached : (workloads w).Reaches (Permitted w) start world) :
    ∀ thread ∈ world.threads,
      thread.rest.Sends Legal (fun request => thread.owner.For ns first → Leaves ns second request) := by
  have sends := System.Reaches.sends fresh legal_serve (fun _ _ actor permitted resolved => permitted actor resolved)
    (program_sends distinct inputs) reached
  exact fun thread member => (sends thread member).2.2

theorem steps_apart : StepsApart w ns first second := by
  intro start world next fresh reached index circumstance moved own _
  rcases System.step_cases moved with ⟨_, _, now, _⟩ | ⟨_, now, _⟩ |
    ⟨place, given, thread, request, rest, now, found, calls, rfl⟩
  · cases now
  · cases now
  · injection now with same given
    subst same given
    have leaves := run_sends distinct inputs fresh reached thread (List.mem_of_getElem? found)
    rw [calls] at leaves
    exact untouched_serve (leaves.1 (own thread found)) _ _

end Apart

/-! What the containers publish into. -/

theorem publishes_place {key place : Key} {request : Request} (one : Publishes key request)
    (other : Publishes place request) : key = place := by
  cases one with
  | patches dataUpdates =>
    generalize now : (Request.patch .configMap key (.mergeData dataUpdates)) = request at other
    cases other with
    | patches => exact (Request.patch.inj now).2.1
    | creates => cases now
  | creates dataUpdates =>
    generalize now : (Request.create .configMap (publishedConfigMap key.1 key.2 dataUpdates)) = request at other
    cases other with
    | patches => cases now
    | creates =>
      have same := congrArg Object.key (eq_of_heq (Request.create.inj now).2)
      exact same

theorem container_uses {actor : Actor} (container : actor.isContainer = true) (own : actor.For ns first) :
    (actor.program w).Uses (Publishes (dataKey ns first)) := by
  cases actor with
  | admission | job | pod => cases container
  | discovery podNamespace trigger dataUpdates =>
    obtain ⟨rfl, rfl⟩ := own
    exact (patchConfigMap_uses podNamespace (configMapName trigger) dataUpdates).bind fun _ => trivial
  | sidecar trigger s =>
    obtain ⟨rfl, rfl⟩ := own
    exact main_uses { s with dataConfigMap := configMapName trigger }

theorem run_publishes {start world : Run} (fresh : start.threads = [])
    (reached : (workloads w).Reaches (Permitted w) start world) {thread : Thread ApiServer Cluster Actor}
    (member : thread ∈ world.threads) {place : Key} (publishes : PublishesInto ns first place thread) :
    place = dataKey ns first := by
  have each : ∀ actor : Actor, (actor.program w).Uses fun request =>
      actor.isContainer = true → actor.For ns first → Publishes (dataKey ns first) request := by
    intro actor
    by_cases both : actor.isContainer = true ∧ actor.For ns first
    · exact (container_uses both.1 both.2).mono fun _ publishes _ _ => publishes
    · exact (Program.uses_any _).mono fun _ _ container own => absurd ⟨container, own⟩ both
  obtain ⟨past, rest⟩ := System.Reaches.uses fresh each reached thread member
  obtain ⟨container, own, request, here, ⟨entry, served, rfl⟩ | ⟨more, calls⟩⟩ := publishes
  · exact publishes_place here (past entry served container own)
  · rw [calls] at rest
    exact publishes_place here (rest.1 container own)

theorem entries_apart (distinct : ¬AgreeUpToHyphens first second) : EntriesApart w ns first second := by
  intro start world fresh reached place one mine other theirs here there
  have same : dataKey ns first = dataKey ns second :=
    (run_publishes fresh reached mine here).symm.trans (run_publishes fresh reached theirs there)
  exact distinct ((configMapName_eq_iff _ _).mp (Prod.mk.inj same).2)

/-! What the Roles grant. -/

theorem roleSafe_core (triggerUID : String) : CorePermits w ns first triggerUID RoleSafe where
  reads _ reads := roleSafe_reads reads
  clearsSlot := trivial
  clearsInputs := trivial
  createsInputs _ := trivial
  mergesInputs _ _ := trivial
  createsKey _ _ := trivial
  launches _ := trivial
  ownsInputs _ := trivial

theorem roleSafe_run {kind : Kind} (isTrigger : kind = .job ∨ kind = .pod) (object : Object kind) :
    RunPermits w object RoleSafe := by
  rcases isTrigger with rfl | rfl <;> exact {
    core := roleSafe_core _
    records := fun _ => trivial
    countsRetry := fun _ => trivial
    setsFinalizers := fun _ => trivial
    dropsIdentity := fun _ _ _ => trivial }

/-- Only an admission creates a Role, and its own. -/
def RoleWrites (actor : Actor) (request : Request) : Prop :=
  RoleSafe request ∨ ∃ ns triggerName, actor.For ns triggerName ∧ Only (ProvisionWrites ns triggerName) request

theorem program_roles (actor : Actor) : (actor.program w).Sends Legal (RoleWrites actor) := by
  cases actor with
  | admission admitted =>
    exact ((program_uses admitted).mono fun _ only => Or.inr ⟨_, _, ⟨rfl, rfl⟩, only⟩).sends
  | job found =>
    cases postprocess : isPostprocessJob found with
    | false =>
      exact (onJob_sends (roleSafe_run (Or.inl rfl) found) postprocess).mono fun _ => Or.inl
    | true =>
      rw [Actor.program, onJob, if_pos postprocess]
      refine ((onPostprocessJob_uses w found).mono fun request only => Or.inl ?_).sends
      rcases only with reads | ⟨_, writes⟩
      · exact roleSafe_reads reads
      · cases writes <;> trivial
  | pod found => exact (onPod_sends (roleSafe_run (Or.inr rfl) found)).mono fun _ => Or.inl
  | discovery podNamespace trigger dataUpdates =>
    have uses : ((Actor.discovery podNamespace trigger dataUpdates).program w).Uses (Publishes (dataKey podNamespace trigger)) :=
      container_uses rfl ⟨rfl, rfl⟩
    exact (uses.mono fun _ publishes => Or.inl (by cases publishes <;> trivial)).sends
  | sidecar trigger s =>
    have uses : ((Actor.sidecar trigger s).program w).Uses (Publishes (dataKey s.podNamespace trigger)) :=
      container_uses rfl ⟨rfl, rfl⟩
    exact (uses.mono fun _ publishes => Or.inl (by cases publishes <;> trivial)).sends

theorem rolesNamed_safe {cluster : Cluster} {request : Request} (named : RolesNamed cluster) (safe : RoleSafe request)
    (circumstance : Circumstance) : RolesNamed (serve circumstance cluster request).2 := by
  intro ns triggerName role after
  cases (serve_effect circumstance cluster request).comes after with
  | stayed => rename_i found; exact named ns triggerName role found
  | created | updated | patched => cases safe
  | deleted old found => exact named ns triggerName old found

theorem rolesNamed_act {cluster : Cluster} {deed : Deed} (named : RolesNamed cluster) (leaves : LeavesRoles deed) :
    RolesNamed (deed.apply cluster) := by
  intro ns triggerName role after
  refine named ns triggerName role ?_
  cases deed with
  | put kind object =>
    by_cases same : kind = .role
    · subst same
      have different : object.key ≠ (ns, workloadIdentityName triggerName) :=
        fun here => leaves triggerName (Prod.mk.inj here).2
      simp only [Deed.apply, Cluster.find, Cluster.setStore, Function.update_self] at after
      rwa [Keyed.find?_put_of_ne different] at after
    · simpa [Deed.apply, Cluster.find, Cluster.setStore, Function.update_of_ne (Ne.symm same)] using after
  | drop kind key =>
    by_cases same : kind = .role
    · subst same
      simp only [Deed.apply, Cluster.remove, Cluster.find, Cluster.setStore, Function.update_self] at after
      by_cases here : (ns, workloadIdentityName triggerName) = key
      · subst here
        simp at after
      · rwa [Keyed.find?_erase_of_ne here] at after
    · simpa [Deed.apply, Cluster.remove, Cluster.find, Cluster.setStore, Function.update_of_ne (Ne.symm same)] using after
  | observe kind key => exact after

theorem rolesNamed_reached {start world : Run} (fresh : start.threads = []) (named : RolesNamed start.shared)
    (reached : (workloads w).Reaches (Permitted w) start world) : RolesNamed world.shared := by
  have sends : ∀ {world : Run}, (workloads w).Reaches (Permitted w) start world → ∀ thread ∈ world.threads,
      thread.rest.Sends Legal (RoleWrites thread.owner) := fun reached thread member =>
    (System.Reaches.sends fresh legal_serve (fun _ _ _ _ _ => trivial) (fun actor (_ : True) => program_roles actor)
      reached thread member).2.2
  have kept : ∀ world next move, (workloads w).Reaches (Permitted w) start world → RolesNamed world.shared →
      Permitted w world move → (workloads w).step world move = some next → RolesNamed next.shared := by
    intro world next move before now allowed moved
    rcases System.step_cases moved with ⟨_, _, rfl, _, rfl⟩ | ⟨deed, rfl, rfl⟩ |
      ⟨index, circumstance, thread, request, rest, rfl, found, calls, rfl⟩
    · exact now
    · exact rolesNamed_act now allowed
    · have sent := sends before thread (List.mem_of_getElem? found)
      rw [calls] at sent
      rcases sent.1 with safe | ⟨ns, triggerName, _, provisions⟩
      · exact rolesNamed_safe now safe circumstance
      · exact RolesNamed.serve now provisions
  have initial : (fun world : Run => RolesNamed world.shared) start := named
  exact System.Reaches.invariant initial kept reached

theorem grants_iff (place : String) : Grants (identityRole ns place (configMapName first)).content (configMapName second) ↔
    AgreeUpToHyphens first second := by
  rw [← configMapName_eq_iff]
  simp [Grants, identityRole, eq_comm]

theorem grants_apart (distinct : ¬AgreeUpToHyphens first second) : GrantsApart w ns first second := by
  intro start world fresh named reached role found grants
  rw [rolesNamed_reached fresh named reached ns first role found] at grants
  exact distinct ((grants_iff _).mp grants)

/-! Two names that agree: one run for each part. -/

def servedAt : Circumstance := { fate := .served, uid := "uid", time := 0 }

/-- One actor, on its own, comes to a request that alters what the second workload uses. -/
theorem not_apart_of_alone {actor : Actor} (own : actor.For ns first) (genuine : actor.Genuine w) {cue : Cue}
    {start : Cluster} (resolved : cue.resolve [start] = some actor) {circumstances : List Circumstance} {request : Request}
    {more : Response request → ApiProgram Unit}
    (sends : (actor.program w).after serve circumstances start = (.call request more, start))
    (used : InUse ns second start) {kind : Kind} {key : Key} (member : (kind, key) ∈ belongings ns second)
    {object : Object kind} (stored : start.find kind key = some object)
    (altered : (serve servedAt start request).2.find kind key ≠ some object) : ¬StepsApart w ns first second := by
  intro apart
  let begun : Run := World.initial Actor start
  have may : Permitted w begun (.spawn cue) := by
    intro other found
    obtain rfl := Option.some.inj (resolved.symm.trans found)
    exact genuine
  have serving : ∀ (world : Run) (circumstance : Circumstance), Permitted w world (.serve 0 circumstance) :=
    fun _ _ => trivial
  have starts : (workloads w).resolve begun.states cue = some actor := resolved
  obtain ⟨world, past, reached, threads, shared⟩ := System.reaches_alone serving rfl starts may circumstances
  have sends : ((workloads w).program actor).after (workloads w).serve circumstances begun.shared = _ := sends
  rw [sends] at threads shared
  dsimp only at threads shared
  have found : world.threads[0]? = some _ := congrArg (·[0]?) threads
  obtain ⟨next, moved, after⟩ : ∃ next, (workloads w).step world (.serve 0 servedAt) = some next ∧
      next.shared = (serve servedAt world.shared request).2 := System.serve_step found rfl servedAt
  have mine : ∀ thread, world.threads[0]? = some thread → thread.owner.For ns first := by
    intro thread here
    obtain rfl := Option.some.inj (found.symm.trans here)
    exact own
  have kept := apart _ world next rfl reached 0 servedAt moved mine (shared ▸ used) (kind, key) member object
    (shared ▸ stored)
  rw [after, shared] at kept
  exact altered kept

/-- A finished Job that has no pods left. -/
def idleJob (ns name : String) : Job where
  metadata := { name := name, ns := ns }
  content := { template := { spec := { containers := [] } }, conditions := [{ type := "Complete", status := "True" }] }

def enabled (ns : String) : Object .namespace where
  metadata := { name := ns, ns := "", labels := GoMap.ofList [(labelEnabled, "true")] }
  content := ()

theorem enabled_label : GoMap.get labelEnabled (enabled ns).metadata.labels = "true" := by
  change GoMap.get labelEnabled (GoMap.ofList [(labelEnabled, "true")]) = "true"
  decide

theorem namespaceLabel_after {start : Cluster} {found : Object .namespace}
    (cache : (start.cache .namespace).find? ("", ns) = some found) (wanted : String → Bool)
    (rest : Bool → ApiProgram Unit) (later : List Circumstance) :
    (namespaceLabel ns wanted >>= rest).after serve (servedAt :: later) start =
      (rest (wanted (GoMap.get labelEnabled found.metadata.labels))).after serve later start := by
  have here : (serve servedAt start (.cached .namespace ("", ns))).1 = some found := cache
  rw [namespaceLabel, bind_assoc, cached_bind, Program.after, here]
  rfl

theorem idle_drops {start : Cluster} (cache : (start.cache .namespace).find? ("", ns) = some (enabled ns))
    (pods : ∀ pod ∈ (start.store .pod).items, pod.metadata.labels = none) :
    ∃ rest, (onJob w (idleJob ns first)).after serve [servedAt, servedAt, servedAt] start =
      (.call (.delete .serviceAccount (ns, workloadIdentityName first)) rest, start) := by
  have workload : isPostprocessJob (idleJob ns first) = false := rfl
  have ready : (!readyForPostprocess (idleJob ns first)) = false := rfl
  have unheld : (!hasFinalizer (idleJob ns first) && !isJobFinished (idleJob ns first)) = false := rfl
  have none : (serve servedAt start (.list .pod ns
      [("batch.kubernetes.io/job-name", first), (labelInstrumented, "true")])).1 = .ok [] := by
    have unlabelled : (start.store .pod).items.filter (fun pod => pod.metadata.ns = ns &&
        selects [("batch.kubernetes.io/job-name", first), (labelInstrumented, "true")] pod.metadata.labels) = [] := by
      rw [List.filter_eq_nil_iff]
      intro pod member
      simp [pods pod member, selects]
    simp only [serve, servedAt, perform, unlabelled]
  have home : (idleJob ns first).metadata.ns = ns := rfl
  rw [onJob, workload, if_neg Bool.false_ne_true, home, isNamespaceOptedOut, namespaceLabel_after cache, enabled_label]
  rw [if_neg (by simp), isNamespaceEnabled, namespaceLabel_after cache, enabled_label, if_neg (by simp), ready,
    if_neg Bool.false_ne_true, finishJob, if_neg (by simp [idleJob, GoMap.get]), unheld, if_neg Bool.false_ne_true,
    shouldPostprocess, getInstrumentedPods, bind_assoc, list_bind, Program.after]
  erw [none]
  exact ⟨_, rfl⟩

def refusedAt : Circumstance := { fate := .refused "", uid := "", time := 0 }

/-- The inputs are merged into what is there under their name. -/
theorem core_merges {start : Cluster} {existing : ConfigMap}
    (stored : start.find .configMap (inputsKey w ns first) = some existing) (triggerKind triggerUID : String)
    (pods : List Pod) (annotations : StringMap) (jobResults : GoMap)
    (rest : Except PostprocessError String → ApiProgram Unit) : ∃ data more,
      (w.createPostprocessJobCore ns first triggerKind triggerUID pods annotations jobResults >>= rest).after serve
          ([refusedAt, refusedAt, refusedAt, refusedAt] ++ [servedAt]) start =
        (.call (.update .configMap (mergedConfigMap existing first data)) more, start) := by
  obtain ⟨next, reads, merges⟩ : ∃ next,
      (w.createPostprocessJobCore ns first triggerKind triggerUID pods annotations jobResults >>= rest).after serve
          [refusedAt, refusedAt, refusedAt, refusedAt] start = (.call (.get .configMap (inputsKey w ns first)) next, start) ∧
        ∃ data more, next (.ok existing) = .call (.update .configMap (mergedConfigMap existing first data)) more :=
    ⟨_, rfl, _, _, rfl⟩
  obtain ⟨data, more, update⟩ := merges
  have here : (serve servedAt start (.get .configMap (inputsKey w ns first))).1 = .ok existing := by
    simp only [serve, servedAt, perform, stored]
  have unchanged : (serve servedAt start (.get .configMap (inputsKey w ns first))).2 = start := serve_reads rfl
  refine ⟨data, more, ?_⟩
  rw [Program.after_append, reads, Program.after, here, unchanged, update]
  rfl

/-- A Pod with a GPU, while it is deleted. -/
def departingPod (ns name : String) : Pod :=
  { FinalizerRelease.deletedPod with metadata := { FinalizerRelease.deletedPod.metadata with name := name, ns := ns } }

theorem departing_merges {start : Cluster} {existing : ConfigMap}
    (cache : (start.cache .namespace).find? ("", ns) = some (enabled ns))
    (stored : start.find .configMap (inputsKey w ns first) = some existing) : ∃ data more,
      (onPod w (departingPod ns first)).after serve
          (servedAt :: servedAt :: ([refusedAt, refusedAt, refusedAt, refusedAt] ++ [servedAt])) start =
        (.call (.update .configMap (mergedConfigMap existing first data)) more, start) := by
  have home : (departingPod ns first).metadata.ns = ns := rfl
  have bare : ownedByJob (departingPod ns first) = false := rfl
  have instrumented : GoMap.get labelInstrumented (departingPod ns first).metadata.labels = "true" := by
    change GoMap.get labelInstrumented (GoMap.ofList [(labelInstrumented, "true")]) = "true"
    decide
  have leaving : (departingPod ns first).metadata.deletionTimestamp.isNone = false := rfl
  have unrecorded : GoMap.get annotationPostprocess (departingPod ns first).metadata.annotations = "" := rfl
  have held : (!hasPodFinalizer (departingPod ns first)) = false := by
    change (!([podFinalizerName].contains podFinalizerName)) = false
    simp
  have qualifies : (!shouldPostprocessPod (departingPod ns first)) = false := by
    change (!(podsRequestGPU [FinalizerRelease.deletedPod] || hasAIBOMAnnotations none)) = false
    decide
  rw [onPod, home, isNamespaceOptedOut, namespaceLabel_after cache, enabled_label, if_neg (by simp), isNamespaceEnabled,
    namespaceLabel_after cache, enabled_label, if_neg (by simp), bare, if_neg Bool.false_ne_true, instrumented, if_neg (by simp),
    leaving, if_neg Bool.false_ne_true, finishPod, if_neg (not_not_intro unrecorded), held, if_neg Bool.false_ne_true,
    qualifies, if_neg Bool.false_ne_true, Watcher.createPostprocessJobForPod, bind_assoc]
  exact core_merges stored _ _ _ _ _ _

/-- A Pod that runs. -/
def waitingPod (ns name : String) : Pod where
  metadata := { name := name, ns := ns }
  content := { spec := { containers := [] } }

section Shared
variable (agree : AgreeUpToHyphens first second)
include agree

theorem entries_shared : ¬EntriesApart w ns first second := by
  intro apart
  let start : Run := World.initial Actor Cluster.empty
  let started (triggerName : String) : Thread ApiServer Cluster Actor :=
    (workloads w).started (.discovery ns triggerName [])
  have may (world : Run) (triggerName : String) : Permitted w world (.spawn (.discovery ns triggerName [])) := by
    intro actor found
    cases found
    trivial
  have one : (workloads w).step start (.spawn (.discovery ns first [])) = some { start with threads := [started first] } := rfl
  have other : (workloads w).step { start with threads := [started first] } (.spawn (.discovery ns second [])) =
      some { start with threads := [started first, started second] } := rfl
  have both := System.Reaches.step (System.Reaches.step .start (may _ first) one) (may _ second) other
  have same : dataKey ns first = dataKey ns second := congrArg (Prod.mk ns) ((configMapName_eq_iff _ _).mpr agree)
  have publishes (triggerName : String) : PublishesInto ns triggerName (dataKey ns triggerName) (started triggerName) :=
    ⟨rfl, ⟨rfl, rfl⟩, _, .patches [], Or.inr ⟨_, rfl⟩⟩
  exact apart start _ rfl both (dataKey ns first) (started first) (by simp) (started second) (by simp) (publishes first)
    (same ▸ publishes second)

theorem grants_shared : ¬GrantsApart w ns first second := by
  intro apart
  let role := identityRole ns (workloadIdentityName first) (configMapName first)
  let start : Run := World.initial Actor (Cluster.empty.write role)
  have found : start.shared.find .role role.key = some (stamp 1 role) := find_write_self _ role rfl
  have named : RolesNamed start.shared := by
    intro other triggerName stored after
    have after : (Cluster.empty.write role).find .role (other, workloadIdentityName triggerName) = some stored := after
    rw [find_write] at after
    split at after
    · rename_i same
      obtain rfl := Option.some.inj after
      have content : (identityRole ns (workloadIdentityName first) (configMapName first)).content =
          (identityRole other (workloadIdentityName triggerName) (configMapName triggerName)).content :=
        content_of_name (Prod.mk.inj same).2
      exact content
    · cases after
  have grants : Grants (identityRole ns (workloadIdentityName first) (configMapName first)).content (configMapName second) :=
    (grants_iff _).mpr agree
  exact apart start start rfl named .start (stamp 1 role) found grants

/-- The first one's Job leaves the second one's Pod without a ServiceAccount. -/
theorem steps_shared : ¬StepsApart w ns first second := by
  let account := identityServiceAccount ns (workloadIdentityName second)
  let pod := waitingPod ns second
  let cluster : Cluster := (((Cluster.empty.setStore .job ((∅ : Store .job).put (idleJob ns first))).setStore .pod
    ((∅ : Store .pod).put pod)).setStore .serviceAccount ((∅ : Store .serviceAccount).put account)).setCache .namespace
      ((∅ : Store .namespace).put (enabled ns))
  have stored : cluster.find .job (ns, first) = some (idleJob ns first) :=
    Keyed.find?_put_self (idleJob ns first) (∅ : Store .job)
  have waits : cluster.find .pod (ns, second) = some pod := Keyed.find?_put_self pod (∅ : Store .pod)
  have owned : cluster.find .serviceAccount (ns, workloadIdentityName second) = some account :=
    Keyed.find?_put_self account (∅ : Store .serviceAccount)
  have cache : (cluster.cache .namespace).find? ("", ns) = some (enabled ns) :=
    Keyed.find?_put_self (enabled ns) (∅ : Store .namespace)
  obtain ⟨more, drops⟩ := @idle_drops w ns first cluster cache (List.forall_mem_singleton.mpr rfl)
  have resolved : (Cue.jobEvent 0 (ns, first)).resolve [cluster] = some (.job (idleJob ns first)) :=
    congrArg (Option.map Actor.job) stored
  have same : workloadIdentityName first = workloadIdentityName second := (workloadIdentityName_eq_iff _ _).mpr agree
  have gone : (serve servedAt cluster (.delete .serviceAccount (ns, workloadIdentityName first))).2.find .serviceAccount
      (ns, workloadIdentityName second) = none := by
    have deleted : (serve servedAt cluster (.delete .serviceAccount (ns, workloadIdentityName first))).2 =
        cluster.write (deleting 0 account) := by
      rw [serve_served rfl, same]
      simp only [perform, owned]
      rfl
    have here : (deleting 0 account).key = (ns, workloadIdentityName second) := rfl
    have free : released (deleting 0 account) = true := rfl
    rw [deleted, find_write, if_pos here, if_pos free]
  have workload : (Actor.job (idleJob ns first)).For ns first := rfl
  have genuine : (Actor.job (idleJob ns first)).Genuine w := by
    intro postprocess
    cases postprocess
  refine not_apart_of_alone workload genuine resolved drops (Or.inr ⟨pod, waits⟩)
    (mem_belongings.mpr (Or.inr ⟨by decide, rfl⟩)) owned ?_
  rw [gone]
  exact (Option.some_ne_none account).symm

end Shared

/-- The inputs of the first one's postprocess Job get into the second one's data ConfigMap. -/
theorem inputs_mixed (mixed : InputsShared w ns first second) : ¬StepsApart w ns first second := by
  let data : ConfigMap := dataConfigMap ns (configMapName second)
  let pod := departingPod ns first
  let cluster : Cluster := (((Cluster.empty.setStore .pod ((∅ : Store .pod).put pod)).setStore .job
    ((∅ : Store .job).put (idleJob ns second))).setStore .configMap ((∅ : Store .configMap).put data)).setCache .namespace
      ((∅ : Store .namespace).put (enabled ns))
  have stored : cluster.find .pod (ns, first) = some pod := Keyed.find?_put_self pod (∅ : Store .pod)
  have waits : cluster.find .job (ns, second) = some (idleJob ns second) :=
    Keyed.find?_put_self (idleJob ns second) (∅ : Store .job)
  have owned : cluster.find .configMap (dataKey ns second) = some data := Keyed.find?_put_self data (∅ : Store .configMap)
  have cache : (cluster.cache .namespace).find? ("", ns) = some (enabled ns) :=
    Keyed.find?_put_self (enabled ns) (∅ : Store .namespace)
  obtain ⟨entries, more, merges⟩ := @departing_merges w ns first cluster data cache (mixed ▸ owned)
  have resolved : (Cue.podEvent 0 (ns, first)).resolve [cluster] = some (.pod pod) :=
    congrArg (Option.map Actor.pod) stored
  have updated : (serve servedAt cluster (.update .configMap (mergedConfigMap data first entries))).2 =
      cluster.write (kept data (mergedConfigMap data first entries)) := by
    have current : (mergedConfigMap data first entries).metadata.resourceVersion = data.metadata.resourceVersion := rfl
    have here : cluster.find .configMap (mergedConfigMap data first entries).key = some data := owned
    rw [serve_served rfl, perform_update here current]
  have workload : (Actor.pod pod).For ns first := rfl
  refine not_apart_of_alone workload trivial resolved merges (Or.inl ⟨idleJob ns second, waits⟩)
    (mem_belongings.mpr (Or.inl ⟨rfl, rfl⟩)) owned ?_
  have here : (kept data (mergedConfigMap data first entries)).key = dataKey ns second := rfl
  have stays : released (kept data (mergedConfigMap data first entries)) = false := rfl
  rw [updated, find_write, if_pos here, stays, if_neg Bool.false_ne_true]
  intro same
  have version := congrArg (fun object => object.metadata.resourceVersion) (Option.some.inj same)
  exact absurd version Nat.one_ne_zero

/-- Whatever is done for two workloads of one namespace, in whatever order, they share no data and no Role exactly if
their names differ within the first 39 characters by more than hyphens at the end. No step for the one touches what
the other uses exactly if, besides, its inputs do not have the name of the other's data. -/
theorem kept_apart_iff (w : Watcher) (ns first second : String) :
    (StepsApart w ns first second ↔ ¬AgreeUpToHyphens first second ∧ ¬InputsShared w ns first second) ∧
    (EntriesApart w ns first second ↔ ¬AgreeUpToHyphens first second) ∧
    (GrantsApart w ns first second ↔ ¬AgreeUpToHyphens first second) := by
  refine ⟨⟨fun steps => ?_, fun both => steps_apart both.1 both.2⟩, ⟨fun entries agree => ?_, entries_apart⟩,
    ⟨fun grants agree => ?_, grants_apart⟩⟩
  · exact ⟨fun agree => steps_shared agree steps, fun mixed => inputs_mixed mixed steps⟩
  · exact entries_shared agree entries
  · exact grants_shared agree grants

/-! Two workers of one experiment, whose names differ in their last character. -/

def worker0 : String := "llama-finetune-experiment-2025-11-workers-0"

def worker1 : String := "llama-finetune-experiment-2025-11-workers-1"

theorem workers_share : IsSubdomain worker0 ∧ IsSubdomain worker1 ∧ worker0 ≠ worker1 ∧
    ¬StepsApart Creation.exampleWatcher "team" worker0 worker1 ∧
    ¬EntriesApart Creation.exampleWatcher "team" worker0 worker1 ∧
    ¬GrantsApart Creation.exampleWatcher "team" worker0 worker1 := by
  have agree : AgreeUpToHyphens worker0 worker1 :=
    ⟨"llama-finetune-experiment-2025-11-worker".toList.take baseLength, 0, 0, by decide, by decide⟩
  exact ⟨by decide, by decide, by decide, steps_shared agree, entries_shared agree, grants_shared agree⟩

end AibomWebhook.WorkloadIsolation
