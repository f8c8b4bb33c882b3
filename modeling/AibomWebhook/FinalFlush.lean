import AibomWebhook.Creation
import AibomWebhook.DatasetSidecar
import AibomWebhook.FinalizerRelease
import AibomWebhook.Library.Interleaving
import AibomWebhook.WatcherRequests
import AibomWebhook.Library.Checked

/-! One run's data ConfigMap among all who touch it: the discovery containers and the
sidecars of its pods publish into it, the watcher reads it once for the postprocess
Job's inputs, and deletes it when that Job is collected. -/

namespace AibomWebhook.FinalFlush
open Aibomdata DatasetSidecar Events Kubernetes Objects Postprocess PostprocessData Requests WatcherRequests Writes

/-- The cluster, and for each ConfigMap what was published last under each of its keys. -/
structure Shared where
  cluster : Cluster
  latest : Key → GoMap

def merged (entries : List (String × String)) (map : GoMap) : GoMap :=
  entries.foldl (fun map entry => GoMap.set entry.1 entry.2 map) map

/-- What a request publishes into a ConfigMap, if it is carried out. -/
def publication (key : Key) (cluster : Cluster) : Request → Option (List (String × String))
  | .patch .configMap place (.mergeData entries) =>
    if place = key ∧ (cluster.find .configMap key).isSome then some entries else none
  | .create .configMap draft =>
    if draft.key = key ∧ (cluster.find .configMap key).isNone then some (GoMap.entries draft.content.data) else none
  | _ => none

def refuses (circumstance : Circumstance) : Bool :=
  match circumstance.fate with
  | .refused _ => true
  | _ => false

def Shared.record (circumstance : Circumstance) (shared : Shared) (request : Request) (key : Key) : GoMap :=
  if refuses circumstance then shared.latest key
  else
    match publication key shared.cluster request with
    | none => shared.latest key
    | some entries => merged entries (shared.latest key)

def serve (circumstance : Circumstance) (shared : Shared) (request : Request) : Response request × Shared :=
  let answer := Kubernetes.serve circumstance shared.cluster request
  (answer.1, { cluster := answer.2, latest := shared.record circumstance request })

/-! Those who act. -/

inductive Actor where
  | job (job : Job)
  | pod (pod : Pod)
  | discovery (place : Key) (dataUpdates : List (String × String))
  | sidecar (sidecar : Sidecar)

/-- What starts one of them. The watcher is shown some stored version of an object. -/
inductive Cue where
  | jobEvent (version : Nat) (key : Key)
  | podEvent (version : Nat) (key : Key)
  | discovery (place : Key) (dataUpdates : List (String × String))
  | sidecar (sidecar : Sidecar)

/-- What users, controllers and the kubelet do, and how the watcher's caches catch up. -/
inductive Deed where
  | put (kind : Kind) (object : Object kind)
  | drop (kind : Kind) (key : Key)
  | observe (kind : Kind) (key : Key)

def storedVersion (kind : Kind) (version : Nat) (key : Key) (states : List Shared) : Option (Object kind) :=
  (states[version]?).bind fun shared => shared.cluster.find kind key

def Cue.resolve (states : List Shared) : Cue → Option Actor
  | .jobEvent version key => (storedVersion .job version key states).map .job
  | .podEvent version key => (storedVersion .pod version key states).map .pod
  | .discovery place dataUpdates => some (.discovery place dataUpdates)
  | .sidecar s => some (.sidecar s)

def Actor.program (w : Watcher) : Actor → ApiProgram Unit
  | .job found => onJob w found
  | .pod found => onPod w found
  | .discovery place dataUpdates => do
    let _ ← patchConfigMap place.1 place.2 dataUpdates
    return ()
  | .sidecar s => s.main

def Deed.apply (deed : Deed) (cluster : Cluster) : Cluster :=
  match deed with
  | .put kind object => cluster.setStore kind ((cluster.store kind).put object)
  | .drop kind key => cluster.remove kind key
  | .observe kind key =>
    cluster.setCache kind (match cluster.find kind key with
      | some object => (cluster.cache kind).put object
      | none => (cluster.cache kind).erase key)

def terminating (w : Watcher) : System ApiServer Shared Actor Cue Deed Circumstance where
  resolve := fun states cue => cue.resolve states
  program := Actor.program w
  act deed shared := { shared with cluster := deed.apply shared.cluster }
  serve := serve

abbrev Run := World ApiServer Shared Actor

/-! One run: the events of its Job or Pod and of its postprocess Job, and the containers
of its pods. -/

variable (w : Watcher) (ns triggerName : String)

def dataKey : Key := (ns, configMapName triggerName)

/-- Whether this actor belongs to the run. -/
def Actor.OfRun : Actor → Prop
  | .job found => (found.key = (ns, triggerName) ∧ isPostprocessJob found = false) ∨
    (found.key = (w.ns, postprocessJobName ns triggerName) ∧ isPostprocessJob found = true ∧
      GoMap.get labelPostprocessFor found.metadata.labels = triggerName ∧
      GoMap.get labelPostprocessNamespace found.metadata.labels = ns)
  | .pod found => found.key = (ns, triggerName)
  | .discovery place _ => place = dataKey ns triggerName
  | .sidecar s => (s.podNamespace, s.dataConfigMap) = dataKey ns triggerName

def Deed.Spares (key : Key) : Deed → Prop
  | .put .configMap object => object.key ≠ key
  | .drop .configMap place => place ≠ key
  | _ => True

def OfRun (world : Run) : Move Cue Deed Circumstance → Prop
  | .spawn cue => ∀ actor, cue.resolve world.states = some actor → Actor.OfRun w ns triggerName actor
  | .act deed => deed.Spares (dataKey ns triggerName)
  | .serve _ _ => True

/-! The property. -/

/-- The ConfigMap that was found when one was read under this key. -/
def dataRead (key : Key) : Served ApiServer Shared → Option (Option ConfigMap)
  | ⟨_, .get .configMap place, response⟩ => if place = key then some response.toOption else none
  | _ => none

def collected (key : Key) : Served ApiServer Shared → Bool
  | ⟨_, .delete .configMap place, .ok _⟩ => place = key
  | _ => false

def Accepts (signingKey : Option Sha256.Bytes) (payload sig : String) : Prop :=
  ∀ key, signingKey = some key → verifySignature key payload sig = true

/-- What the watcher has read for the inputs has each pod's payload that was published last,
as long as its signature is accepted. -/
def LastPayloadsTaken (codec : GoJson) (key : Key) (world : Run) : Prop :=
  ∀ thread ∈ world.threads, ∀ entry ∈ thread.past, ∀ dataCM, dataRead key entry = some dataCM →
    ∀ (signingKey datasetSigningKey : Option Sha256.Bytes) (pods : List Pod) (jobResults : GoMap), ∀ pod ∈ pods,
      ∀ payload, GoMap.lookup (jsonKey .dataset pod.metadata.name) (world.shared.latest key) = some payload →
        Accepts datasetSigningKey payload (GoMap.get (sigKey .dataset pod.metadata.name) (world.shared.latest key)) →
        payload ∈ (inputsOf codec dataCM signingKey datasetSigningKey pods jobResults).datasets

def StaysCollected (key : Key) (world : Run) : Prop :=
  ∀ thread ∈ world.threads, ∀ entry ∈ thread.past, collected key entry = true →
    world.shared.cluster.find .configMap key = none

/-! The condition. -/

def deletes (key : Key) : Request → Bool
  | .delete .configMap place => place = key
  | _ => false

def Unread (key : Key) (world : Run) : Prop :=
  ∀ thread ∈ world.threads, ∀ entry ∈ thread.past, dataRead key entry = none

def Undeleted (key : Key) (world : Run) : Prop :=
  ∀ thread ∈ world.threads, ∀ entry ∈ thread.past, deletes key entry.request = false

def datasetKey (name : String) : Prop := ∃ podName, name = jsonKey .dataset podName ∨ name = sigKey .dataset podName

/-- No pod's dataset is other than before. -/
def Repeats (entries : List (String × String)) (latest : GoMap) : Prop :=
  ∀ name, datasetKey name → GoMap.lookup name (merged entries latest) = GoMap.lookup name latest

/-- No dataset is published once the watcher has read the data, nothing is once it has
deleted them, and it reads what was published while it is there and can be read. -/
def Heeds (key : Key) (world : Run) : Move Cue Deed Circumstance → Prop
  | .serve index circumstance => ∀ thread request next, world.threads[index]? = some thread →
      thread.rest = .call request next →
        (∀ entries, refuses circumstance = false → publication key world.shared.cluster request = some entries →
          Undeleted key world ∧ (Unread key world ∨ Repeats entries (world.shared.latest key))) ∧
        (request = .get .configMap key → world.shared.latest key = none ∨
          (circumstance.fate = .served ∧ (world.shared.cluster.find .configMap key).isSome))
  | _ => True

/-! What is published is what is stored. -/

def Mirrors (latest map : GoMap) : Prop :=
  ∀ name value, GoMap.lookup name latest = some value → GoMap.lookup name map = some value

theorem Mirrors.merged {latest map : GoMap} (mirrors : Mirrors latest map) (entries : List (String × String)) :
    Mirrors (merged entries latest) (merged entries map) := by
  induction entries generalizing latest map with
  | nil => exact mirrors
  | cons first rest ih =>
    refine ih fun name value => ?_
    by_cases same : name = first.1
    · rw [same, GoMap.lookup_set_self, GoMap.lookup_set_self]
      exact id
    · rw [GoMap.lookup_set_of_ne same, GoMap.lookup_set_of_ne same]
      exact mirrors name value

theorem merged_ofList (entries : List (String × String)) : GoMap.ofList entries = merged entries (some ∅) :=
  Creation.ofList_eq_fold entries

/-! Requests that leave the data ConfigMap alone. -/

def Spares (key : Key) : Request → Prop
  | .create .configMap draft => draft.metadata.name ≠ "" ∧ draft.key ≠ key
  | .update .configMap cm => cm.key ≠ key
  | .patch .configMap place _ => place ≠ key
  | .delete .configMap place => place ≠ key
  | _ => True

theorem spares_reads {key : Key} {request : Request} (reads : Reads request) : Spares key request := by
  cases request with
  | create | update | patch | delete => cases reads
  | _ => trivial

theorem find_spared {key : Key} {request : Request} (spares : Spares key request) (circumstance : Circumstance)
    (cluster : Cluster) :
    (Kubernetes.serve circumstance cluster request).2.find .configMap key = cluster.find .configMap key := by
  generalize after : (Kubernetes.serve circumstance cluster request).2 = next
  have effect := serve_effect circumstance cluster request
  rw [after] at effect
  cases effect with
  | unchanged => rfl
  | created kind draft =>
    by_cases same : kind = .configMap
    · subst same
      exact find_write_of_key _ (key_born spares.1 ▸ spares.2)
    · exact find_write_of_kind _ _ (Ne.symm same) key
  | updated kind draft old =>
    by_cases same : kind = .configMap
    · subst same
      exact find_write_of_key _ spares
    · exact find_write_of_kind _ _ (Ne.symm same) key
  | patched kind place change old found =>
    by_cases same : kind = .configMap
    · subst same
      refine find_write_of_key _ ?_
      rw [key_patched, Keyed.key_of_find? found]
      exact spares
    · exact find_write_of_kind _ _ (Ne.symm same) key
  | deleted kind place old found =>
    by_cases same : kind = .configMap
    · subst same
      refine find_write_of_key _ ?_
      rw [key_deleting, Keyed.key_of_find? found]
      exact spares
    · exact find_write_of_kind _ _ (Ne.symm same) key

theorem publication_spared {key : Key} {request : Request} (spares : Spares key request) (cluster : Cluster) :
    publication key cluster request = none := by
  unfold publication
  split
  · exact if_neg fun here => spares here.1
  · exact if_neg fun here => spares.2 here.1
  · rfl

/-! What the actors of a run send. -/

/-- The watcher leaves the data ConfigMap alone or deletes it, the pods' containers publish. -/
def Sends (key : Key) : Actor → Request → Prop
  | .job _, request => Spares key request ∨ request = .delete .configMap key
  | .pod _, request => Spares key request ∨ request = .delete .configMap key
  | .discovery _ _, request => Publishes key request
  | .sidecar _, request => Publishes key request

variable {w : Watcher} {ns triggerName : String}

theorem inputsKey_ne : inputsKey w ns triggerName ≠ dataKey ns triggerName := by
  intro same
  rw [inputsKey, dataKey, Prod.mk.injEq] at same
  exact configMapName_ne_inputs ns triggerName same.2.symm

theorem dataKey_named : (dataKey ns triggerName).2 ≠ "" := by
  dsimp only [dataKey]
  exact configMapName_ne_empty triggerName

theorem inputsName_ne_empty : postprocessInputsConfigMapName (postprocessJobName ns triggerName) ≠ "" := by
  intro empty
  have length := congrArg String.length empty
  have suffix : configMapSuffix.length = 5 := by decide
  simp [postprocessInputsConfigMapName, suffix] at length

theorem core_permits (triggerUID : String) : CorePermits w ns triggerName triggerUID fun request =>
    Spares (dataKey ns triggerName) request ∨ request = .delete .configMap (dataKey ns triggerName) where
  reads _ reads := Or.inl (spares_reads reads)
  clearsSlot := Or.inl trivial
  clearsInputs := Or.inl inputsKey_ne
  createsInputs _ := Or.inl ⟨inputsName_ne_empty, inputsKey_ne⟩
  mergesInputs _ named := Or.inl fun same => inputsKey_ne (named.symm.trans same)
  createsKey _ _ := Or.inl trivial
  launches _ := Or.inl trivial
  ownsInputs _ := Or.inl inputsKey_ne

theorem spares_identity {part : Kind} (member : part ∈ identityKinds) (key place : Key) :
    Spares key (.delete part place) := by
  simp only [identityKinds, List.mem_cons, List.not_mem_nil, or_false] at member
  rcases member with rfl | rfl | rfl | rfl <;> trivial

theorem run_permits {kind : Kind} (isTrigger : kind = .job ∨ kind = .pod) {object : Object kind}
    (named : object.key = (ns, triggerName)) : RunPermits w object fun request =>
      Spares (dataKey ns triggerName) request ∨ request = .delete .configMap (dataKey ns triggerName) := by
  obtain ⟨rfl, rfl⟩ := Prod.mk.inj named
  refine { core := core_permits _, records := ?_, countsRetry := ?_, setsFinalizers := ?_, dropsIdentity := ?_ }
  · rcases isTrigger with rfl | rfl <;> exact fun _ => Or.inl trivial
  · rcases isTrigger with rfl | rfl <;> exact fun _ => Or.inl trivial
  · rcases isTrigger with rfl | rfl <;> exact fun _ => Or.inl trivial
  · exact fun _ part member => Or.inl (spares_identity member _ _)

theorem collect_allowed {job : Job} (slot : job.key = (w.ns, postprocessJobName ns triggerName))
    (label : GoMap.get labelPostprocessFor job.metadata.labels = triggerName)
    (workload : GoMap.get labelPostprocessNamespace job.metadata.labels = ns) {request : Request}
    (writes : CollectWrites job request) :
    Spares (dataKey ns triggerName) request ∨ request = .delete .configMap (dataKey ns triggerName) := by
  cases writes with
  | dropsData =>
    rw [label, workload]
    exact Or.inr rfl
  | dropsIdentity part member => exact Or.inl (spares_identity member _ _)
  | dropsInputs =>
    obtain ⟨here, named⟩ := Prod.mk.inj slot
    rw [here, named]
    exact Or.inl inputsKey_ne
  | marks | reports | dropsJob => exact Or.inl trivial

theorem program_sends (actor : Actor) (own : actor.OfRun w ns triggerName) :
    (actor.program w).Sends Legal (Sends (dataKey ns triggerName) actor) := by
  cases actor with
  | job found =>
    rcases own with ⟨named, workload⟩ | ⟨slot, postprocess, label, workload⟩
    · exact onJob_sends (run_permits (Or.inl rfl) named) workload
    · rw [Actor.program, onJob, if_pos postprocess]
      refine ((onPostprocessJob_uses w found).mono fun request only => ?_).sends
      exact only.elim (fun reads => Or.inl (spares_reads reads)) fun writes =>
        collect_allowed slot label workload writes.2
  | pod found => exact onPod_sends (run_permits (Or.inr rfl) own)
  | discovery place dataUpdates =>
    have uses : ((Actor.discovery place dataUpdates).program w).Uses (Publishes place) :=
      (patchConfigMap_uses place.1 place.2 dataUpdates).bind fun _ => trivial
    have here : place = dataKey ns triggerName := own
    subst here
    exact uses.sends
  | sidecar s =>
    have uses := main_uses s
    have here : (s.podNamespace, s.dataConfigMap) = dataKey ns triggerName := own
    rw [here] at uses
    exact uses.sends

/-! What one answered request does to the data ConfigMap. -/

/-- The stored ConfigMap has what was published last, and goes as soon as it is deleted. -/
structure Faithful (key : Key) (shared : Shared) : Prop where
  plain : ∀ cm, shared.cluster.find .configMap key = some cm →
    cm.metadata.finalizers = [] ∧ cm.metadata.deletionTimestamp = none
  mirrors : ∀ cm, shared.cluster.find .configMap key = some cm → Mirrors (shared.latest key) cm.content.data

theorem Faithful.of_same {key : Key} {shared next : Shared} (faithful : Faithful key shared)
    (found : next.cluster.find .configMap key = shared.cluster.find .configMap key)
    (latest : next.latest key = shared.latest key) : Faithful key next where
  plain cm present := faithful.plain cm (found ▸ present)
  mirrors cm present := latest ▸ faithful.mirrors cm (found ▸ present)

section Serve
variable {key : Key} {circumstance : Circumstance} {shared : Shared} {request : Request}

theorem performed_of_carried (carried : refuses circumstance = false) :
    (serve circumstance shared request).2.cluster =
      (perform circumstance.uid circumstance.time shared.cluster request).2 := by
  refine serve_performed fun message refused => ?_
  rw [refuses, refused] at carried
  cases carried

theorem cluster_refused (refused : refuses circumstance = true) :
    (serve circumstance shared request).2.cluster = shared.cluster := by
  unfold refuses at refused
  split at refused
  · rename_i message fate
    exact serve_refused fate
  · cases refused

theorem latest_unpublished (silent : refuses circumstance = true ∨ publication key shared.cluster request = none) :
    (serve circumstance shared request).2.latest key = shared.latest key := by
  simp only [serve, Shared.record]
  rcases silent with refused | none
  · rw [if_pos refused]
  · rw [none]
    exact ite_self _

theorem latest_published {entries : List (String × String)} (carried : refuses circumstance = false)
    (now : publication key shared.cluster request = some entries) :
    (serve circumstance shared request).2.latest key = merged entries (shared.latest key) := by
  simp only [serve, Shared.record, carried, now]
  rfl

theorem find_unpublished (named : key.2 ≠ "") (publishes : Publishes key request)
    (silent : refuses circumstance = true ∨ publication key shared.cluster request = none) :
    (serve circumstance shared request).2.cluster.find .configMap key = shared.cluster.find .configMap key := by
  by_cases refused : refuses circumstance = true
  · rw [cluster_refused refused]
  · have none := silent.resolve_left refused
    rw [performed_of_carried (Bool.eq_false_iff.mpr refused)]
    cases publishes with
    | patches dataUpdates =>
      have missing : shared.cluster.find .configMap key = Option.none := by simpa [publication] using none
      simp only [perform, missing]
    | creates dataUpdates =>
      obtain ⟨old, present⟩ : ∃ old, shared.cluster.find .configMap key = some old := by
        simpa [publication, publishedConfigMap, Object.key, Option.ne_none_iff_exists'] using none
      have occupied : shared.cluster.find .configMap
          (born circumstance.uid circumstance.time (publishedConfigMap key.1 key.2 dataUpdates)).key = some old := by
        have stays : (born circumstance.uid circumstance.time (publishedConfigMap key.1 key.2 dataUpdates)).key = key :=
          key_born named
        rw [stays]
        exact present
      rw [perform_create_taken occupied]

theorem faithful_published {entries : List (String × String)} (named : key.2 ≠ "") (publishes : Publishes key request)
    (carried : refuses circumstance = false) (now : publication key shared.cluster request = some entries)
    (faithful : Faithful key shared)
    (empty : shared.cluster.find .configMap key = none → ∀ name, GoMap.lookup name (shared.latest key) = none) :
    Faithful key (serve circumstance shared request).2 ∧
      (serve circumstance shared request).2.cluster.find .configMap key ≠ none := by
  have latest := latest_published carried now
  have cluster : (serve circumstance shared request).2.cluster =
      (perform circumstance.uid circumstance.time shared.cluster request).2 := performed_of_carried carried
  cases publishes with
  | patches dataUpdates =>
    simp only [publication, true_and, Option.ite_none_right_eq_some, Option.some.injEq] at now
    obtain ⟨present, rfl⟩ := now
    obtain ⟨old, found⟩ := Option.isSome_iff_exists.mp present
    have plain := faithful.plain old found
    have named : (patched (.mergeData dataUpdates) old).key = key := by
      rw [key_patched, Keyed.key_of_find? found]
    have stays : released (patched (.mergeData dataUpdates) old) = false := by
      simp [released, patched, MergePatch.apply, plain.2]
    have after := find_write_self shared.cluster (patched (.mergeData dataUpdates) old) stays
    rw [named] at after
    simp only [perform, found, MergePatch.accepts, if_true] at cluster
    rw [← cluster] at after
    refine ⟨⟨fun cm here => ?_, fun cm here => ?_⟩, by simp [after]⟩
    · obtain rfl := Option.some.inj (after.symm.trans here)
      exact plain
    · obtain rfl := Option.some.inj (after.symm.trans here)
      rw [latest]
      exact (faithful.mirrors old found).merged dataUpdates
  | creates dataUpdates =>
    simp only [publication, publishedConfigMap, Object.key, true_and, Option.ite_none_right_eq_some,
      Option.some.injEq, Option.isNone_iff_eq_none] at now
    obtain ⟨free, rfl⟩ := now
    have here : (born circumstance.uid circumstance.time (publishedConfigMap key.1 key.2 dataUpdates)).key = key :=
      key_born named
    have vacant : shared.cluster.find .configMap
        (born circumstance.uid circumstance.time (publishedConfigMap key.1 key.2 dataUpdates)).key = none := by
      rw [here]
      exact free
    rw [perform_create vacant] at cluster
    dsimp only at cluster
    have after := find_write_self shared.cluster _ (released_born circumstance.uid circumstance.time
      (publishedConfigMap key.1 key.2 dataUpdates))
    rw [here, ← cluster] at after
    replace after : (serve circumstance shared _).2.cluster.find .configMap key = _ := after
    refine ⟨⟨fun cm found => ?_, fun cm found => ?_⟩, by simp [after]⟩
    · obtain rfl := Option.some.inj (after.symm.trans found)
      exact ⟨rfl, rfl⟩
    · obtain rfl := Option.some.inj (after.symm.trans found)
      have data : GoMap.ofList dataUpdates = merged (GoMap.entries (GoMap.ofList dataUpdates)) (some ∅) := by
        rw [← merged_ofList, GoMap.entries, GoMap.ofList, Option.getD_some, GoMap.ofList, Keyed.ofList_items]
      have fresh : Mirrors (shared.latest key) (some ∅) := by
        intro name value recorded
        rw [empty free name] at recorded
        cases recorded
      have stored := fresh.merged (GoMap.entries (GoMap.ofList dataUpdates))
      rw [← data] at stored
      rw [latest]
      exact stored

theorem find_deleted (faithful : Faithful key shared) :
    (∃ message, (serve circumstance shared (.delete .configMap key)).1 = .error (.other message)) ∧
        (serve circumstance shared (.delete .configMap key)).2.cluster.find .configMap key =
          shared.cluster.find .configMap key ∨
      (serve circumstance shared (.delete .configMap key)).2.cluster.find .configMap key = none := by
  by_cases refused : refuses circumstance = true
  · refine Or.inl ⟨?_, by rw [cluster_refused refused]⟩
    unfold refuses at refused
    split at refused
    · rename_i message fate
      exact ⟨message, by simp [serve, Kubernetes.serve, fate, failed]⟩
    · cases refused
  · refine Or.inr ?_
    rw [performed_of_carried (Bool.eq_false_iff.mpr refused)]
    cases found : shared.cluster.find .configMap key with
    | none => simp only [perform, found]
    | some old =>
      obtain ⟨finalizers, _⟩ := faithful.plain old found
      have named : (deleting circumstance.time old).key = key := by rw [key_deleting, Keyed.key_of_find? found]
      have gone : released (deleting circumstance.time old) = true := by simp [released, deleting, finalizers]
      simp only [perform, found]
      rw [find_write, if_pos named, if_pos gone]

end Serve

/-! The invariant. -/

/-- Every pod's dataset that was published last is in what has been read. -/
def Reflects (latest : GoMap) (dataCM : Option ConfigMap) : Prop :=
  ∀ name value, datasetKey name → GoMap.lookup name latest = some value →
    GoMap.lookup name (dataCM.bind fun cm => cm.content.data) = some value

structure Kept (key : Key) (world : Run) : Prop where
  faithful : Faithful key world.shared
  whole : Undeleted key world → world.shared.cluster.find .configMap key = none →
    ∀ name, GoMap.lookup name (world.shared.latest key) = none
  taken : ∀ thread ∈ world.threads, ∀ entry ∈ thread.past, ∀ dataCM, dataRead key entry = some dataCM →
    Reflects (world.shared.latest key) dataCM
  gone : StaysCollected key world

theorem lookup_merged {name value : String} {entries : List (String × String)} {map : GoMap}
    (all : ∀ entry ∈ entries, entry.1 = name → entry.2 = value)
    (present : (∃ entry ∈ entries, entry.1 = name) ∨ GoMap.lookup name map = some value) :
    GoMap.lookup name (merged entries map) = some value := by
  induction entries generalizing map with
  | nil => simpa [merged] using present
  | cons first rest ih =>
    refine ih (fun entry member => all entry (List.mem_cons_of_mem _ member)) ?_
    dsimp only
    by_cases same : first.1 = name
    · right
      rw [same, GoMap.lookup_set_self, all first List.mem_cons_self same]
    · rw [GoMap.lookup_set_of_ne (Ne.symm same)]
      refine present.imp_left ?_
      rintro ⟨entry, member, named⟩
      rcases List.mem_cons.mp member with rfl | later
      · exact absurd named same
      · exact ⟨entry, later, named⟩

section Taken
variable {latest : GoMap} {dataCM : Option ConfigMap} {pod : Pod} {payload : String} {signingKey : Option Sha256.Bytes}

theorem verified_of_reflects (reflects : Reflects latest dataCM)
    (published : GoMap.lookup (jsonKey .dataset pod.metadata.name) latest = some payload)
    (accepts : Accepts signingKey payload (GoMap.get (sigKey .dataset pod.metadata.name) latest)) :
    verifiedData signingKey .dataset pod dataCM = payload := by
  have json := reflects _ _ ⟨pod.metadata.name, Or.inl rfl⟩ published
  obtain ⟨cm, rfl⟩ : ∃ cm, dataCM = some cm := by
    cases dataCM with
    | none => cases json
    | some cm => exact ⟨cm, rfl⟩
  have read : GoMap.get (jsonKey .dataset pod.metadata.name) cm.content.data = payload := congrArg (Option.getD · "") json
  unfold verifiedData
  simp only [extractDataFromPod, read]
  cases signingKey with
  | none => rfl
  | some key =>
    have verifies := accepts key rfl
    have signed : GoMap.get (sigKey .dataset pod.metadata.name) cm.content.data =
        GoMap.get (sigKey .dataset pod.metadata.name) latest := by
      cases found : GoMap.lookup (sigKey .dataset pod.metadata.name) latest with
      | none => simp [GoMap.get, found, verifySignature] at verifies
      | some sig =>
        have stored : GoMap.lookup _ cm.content.data = some sig := reflects _ _ ⟨pod.metadata.name, Or.inr rfl⟩ found
        rw [GoMap.get, GoMap.get, found, stored]
    rw [signed]
    exact if_neg fun failing => failing.2 verifies

/-- What reflects the publications has them among the datasets of the inputs. -/
theorem mem_datasets (codec : GoJson) (discoveryKey : Option Sha256.Bytes) (jobResults : GoMap) {pods : List Pod}
    (reflects : Reflects latest dataCM) (present : pod ∈ pods)
    (published : GoMap.lookup (jsonKey .dataset pod.metadata.name) latest = some payload)
    (accepts : Accepts signingKey payload (GoMap.get (sigKey .dataset pod.metadata.name) latest)) :
    payload ∈ (inputsOf codec dataCM discoveryKey signingKey pods jobResults).datasets := by
  refine List.mem_map.mpr ⟨pod, (List.mem_insertionSort _).mpr present, ?_⟩
  have entry : GoMap.lookup pod.metadata.name (merged (pods.map fun other =>
      (other.metadata.name, verifiedData signingKey .dataset other dataCM)) (some ∅)) = some payload := by
    refine lookup_merged (fun entry member named => ?_) (Or.inl ⟨_, List.mem_map_of_mem present, rfl⟩)
    obtain ⟨other, _, rfl⟩ := List.mem_map.mp member
    have name : other.metadata.name = pod.metadata.name := named
    exact verified_of_reflects reflects (name ▸ published) (name ▸ accepts)
  rw [← merged_ofList] at entry
  exact congrArg (Option.getD · "") entry

end Taken

theorem Kept.lastPayloadsTaken {key : Key} {world : Run} (kept : Kept key world) (codec : GoJson) :
    LastPayloadsTaken codec key world := by
  intro thread member entry served dataCM read discoveryKey signingKey pods jobResults pod present payload published
    accepts
  exact mem_datasets codec discoveryKey jobResults (kept.taken thread member entry served dataCM read) present published
    accepts

theorem Kept.start {key : Key} {start : Run} (fresh : start.threads = []) (faithful : Faithful key start.shared)
    (whole : start.shared.cluster.find .configMap key = none → ∀ name, GoMap.lookup name (start.shared.latest key) = none) :
    Kept key start where
  faithful := faithful
  whole _ := whole
  taken := by simp [fresh]
  gone := by simp [StaysCollected, fresh]

theorem Kept.spawn {key : Key} {world : Run} (kept : Kept key world) (actor : Actor) :
    Kept key { world with threads := world.threads ++ [(terminating w).started actor] } where
  faithful := kept.faithful
  whole undeleted := kept.whole fun thread member => undeleted thread (List.mem_append_left _ member)
  taken thread member entry served := by
    rcases List.mem_append.mp member with old | new
    · exact kept.taken thread old entry served
    · obtain rfl := List.mem_singleton.mp new
      cases served
  gone thread member entry served := by
    rcases List.mem_append.mp member with old | new
    · exact kept.gone thread old entry served
    · obtain rfl := List.mem_singleton.mp new
      cases served

theorem find_act {key : Key} {deed : Deed} (spares : deed.Spares key) (cluster : Cluster) :
    (deed.apply cluster).find .configMap key = cluster.find .configMap key := by
  cases deed with
  | put kind object =>
    by_cases same : kind = .configMap
    · subst same
      simp only [Deed.apply, Cluster.find, Cluster.setStore, Function.update_self]
      exact Keyed.find?_put_of_ne spares _
    · simp [Deed.apply, Cluster.find, Cluster.setStore, Function.update_of_ne (Ne.symm same)]
  | drop kind place =>
    by_cases same : kind = .configMap
    · subst same
      simp only [Deed.apply, Cluster.remove, Cluster.find, Cluster.setStore, Function.update_self]
      exact Keyed.find?_erase_of_ne (Ne.symm spares) _
    · simp [Deed.apply, Cluster.remove, Cluster.find, Cluster.setStore, Function.update_of_ne (Ne.symm same)]
  | observe kind place => rfl

theorem Kept.act {key : Key} {world : Run} (kept : Kept key world) {deed : Deed} (spares : deed.Spares key) :
    Kept key { world with shared := (terminating w).act deed world.shared, history := world.states } := by
  have found : ((terminating w).act deed world.shared).cluster.find .configMap key =
      world.shared.cluster.find .configMap key := find_act spares _
  refine { faithful := kept.faithful.of_same found rfl, whole := ?_, taken := kept.taken, gone := ?_ }
  · intro undeleted missing
    exact kept.whole undeleted (found ▸ missing)
  · intro thread member entry served deleted
    exact found.trans (kept.gone thread member entry served deleted)

theorem deletes_of_collected {key : Key} {entry : Served ApiServer Shared} (done : collected key entry = true) :
    deletes key entry.request = true := by
  obtain ⟨before, request, response⟩ := entry
  cases request with
  | delete kind place =>
    cases kind with
    | configMap =>
      cases response with
      | ok _ => exact done
      | error _ => cases done
    | _ => cases done
  | _ => cases done

theorem spares_deletes {key : Key} {request : Request} (spares : Spares key request) : deletes key request = false := by
  cases request with
  | delete kind place =>
    cases kind with
    | configMap => exact decide_eq_false spares
    | _ => rfl
  | _ => rfl

theorem sends_cases {key : Key} {actor : Actor} {request : Request} (sends : Sends key actor request) :
    Spares key request ∨ request = .delete .configMap key ∨ Publishes key request := by
  cases actor with
  | job _ | pod _ => exact sends.imp_right Or.inl
  | discovery _ _ | sidecar _ => exact Or.inr (Or.inr sends)

section Serve
variable {key : Key} {world : Run} {index : Nat} {circumstance : Circumstance} {thread : Thread ApiServer Shared Actor}
  {request : Request} {rest : Response request → ApiProgram Unit}

/-- The request with its answer, and the world after it. -/
private abbrev answered (circumstance : Circumstance) (world : Run) (request : Request) : Served ApiServer Shared :=
  ⟨world.shared, request, (serve circumstance world.shared request).1⟩

private abbrev after (index : Nat) (circumstance : Circumstance) (world : Run) (thread : Thread ApiServer Shared Actor)
    (request : Request) (rest : Response request → ApiProgram Unit) : Run where
  shared := (serve circumstance world.shared request).2
  history := world.states
  threads := world.threads.set index
    { owner := thread.owner
      past := thread.past ++ [answered circumstance world request]
      rest := rest (serve circumstance world.shared request).1 }

theorem served_cases (found : world.threads[index]? = some thread) {other : Thread ApiServer Shared Actor}
    (member : other ∈ (after index circumstance world thread request rest).threads) {entry : Served ApiServer Shared}
    (served : entry ∈ other.past) :
    (∃ old ∈ world.threads, entry ∈ old.past) ∨ entry = answered circumstance world request := by
  rcases List.mem_or_eq_of_mem_set member with old | rfl
  · exact Or.inl ⟨other, old, served⟩
  · rcases List.mem_append.mp served with earlier | last
    · exact Or.inl ⟨thread, List.mem_of_getElem? found, earlier⟩
    · exact Or.inr (List.mem_singleton.mp last)

theorem undeleted_before (found : world.threads[index]? = some thread)
    (undeleted : Undeleted key (after index circumstance world thread request rest)) :
    Undeleted key world ∧ deletes key request = false := by
  obtain ⟨place, _⟩ := List.getElem?_eq_some_iff.mp found
  have here := undeleted _ (List.mem_set place _)
  refine ⟨fun other member entry served => ?_, here (answered circumstance world request) (by simp)⟩
  rcases mem_set_of_mem found member _ with rfl | kept
  · exact here entry (List.mem_append_left _ served)
  · exact undeleted other kept entry served

theorem reflects_read (faithful : Faithful key world.shared)
    (readable : request = .get .configMap key → world.shared.latest key = none ∨
      (circumstance.fate = .served ∧ (world.shared.cluster.find .configMap key).isSome))
    {dataCM : Option ConfigMap} (read : dataRead key (answered circumstance world request) = some dataCM) :
    Reflects (world.shared.latest key) dataCM := by
  intro name value isDataset published
  cases request with
  | get kind place =>
    cases kind with
    | configMap =>
      simp only [dataRead, Option.ite_none_right_eq_some, Option.some.injEq] at read
      obtain ⟨rfl, rfl⟩ := read
      rcases readable rfl with nothing | ⟨fate, present⟩
      · rw [nothing] at published
        cases published
      · obtain ⟨cm, found⟩ := Option.isSome_iff_exists.mp present
        have response : (serve circumstance world.shared (.get .configMap place)).1 = .ok cm := by
          simp only [serve, serve_served fate, perform, found]
        rw [response]
        exact faithful.mirrors cm found name value published
    | _ => cases read
  | _ => cases read

theorem Kept.undisturbed (kept : Kept key world) (present : world.threads[index]? = some thread)
    (readable : request = .get .configMap key → world.shared.latest key = none ∨
      (circumstance.fate = .served ∧ (world.shared.cluster.find .configMap key).isSome))
    (found : (serve circumstance world.shared request).2.cluster.find .configMap key =
      world.shared.cluster.find .configMap key)
    (latest : (serve circumstance world.shared request).2.latest key = world.shared.latest key)
    (collects : collected key (answered circumstance world request) = false) :
    Kept key (after index circumstance world thread request rest) where
  faithful := kept.faithful.of_same found latest
  whole undeleted missing := by
    rw [latest]
    exact kept.whole (undeleted_before present undeleted).1 (found ▸ missing)
  taken other member entry served dataCM read := by
    rw [latest]
    rcases served_cases present member served with ⟨old, before, earlier⟩ | rfl
    · exact kept.taken old before entry earlier dataCM read
    · exact reflects_read kept.faithful readable read
  gone other member entry served deleted := by
    refine found.trans ?_
    rcases served_cases present member served with ⟨old, before, earlier⟩ | rfl
    · exact kept.gone old before entry earlier deleted
    · rw [collects] at deleted
      cases deleted

theorem Kept.deleted (kept : Kept key world) (present : world.threads[index]? = some thread)
    (now : request = .delete .configMap key) : Kept key (after index circumstance world thread request rest) := by
  subst now
  have latest : (serve circumstance world.shared (.delete .configMap key)).2.latest key = world.shared.latest key :=
    latest_unpublished (Or.inr rfl)
  have either : (∃ message, (serve circumstance world.shared (.delete .configMap key)).1 = .error (.other message)) ∧
      (serve circumstance world.shared (.delete .configMap key)).2.cluster.find .configMap key =
        world.shared.cluster.find .configMap key ∨
      (serve circumstance world.shared (.delete .configMap key)).2.cluster.find .configMap key = none :=
    find_deleted kept.faithful
  rcases either with ⟨⟨message, response⟩, found⟩ | gone
  · refine kept.undisturbed present (fun read => by cases read) found latest ?_
    simp only [answered, response]
    rfl
  · refine { faithful := ⟨fun cm found => ?_, fun cm found => ?_⟩, whole := fun undeleted => ?_, taken := ?_, gone := ?_ }
    · exact absurd (gone.symm.trans found) (by simp)
    · exact absurd (gone.symm.trans found) (by simp)
    · exact absurd (undeleted_before present undeleted).2 (by simp [deletes])
    · intro other member entry served dataCM read
      rw [latest]
      rcases served_cases present member served with ⟨old, before, earlier⟩ | rfl
      · exact kept.taken old before entry earlier dataCM read
      · cases read
    · exact fun _ _ _ _ _ => gone

theorem Kept.published (named : key.2 ≠ "") (kept : Kept key world) (present : world.threads[index]? = some thread)
    (publishes : Publishes key request)
    (late : ∀ entries, refuses circumstance = false → publication key world.shared.cluster request = some entries →
      Undeleted key world ∧ (Unread key world ∨ Repeats entries (world.shared.latest key))) :
    Kept key (after index circumstance world thread request rest) := by
  have collects : collected key (answered circumstance world request) = false := by cases publishes <;> rfl
  have unread : dataRead key (answered circumstance world request) = none := by cases publishes <;> rfl
  by_cases silent : refuses circumstance = true ∨ publication key world.shared.cluster request = none
  · refine kept.undisturbed present (fun read => ?_) (find_unpublished named publishes silent)
      (latest_unpublished silent) collects
    subst read
    cases publishes
  · rw [not_or] at silent
    obtain ⟨entries, now⟩ := Option.ne_none_iff_exists'.mp silent.2
    have carried := Bool.eq_false_iff.mpr silent.1
    obtain ⟨undeleted, quiet⟩ := late entries carried now
    obtain ⟨faithful, stored⟩ := faithful_published named publishes carried now kept.faithful (kept.whole undeleted)
    refine { faithful := faithful, whole := fun _ missing => absurd missing stored, taken := ?_, gone := ?_ }
    · intro other member entry served dataCM read
      rcases served_cases present member served with ⟨old, before, earlier⟩ | rfl
      · rcases quiet with never | repeats
        · rw [never old before entry earlier] at read
          cases read
        · intro name value isDataset
          rw [latest_published carried now, repeats name isDataset]
          exact kept.taken old before entry earlier dataCM read name value isDataset
      · rw [unread] at read
        cases read
    · intro other member entry served deleted
      rcases served_cases present member served with ⟨old, before, earlier⟩ | rfl
      · have spared := undeleted old before entry earlier
        rw [deletes_of_collected deleted] at spared
        cases spared
      · rw [collects] at deleted
        cases deleted

end Serve

theorem Kept.step {world next : Run} {move : Move Cue Deed Circumstance} (kept : Kept (dataKey ns triggerName) world)
    (sends : ∀ thread ∈ world.threads, thread.rest.Sends Legal (Sends (dataKey ns triggerName) thread.owner))
    (own : OfRun w ns triggerName world move) (heeds : Heeds (dataKey ns triggerName) world move)
    (moved : (terminating w).step world move = some next) : Kept (dataKey ns triggerName) next := by
  rcases System.step_cases moved with ⟨cue, actor, rfl, found, rfl⟩ | ⟨deed, rfl, rfl⟩ |
    ⟨index, circumstance, thread, request, rest, rfl, found, calls, rfl⟩
  · exact kept.spawn actor
  · exact kept.act own
  · obtain ⟨late, readable⟩ := heeds thread request rest found calls
    have sent := sends thread (List.mem_of_getElem? found)
    rw [calls, Program.sends_call] at sent
    rcases sends_cases sent.1 with spares | deletion | publishes
    · refine kept.undisturbed found readable (find_spared spares _ _)
        (latest_unpublished (Or.inr (publication_spared spares _))) (Bool.eq_false_iff.mpr fun done => ?_)
      have deletion : deletes (dataKey ns triggerName) request = true := deletes_of_collected done
      rw [spares_deletes spares] at deletion
      cases deletion
    · exact kept.deleted found deletion
    · exact kept.published dataKey_named found publishes late

theorem run_sends {start world : Run} (fresh : start.threads = [])
    (reached : (terminating w).Reaches (OfRun w ns triggerName) start world) :
    ∀ thread ∈ world.threads, thread.rest.Sends Legal (Sends (dataKey ns triggerName) thread.owner) := by
  have admits : ∀ (world : Run) (cue : Cue) (actor : Actor), OfRun w ns triggerName world (.spawn cue) →
      cue.resolve world.states = some actor → actor.OfRun w ns triggerName :=
    fun _ _ actor own found => own actor found
  have sends := System.Reaches.sends fresh (fun circumstance shared request => legal_serve circumstance shared.cluster request)
    admits program_sends reached
  exact fun thread member => (sends thread member).2.2

/-- In a run that heeds the order, the inputs have the payloads that were published last,
and the data ConfigMap stays collected. -/
theorem final_flush_kept (codec : GoJson) {start world : Run} (fresh : start.threads = [])
    (unpublished : start.shared.latest (dataKey ns triggerName) = none)
    (plain : ∀ cm, start.shared.cluster.find .configMap (dataKey ns triggerName) = some cm →
      cm.metadata.finalizers = [] ∧ cm.metadata.deletionTimestamp = none)
    (reached : (terminating w).Reaches (fun world move => OfRun w ns triggerName world move ∧
      Heeds (dataKey ns triggerName) world move) start world) :
    LastPayloadsTaken codec (dataKey ns triggerName) world ∧ StaysCollected (dataKey ns triggerName) world := by
  have nothing : ∀ name, GoMap.lookup name (start.shared.latest (dataKey ns triggerName)) = none := by
    intro name
    rw [unpublished]
    rfl
  have begin : Kept (dataKey ns triggerName) start := by
    refine Kept.start fresh ⟨plain, fun cm _ name value published => ?_⟩ fun _ => nothing
    rw [nothing name] at published
    cases published
  have kept : Kept (dataKey ns triggerName) world := by
    refine System.Reaches.invariant begin (fun before next move earlier kept allowed moved => ?_) reached
    exact kept.step (run_sends fresh (earlier.mono fun _ _ => And.left)) allowed.1 allowed.2 moved
  exact ⟨kept.lastPayloadsTaken codec, kept.gone⟩

/-! A bare pod whose detection file is changed once more while it terminates. -/

def predictorSidecar : Sidecar where
  podName := "predictor"
  podNamespace := "team"
  dataConfigMap := configMapName "predictor"
  signPayload := fun _ => none
  polls := [some { mtime := 1, payload := some "{}" }]
  shutdown := [(some { mtime := 2, payload := some "[]" }, some 2)]

/-- The pod is stored and marked for deletion; nothing is published yet. -/
def deletedPredictor : Run := World.initial Actor
  { cluster := (Cluster.empty.write FinalizerRelease.deletedPod).setCache .namespace (Keyed.ofList
      [{ Lifetime.enabledNamespace with metadata := { Lifetime.enabledNamespace.metadata with name := "team" } }])
    latest := fun _ => none }

/-- The postprocess Job once it is complete. -/
def predictorPostprocess : Job :=
  let job := Creation.exampleWatcher.postprocessJob "team" "predictor" "Pod" "pod-1"
  { job with content := { job.content with conditions := [{ type := "Complete", status := "True" }] } }

def granted : Circumstance where
  fate := .served
  uid := "uid"
  time := 0

def answers (count thread : Nat) : List (Move Cue Deed Circumstance) := List.replicate count (.serve thread granted)

/-- The sidecar's first pass. -/
def firstPass : List (Move Cue Deed Circumstance) := .spawn (.sidecar predictorSidecar) :: answers 2 0

/-- The watcher creates the postprocess Job, which completes. -/
def postprocessing : List (Move Cue Deed Circumstance) :=
  .spawn (.podEvent 0 ("team", "predictor")) :: answers 14 1 ++ [.act (.put .job predictorPostprocess)]

def collection (version : Nat) : List (Move Cue Deed Circumstance) :=
  .spawn (.jobEvent version predictorPostprocess.key) :: answers 4 2

instance (w : Watcher) (ns triggerName : String) : DecidablePred (Actor.OfRun w ns triggerName)
  | .job found => inferInstanceAs (Decidable ((found.key = (ns, triggerName) ∧ isPostprocessJob found = false) ∨ _))
  | .pod found => inferInstanceAs (Decidable (found.key = (ns, triggerName)))
  | .discovery place _ => inferInstanceAs (Decidable (place = dataKey ns triggerName))
  | .sidecar s => inferInstanceAs (Decidable ((s.podNamespace, s.dataConfigMap) = dataKey ns triggerName))

def sparesKey (key : Key) : Deed → Bool
  | .put .configMap object => object.key ≠ key
  | .drop .configMap place => place ≠ key
  | _ => true

def ofRun (w : Watcher) (ns triggerName : String) (world : Run) : Move Cue Deed Circumstance → Bool
  | .spawn cue => (cue.resolve world.states).all fun actor => decide (actor.OfRun w ns triggerName)
  | .act deed => sparesKey (dataKey ns triggerName) deed
  | .serve _ _ => true

theorem ofRun_of {w : Watcher} {ns triggerName : String} (world : Run) (move : Move Cue Deed Circumstance)
    (checked : ofRun w ns triggerName world move = true) : OfRun w ns triggerName world move := by
  cases move with
  | spawn cue =>
    intro actor found
    simpa [ofRun, found] using checked
  | act deed =>
    cases deed with
    | put kind object =>
      cases kind with
      | configMap =>
        have spared : object.key ≠ dataKey ns triggerName := of_decide_eq_true checked
        exact spared
      | _ => trivial
    | drop kind place =>
      cases kind with
      | configMap =>
        have spared : place ≠ dataKey ns triggerName := of_decide_eq_true checked
        exact spared
      | _ => trivial
    | observe kind place => trivial
  | serve index circumstance => trivial

/-- Nothing is published at all once the data have been read or deleted. -/
def heedsOrder (key : Key) (world : Run) : Move Cue Deed Circumstance → Bool
  | .serve index circumstance => world.threads[index]?.all fun thread =>
    match thread.rest with
    | .done _ => true
    | .call request _ =>
      ((publication key world.shared.cluster request).isNone || world.threads.all fun other =>
        other.past.all fun entry => !deletes key entry.request && (dataRead key entry).isNone) &&
      match request with
      | .get .configMap _ => circumstance.fate = .served && (world.shared.cluster.find .configMap key).isSome
      | _ => true
  | _ => true

theorem heeds_of {key : Key} (world : Run) (move : Move Cue Deed Circumstance) (checked : heedsOrder key world move = true) :
    Heeds key world move := by
  cases move with
  | spawn cue => trivial
  | act deed => trivial
  | serve index circumstance =>
    intro thread request next found calls
    simp only [heedsOrder, found, Option.all_some, calls, Bool.and_eq_true, Bool.or_eq_true] at checked
    obtain ⟨quiet, readable⟩ := checked
    constructor
    · intro entries carried now
      rw [now] at quiet
      have all := quiet.resolve_left (by simp)
      have each : ∀ other ∈ world.threads, ∀ entry ∈ other.past, deletes key entry.request = false ∧
          dataRead key entry = none := by
        intro other member entry served
        simpa using List.all_eq_true.mp (List.all_eq_true.mp all other member) entry served
      exact ⟨fun other member entry served => (each other member entry served).1,
        Or.inl fun other member entry served => (each other member entry served).2⟩
    · rintro rfl
      right
      simpa using readable

def permits (world : Run) (move : Move Cue Deed Circumstance) : Bool :=
  ofRun Creation.exampleWatcher "team" "predictor" world move && heedsOrder (dataKey "team" "predictor") world move

theorem permitted_of_permits (world : Run) (move : Move Cue Deed Circumstance) (checked : permits world move = true) :
    OfRun Creation.exampleWatcher "team" "predictor" world move ∧ Heeds (dataKey "team" "predictor") world move := by
  rw [permits, Bool.and_eq_true] at checked
  exact ⟨ofRun_of world move checked.1, heeds_of world move checked.2⟩

/-- The entries that the inputs are built from. -/
def readPayloads (world : Run) : List (Option String) :=
  world.threads.flatMap fun thread => thread.past.filterMap fun entry =>
    (dataRead (dataKey "team" "predictor") entry).map fun dataCM =>
      GoMap.lookup (jsonKey .dataset "predictor") (dataCM.bind fun cm => cm.content.data)

def collectedOnce (world : Run) : Bool :=
  world.threads.any fun thread => thread.past.any (collected (dataKey "team" "predictor"))

def summary (world : Run) : Option String × List (Option String) × Bool × Bool :=
  (GoMap.lookup (jsonKey .dataset "predictor") (world.shared.latest (dataKey "team" "predictor")), readPayloads world,
    collectedOnce world, (world.shared.cluster.find .configMap (dataKey "team" "predictor")).isSome)

/-- The sidecar publishes the final flush before the data are read. -/
def awaitedRun : Checked ((terminating Creation.exampleWatcher).checkedRun permits deletedPredictor
    (firstPass ++ answers 1 0 ++ postprocessing ++ collection 18)) fun world =>
      readPayloads world = [some "[]"] ∧ collectedOnce world = true := .of (by decide +kernel)

theorem final_flush_kept_when_awaited : ∃ world,
    (terminating Creation.exampleWatcher).Reaches (fun world move =>
      OfRun Creation.exampleWatcher "team" "predictor" world move ∧ Heeds (dataKey "team" "predictor") world move)
      deletedPredictor world ∧
    (readPayloads world = [some "[]"] ∧ collectedOnce world = true) ∧
    LastPayloadsTaken Creation.exampleCodec (dataKey "team" "predictor") world ∧
      StaysCollected (dataKey "team" "predictor") world := by
  have absent : deletedPredictor.shared.cluster.find .configMap (dataKey "team" "predictor") = none :=
    Option.isNone_iff_eq_none.mp (by decide +kernel)
  obtain ⟨world, ran, result⟩ := awaitedRun
  have reached := System.reaches_of_checkedRun permitted_of_permits ran
  refine ⟨world, reached, result, final_flush_kept Creation.exampleCodec rfl rfl (fun cm found => ?_) reached⟩
  rw [absent] at found
  cases found

/-- The sidecar publishes the final flush after the data were read and collected. -/
def missedRun : Checked ((terminating Creation.exampleWatcher).checkedRun (ofRun Creation.exampleWatcher "team" "predictor")
    deletedPredictor (firstPass ++ postprocessing ++ collection 17 ++ answers 2 0)) fun world =>
      summary world = (some "[]", [some "{}"], true, true) := .of (by decide +kernel)

theorem final_flush_missed : ∃ world,
    (terminating Creation.exampleWatcher).Reaches (OfRun Creation.exampleWatcher "team" "predictor") deletedPredictor
      world ∧
    ¬LastPayloadsTaken Creation.exampleCodec (dataKey "team" "predictor") world ∧
    ¬StaysCollected (dataKey "team" "predictor") world := by
  obtain ⟨world, ran, result⟩ := missedRun
  simp only [summary, Prod.mk.injEq] at result
  obtain ⟨latest, reads, once, stored⟩ := result
  refine ⟨world, System.reaches_of_checkedRun ofRun_of ran, fun taken => ?_, fun stays => ?_⟩
  · have here : some "{}" ∈ readPayloads world := reads ▸ List.mem_singleton_self _
    obtain ⟨thread, member, inThread⟩ := List.mem_flatMap.mp here
    obtain ⟨entry, served, payload⟩ := List.mem_filterMap.mp inThread
    obtain ⟨dataCM, read, payload⟩ := Option.map_eq_some_iff.mp payload
    have final := taken thread member entry served dataCM read none none [FinalizerRelease.deletedPod] none
      FinalizerRelease.deletedPod (List.mem_singleton_self _) "[]" latest (fun key configured => by cases configured)
    have old : verifiedData none .dataset FinalizerRelease.deletedPod dataCM = "{}" := by
      cases dataCM with
      | none => cases payload
      | some cm => exact congrArg (Option.getD · "") payload
    have datasets : (inputsOf Creation.exampleCodec dataCM none none [FinalizerRelease.deletedPod] none).datasets =
        [verifiedData none .dataset FinalizerRelease.deletedPod dataCM] := by
      simp [inputsOf, ranked, GoMap.get, GoMap.lookup, Keyed.ofList, Keyed.putAll, Keyed.find?_put]
    rw [datasets, old] at final
    exact absurd (List.mem_singleton.mp final) (by decide)
  · obtain ⟨thread, member, inThread⟩ := List.any_eq_true.mp once
    obtain ⟨entry, served, done⟩ := List.any_eq_true.mp inThread
    rw [stays thread member entry served done] at stored
    cases stored

end AibomWebhook.FinalFlush
