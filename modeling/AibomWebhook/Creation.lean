import AibomWebhook.Writes

/-! One call of `createPostprocessJobCore`, whatever requests of it fail and whatever
others do between its look at the postprocess Jobs and its writes: what each of its
steps returns and leaves in the cluster. -/

namespace AibomWebhook.Creation
open Aibomdata Identity Kubernetes Objects Postprocess PostprocessData Requests Writes

/-- Nothing stored is waiting for its removal only. -/
def Settled (cluster : Cluster) : Prop :=
  ∀ kind key (object : Object kind), cluster.find kind key = some object → released object = false

/-- How the requests of one call end; what others do after its look at the postprocess
Jobs; and the data of a ConfigMap that somebody creates under the inputs' name just
before the call creates its own. -/
structure Weather where
  circumstance : Request → Circumstance
  meanwhile : Cluster → Cluster
  settled : ∀ cluster, Settled cluster → Settled (meanwhile cluster)
  rival : Option GoMap

namespace Weather

def fate (weather : Weather) (request : Request) : Fate := (weather.circumstance request).fate

def rivalConfigMap (object : ConfigMap) (data : GoMap) : ConfigMap where
  metadata := namedMeta object.metadata.ns object.metadata.name
  content := { data := data }

/-- The cluster that a request meets. -/
def before (weather : Weather) (cluster : Cluster) : Request → Cluster
  | .create .configMap object =>
    match weather.rival with
    | none => cluster
    | some data => (perform "" 0 cluster (.create .configMap (rivalConfigMap object data))).2
  | _ => cluster

def serve (weather : Weather) (cluster : Cluster) (request : Request) : Response request × Cluster :=
  Kubernetes.serve (weather.circumstance request) (weather.before cluster request) request

theorem serve_failed (weather : Weather) (cluster : Cluster) (request : Request)
    (failing : weather.fate request ≠ .served) : ∃ message,
      (weather.serve cluster request).1 = failed message (weather.circumstance request).time request :=
  Kubernetes.serve_failed failing

end Weather

/-- What a call is about: the trigger, and what was gathered for it. -/
structure Call where
  watcher : Watcher
  ns : String
  triggerName : String
  triggerKind : String
  triggerUID : String
  pods : List Pod
  annotations : StringMap
  jobResults : GoMap

namespace Call
variable (call : Call)

def postprocessName : String := postprocessJobName call.ns call.triggerName

def inputsName : String := postprocessInputsConfigMapName call.postprocessName

/-- Where the postprocess Job is, or is to be. -/
def slot : Key := (call.watcher.ns, call.postprocessName)

/-- Where the ConfigMap is that this Job mounts. -/
def inputs : Key := (call.watcher.ns, call.inputsName)

def core : ApiProgram (Except PostprocessError String) :=
  call.watcher.createPostprocessJobCore call.ns call.triggerName call.triggerKind call.triggerUID call.pods
    call.annotations call.jobResults

def guard : ApiProgram Occupant :=
  call.watcher.existingPostprocessJob call.ns call.triggerName call.triggerUID call.postprocessName call.inputsName

def launch : ApiProgram (Except PostprocessError String) :=
  call.watcher.launchPostprocessJob call.ns call.triggerName call.triggerKind call.triggerUID call.pods
    call.annotations call.jobResults

/-- The selector by which the call lists the workload's postprocess Jobs. -/
def selector : LabelSelector := [(labelPostprocessFor, call.triggerName), (labelPostprocessNamespace, call.ns)]

def listing : Request := .list .job call.watcher.ns call.selector

/-- The Job in the slot, if it has the labels. -/
def listed (cluster : Cluster) : Option Job :=
  (cluster.find .job call.slot).filter fun job => selects call.selector job.metadata.labels

/-- Whether a Job was made for another run. -/
def ofOtherRun (job : Job) : Prop :=
  GoMap.get annotationPostprocessTriggerUID job.metadata.annotations ≠ "" ∧
    GoMap.get annotationPostprocessTriggerUID job.metadata.annotations ≠ call.triggerUID

instance (job : Job) : Decidable (call.ofOtherRun job) := instDecidableAnd

def occupant (cluster : Cluster) : Occupant :=
  match call.listed cluster with
  | none => .neither
  | some job =>
    if jobResult job = "Failed" then .neither
    else if call.ofOtherRun job then .otherRun
    else .sameRun

end Call

section Guard
variable (weather : Weather) (call : Call)

/-- The cluster once a failed Job and its inputs were told to go. -/
def cleared (cluster : Cluster) : Cluster :=
  (weather.serve (weather.serve cluster (.delete .job call.slot)).2 (.delete .configMap call.inputs)).2

theorem examineJobs_filter (jobs : List Job) :
    call.watcher.examineJobs call.triggerUID call.postprocessName call.inputsName jobs =
      call.watcher.examineJobs call.triggerUID call.postprocessName call.inputsName
        (jobs.filter fun job => job.metadata.name = call.postprocessName) := by
  induction jobs with
  | nil => rfl
  | cons job rest ih =>
    by_cases named : job.metadata.name = call.postprocessName
    · rw [List.filter_cons_of_pos (by simpa using named)]
      simp only [Watcher.examineJobs, named, ne_eq, not_true_eq_false, if_false, ih]
    · rw [List.filter_cons_of_neg (by simpa using named)]
      simp only [Watcher.examineJobs, named, ne_eq, not_false_eq_true, if_true, ih]

/-- Of the listed Jobs only the one in the slot counts. -/
theorem listed_items (cluster : Cluster) :
    (((cluster.store .job).items.filter fun job =>
        job.metadata.ns = call.watcher.ns && selects call.selector job.metadata.labels).filter fun job =>
      job.metadata.name = call.postprocessName) = (call.listed cluster).toList := by
  have inSlot : ∀ job : Job, (decide (job.metadata.name = call.postprocessName) &&
      (decide (job.metadata.ns = call.watcher.ns) && selects call.selector job.metadata.labels)) =
      (selects call.selector job.metadata.labels && decide (job.key = call.slot)) := by
    intro job
    simp only [Object.key, Call.slot, Prod.mk.injEq, Bool.decide_and]
    ac_rfl
  rw [List.filter_filter]
  simp only [inSlot]
  rw [← List.filter_filter, Keyed.filter_key, Call.listed, Cluster.find]
  cases (cluster.store .job).find? call.slot with
  | none => rfl
  | some job =>
    cases labelled : selects call.selector job.metadata.labels <;> simp [Option.filter, labelled]

theorem guard_eq : call.guard = (list .job call.watcher.ns call.selector >>= fun answer =>
    match answer with
    | .error _ => pure .neither
    | .ok existing =>
      call.watcher.examineJobs call.triggerUID call.postprocessName call.inputsName existing) := rfl

theorem listed_name {cluster : Cluster} {job : Job} (found : call.listed cluster = some job) :
    job.metadata.name = call.postprocessName := by
  have inSlot := Keyed.key_of_find? (Option.filter_eq_some_iff.mp found).1
  exact (Prod.mk.inj inSlot).2

theorem guard_run (cluster : Cluster) : call.guard.run weather.serve cluster =
    if weather.fate call.listing = .served then
      (call.occupant cluster,
        if (call.listed cluster).any (fun job => jobResult job = "Failed") then cleared weather call cluster else cluster)
    else (.neither, cluster) := by
  rw [guard_eq, list_bind, Program.run_call]
  by_cases served : weather.fate call.listing = .served
  · have answered : weather.serve cluster call.listing = (.ok ((cluster.store .job).items.filter fun job =>
        job.metadata.ns = call.watcher.ns && selects call.selector job.metadata.labels), cluster) :=
      serve_served served
    unfold Call.listing at answered
    rw [if_pos served, answered]
    change (call.watcher.examineJobs call.triggerUID call.postprocessName call.inputsName _).run weather.serve
      cluster = _
    rw [examineJobs_filter, listed_items, Call.occupant]
    cases found : call.listed cluster with
    | none => rfl
    | some job =>
      have inSlot := listed_name call found
      by_cases failed : jobResult job = "Failed"
      · simp [Watcher.examineJobs, inSlot, failed, cleared, Call.slot, Call.inputs]
      · by_cases other : call.ofOtherRun job
        · have condition := other
          simp only [Call.ofOtherRun] at condition
          simp [Watcher.examineJobs, inSlot, failed, other, condition]
        · have condition := other
          simp only [Call.ofOtherRun] at condition
          simp [Watcher.examineJobs, inSlot, failed, other, condition]
  · obtain ⟨message, answered⟩ := weather.serve_failed cluster call.listing served
    have unchanged : (weather.serve cluster call.listing).2 = cluster := serve_reads rfl
    have error : (weather.serve cluster call.listing).1 = .error (.other message) := answered
    unfold Call.listing at error unchanged
    rw [if_neg served, error, unchanged]
    rfl

/-- The guard overwrites nothing but the inputs of a failed Job, once that was told to go. -/
theorem guard_served (cluster : Cluster) : call.guard.served weather.serve cluster =
    ⟨cluster, call.listing, (weather.serve cluster call.listing).1⟩ ::
      if weather.fate call.listing = .served ∧ (call.listed cluster).any (fun job => jobResult job = "Failed") then
        let deletion := weather.serve cluster (.delete .job call.slot)
        [⟨cluster, .delete .job call.slot, deletion.1⟩,
          ⟨deletion.2, .delete .configMap call.inputs, (weather.serve deletion.2 (.delete .configMap call.inputs)).1⟩]
      else [] := by
  rw [guard_eq, list_bind, Program.served_call]
  refine congrArg (List.cons _) ?_
  by_cases served : weather.fate call.listing = .served
  · have answered : weather.serve cluster call.listing = (.ok ((cluster.store .job).items.filter fun job =>
        job.metadata.ns = call.watcher.ns && selects call.selector job.metadata.labels), cluster) :=
      serve_served served
    unfold Call.listing at answered
    rw [answered]
    change (call.watcher.examineJobs call.triggerUID call.postprocessName call.inputsName _).served weather.serve
      cluster = _
    rw [examineJobs_filter, listed_items]
    cases found : call.listed cluster with
    | none => simp [Watcher.examineJobs]
    | some job =>
      have inSlot := listed_name call found
      by_cases failed : jobResult job = "Failed"
      · simp [Watcher.examineJobs, inSlot, failed, served, Call.slot, Call.inputs]
      · by_cases other : call.ofOtherRun job
        · have condition := other
          simp only [Call.ofOtherRun] at condition
          simp [Watcher.examineJobs, inSlot, failed, condition]
        · have condition := other
          simp only [Call.ofOtherRun] at condition
          simp [Watcher.examineJobs, inSlot, failed, condition]
  · obtain ⟨message, answered⟩ := weather.serve_failed cluster call.listing served
    have error : (weather.serve cluster call.listing).1 = .error (.other message) := answered
    unfold Call.listing at error
    rw [if_neg fun both => served both.1, error]
    rfl

end Guard

/-! What is stored stays settled. -/

theorem settled_write {kind : Kind} {cluster : Cluster} (settled : Settled cluster) (object : Object kind) :
    Settled (cluster.write object) := by
  intro other key stored found
  by_cases same : other = kind
  · subst same
    rw [find_write] at found
    split at found
    · split at found
      · exact absurd found (by simp)
      · rename_i stays
        obtain rfl := Option.some.inj found
        simpa [released, stamp] using stays
    · exact settled _ _ _ found
  · rw [find_write_of_kind _ _ same] at found
    exact settled _ _ _ found

theorem Settled.effect {uid : String} {time : Time} {cluster next : Cluster} {request : Request}
    (settled : Settled cluster) (effect : Effect uid time cluster request next) : Settled next := by
  cases effect with
  | unchanged => exact settled
  | created | updated | patched | deleted => exact settled_write settled _

theorem Settled.serve {weather : Weather} {cluster : Cluster} (settled : Settled cluster) (request : Request) :
    Settled (weather.serve cluster request).2 := by
  have met : Settled (weather.before cluster request) := by
    unfold Weather.before
    split
    · split
      · exact settled
      · exact settled.effect (perform_effect _ _ _ _)
    · exact settled
  exact met.effect (serve_effect _ _ _)

theorem Settled.run {α : Type} {weather : Weather} {cluster : Cluster} (settled : Settled cluster)
    (program : ApiProgram α) : Settled (program.run weather.serve cluster).2 := by
  have anything : program.Uses fun _ => True := by
    induction program with
    | done value => trivial
    | call request next ih => exact ⟨trivial, ih⟩
  exact anything.run weather.serve (fun _ request _ now => now.serve request) settled

/-! The inputs that the call builds. -/

section Launch
variable (weather : Weather) (call : Call)

def dataConfigMapRequest : Request := .get .configMap (call.ns, configMapName call.triggerName)

def signingKeyRequest (ns secretName : String) : Request := .get .secret (ns, secretName)

def storedKey (cluster : Cluster) (ns secretName dataKey : String) : Option Sha256.Bytes :=
  (cluster.find .secret (ns, secretName)).bind fun secret => (secret.content.data.find? dataKey).map Prod.snd

/-- The five keys for a data ConfigMap and two signing keys. -/
def Call.merge (dataCM : Option ConfigMap) (signingKey datasetSigningKey : Option Sha256.Bytes) : List (String × String) :=
  aggregateData call.watcher.codec
    (inputsOf call.watcher.codec dataCM signingKey datasetSigningKey call.pods call.jobResults) call.annotations

/-- This run's merge of what is stored. -/
def Call.due (cluster : Cluster) : List (String × String) :=
  call.merge (cluster.find .configMap (call.ns, configMapName call.triggerName))
    (storedKey cluster call.ns discoverySigningKeySecretName discoverySigningKeyDataKey)
    (storedKey cluster call.ns datasetSigningKeySecretName datasetSigningKeyDataKey)

/-- A thing that was read, or nothing if the reading failed. -/
def readable {α : Type} (request : Request) (value : Option α) : Option α :=
  if weather.fate request = .served then value else none

/-- The merge of what the call reads. -/
def Call.seen (cluster : Cluster) : List (String × String) :=
  call.merge
    (readable weather (dataConfigMapRequest call) (cluster.find .configMap (call.ns, configMapName call.triggerName)))
    (readable weather (signingKeyRequest call.ns discoverySigningKeySecretName)
      (storedKey cluster call.ns discoverySigningKeySecretName discoverySigningKeyDataKey))
    (readable weather (signingKeyRequest call.ns datasetSigningKeySecretName)
      (storedKey cluster call.ns datasetSigningKeySecretName datasetSigningKeyDataKey))

theorem serve_get (cluster : Cluster) (kind : Kind) (key : Key) :
    (weather.serve cluster (.get kind key)).2 = cluster ∧
      (weather.serve cluster (.get kind key)).1.toOption =
        readable weather (.get kind key) (cluster.find kind key) := by
  refine ⟨serve_reads rfl, ?_⟩
  unfold readable
  by_cases served : weather.fate (.get kind key) = .served
  · have answered : weather.serve cluster (.get kind key) = perform _ _ cluster (.get kind key) := serve_served served
    rw [if_pos served, answered, perform]
    cases cluster.find kind key <;> rfl
  · obtain ⟨message, answered⟩ := weather.serve_failed cluster (.get kind key) served
    have error : (weather.serve cluster (.get kind key)).1 = .error (.other message) := answered
    rw [if_neg served, error]
    rfl

theorem fetchSigningKey_run (cluster : Cluster) (ns secretName dataKey : String) :
    keyOrNone ((fetchSigningKey ns secretName dataKey).run weather.serve cluster).1 =
        readable weather (signingKeyRequest ns secretName) (storedKey cluster ns secretName dataKey) ∧
      ((fetchSigningKey ns secretName dataKey).run weather.serve cluster).2 = cluster := by
  obtain ⟨unchanged, answered⟩ := serve_get weather cluster .secret (ns, secretName)
  have key : readable weather (signingKeyRequest ns secretName) (storedKey cluster ns secretName dataKey) =
      (weather.serve cluster (.get .secret (ns, secretName))).1.toOption.bind fun secret =>
        (secret.content.data.find? dataKey).map Prod.snd := by
    rw [answered]
    unfold readable signingKeyRequest storedKey
    split <;> rfl
  simp only [fetchSigningKey, get_bind, Program.run_call]
  rw [unchanged, key]
  cases (weather.serve cluster (.get .secret (ns, secretName))).1 with
  | error error => cases error <;> exact ⟨rfl, rfl⟩
  | ok secret => exact ⟨rfl, rfl⟩

theorem buildPostprocessInputs_run (cluster : Cluster) :
    (call.watcher.buildPostprocessInputs call.ns (configMapName call.triggerName) call.pods call.jobResults).run
        weather.serve cluster =
      (inputsOf call.watcher.codec
        (readable weather (dataConfigMapRequest call)
          (cluster.find .configMap (call.ns, configMapName call.triggerName)))
        (readable weather (signingKeyRequest call.ns discoverySigningKeySecretName)
          (storedKey cluster call.ns discoverySigningKeySecretName discoverySigningKeyDataKey))
        (readable weather (signingKeyRequest call.ns datasetSigningKeySecretName)
          (storedKey cluster call.ns datasetSigningKeySecretName datasetSigningKeyDataKey))
        call.pods call.jobResults, cluster) := by
  obtain ⟨unchanged, dataCM⟩ := serve_get weather cluster .configMap (call.ns, configMapName call.triggerName)
  obtain ⟨discovery, first⟩ := fetchSigningKey_run weather cluster call.ns discoverySigningKeySecretName
    discoverySigningKeyDataKey
  obtain ⟨dataset, second⟩ := fetchSigningKey_run weather cluster call.ns datasetSigningKeySecretName
    datasetSigningKeyDataKey
  simp only [Watcher.buildPostprocessInputs, get_bind, Program.run_call, Program.run_bind, fetchDiscoverySigningKey,
    fetchDatasetSigningKey, unchanged, first, second, discovery, dataset, dataCM, Program.pure_eq, Program.run_done,
    dataConfigMapRequest]

/-! The inputs ConfigMap. -/

variable (data : List (String × String))

def Call.newInputs : ConfigMap := inputsConfigMap call.watcher.ns call.inputsName call.triggerName data

def creation : Request := .create .configMap (call.newInputs data)

def merging (existing : ConfigMap) : Request := .update .configMap (mergedConfigMap existing call.triggerName data)

def inputsRequest : Request := .get .configMap call.inputs

/-- Whether the call's own data gets into the inputs ConfigMap. -/
def Written (cluster : Cluster) : Prop :=
  weather.fate (inputsRequest call) = .served ∧
    match cluster.find .configMap call.inputs with
    | none => weather.rival = none ∧ ∀ message, weather.fate (creation call data) ≠ .refused message
    | some existing => ∀ message, weather.fate (merging call data existing) ≠ .refused message

/-- What is in the inputs ConfigMap otherwise. -/
def standing (cluster : Cluster) : Option GoMap :=
  match cluster.find .configMap call.inputs with
  | none => if weather.fate (inputsRequest call) = .served then weather.rival else none
  | some existing => some existing.content.data

/-- The data in the inputs ConfigMap of a cluster, if there is one. -/
def inputsData (cluster : Cluster) : Option GoMap :=
  (cluster.find .configMap call.inputs).map fun inputs => inputs.content.data

def createInputs : ApiProgram (Except WrappedError Unit) :=
  createDataConfigMap call.watcher.ns call.inputsName call.triggerName data

theorem inputsName_ne_empty : call.inputsName ≠ "" := by
  intro empty
  have length := congrArg String.length empty
  have suffix : configMapSuffix.length = 5 := by decide
  simp [Call.inputsName, postprocessInputsConfigMapName, suffix] at length

theorem lookup_fold_of_not_mem {key : String} (absent : key ∉ data.map Prod.fst) (map : GoMap) :
    GoMap.lookup key (data.foldl (fun map (key, value) => GoMap.set key value map) map) = GoMap.lookup key map := by
  induction data generalizing map with
  | nil => rfl
  | cons first rest ih =>
    rw [List.map_cons, List.mem_cons, not_or] at absent
    rw [List.foldl_cons, ih absent.2, GoMap.lookup_set_of_ne absent.1]

variable {data}

theorem lookup_fold (distinct : (data.map Prod.fst).Nodup) {entry : String × String} (member : entry ∈ data)
    (map : GoMap) :
    GoMap.lookup entry.1 (data.foldl (fun map (key, value) => GoMap.set key value map) map) = some entry.2 := by
  induction data generalizing map with
  | nil => simp at member
  | cons first rest ih =>
    rw [List.map_cons, List.nodup_cons] at distinct
    rw [List.foldl_cons]
    rcases List.mem_cons.mp member with rfl | later
    · rw [lookup_fold_of_not_mem rest distinct.1, GoMap.lookup_set_self]
    · exact ih distinct.2 later _

theorem ofList_eq_fold (entries : List (String × String)) :
    GoMap.ofList entries = entries.foldl (fun map (key, value) => GoMap.set key value map) (some ∅) := by
  have general : ∀ store : StringMap, some (Keyed.putAll entries store) =
      entries.foldl (fun map (key, value) => GoMap.set key value map) (some store) := by
    induction entries with
    | nil => exact fun store => rfl
    | cons first rest ih => exact fun store => ih (store.put first)
  exact general ∅

/-- What a map of the five keys holds of the call's data. -/
def Holds (map : GoMap) (data : List (String × String)) : Prop :=
  ∀ entry ∈ data, GoMap.lookup entry.1 map = some entry.2

theorem createInputs_eq : createInputs call data = (get .configMap call.inputs >>= fun answer =>
    match answer with
    | .error .notFound => create (call.newInputs data) >>= fun answer =>
      match answer with
      | .ok _ => pure (.ok ())
      | .error .alreadyExists => pure (.ok ())
      | .error error => pure (.error { message := "create configmap " ++ call.inputsName, cause := error })
    | .error error => pure (.error { message := "get configmap " ++ call.inputsName, cause := error })
    | .ok existing => update (mergedConfigMap existing call.triggerName data) >>= fun answer =>
      match answer with
      | .ok _ => pure (.ok ())
      | .error error => pure (.error { message := "update configmap " ++ call.inputsName, cause := error })) := rfl

variable (data)

/-- The cluster after the inputs were written, or were not. -/
def afterInputs (cluster : Cluster) : Cluster :=
  if weather.fate (inputsRequest call) = .served then
    match cluster.find .configMap call.inputs with
    | none => (weather.serve cluster (creation call data)).2
    | some existing => (weather.serve cluster (merging call data existing)).2
  else cluster

theorem createInputs_run (cluster : Cluster) :
    ((createInputs call data).run weather.serve cluster).2 = afterInputs weather call data cluster := by
  have unchanged : (weather.serve cluster (.get .configMap call.inputs)).2 = cluster := serve_reads rfl
  rw [createInputs_eq, get_bind, Program.run_call, unchanged, afterInputs]
  by_cases served : weather.fate (inputsRequest call) = .served
  · have answered : (weather.serve cluster (.get .configMap call.inputs)).1 =
        (perform _ _ cluster (.get .configMap call.inputs)).1 := congrArg Prod.fst (serve_served served)
    rw [if_pos served, answered, perform]
    cases cluster.find .configMap call.inputs with
    | none =>
      change ((create (call.newInputs data) >>= _ : ApiProgram _).run weather.serve cluster).2 = _
      rw [create_bind, Program.run_call]
      split <;> rfl
    | some existing =>
      change ((update (mergedConfigMap existing call.triggerName data) >>= _ : ApiProgram _).run weather.serve
        cluster).2 = _
      rw [update_bind, Program.run_call]
      split <;> rfl
  · obtain ⟨message, answered⟩ := weather.serve_failed cluster (inputsRequest call) served
    have error : (weather.serve cluster (.get .configMap call.inputs)).1 = .error (.other message) := answered
    rw [if_neg served, error]
    rfl

variable {weather call data}

theorem key_newInputs : (call.newInputs data).key = call.inputs := rfl

theorem newInputs_named : (call.newInputs data).metadata.name ≠ "" := inputsName_ne_empty call

theorem serve_creation_free {cluster : Cluster} (alone : weather.rival = none)
    (performed : ∀ message, weather.fate (creation call data) ≠ .refused message)
    (free : cluster.find .configMap call.inputs = none) :
    inputsData call (weather.serve cluster (creation call data)).2 = some (GoMap.ofList data) := by
  have named := inputsName_ne_empty call
  have met : weather.before cluster (creation call data) = cluster := by simp [Weather.before, creation, alone]
  have key (uid : String) (time : Time) : (born uid time (call.newInputs data)).key = call.inputs := key_born named
  have after : ∃ uid time, (weather.serve cluster (creation call data)).2 =
      cluster.write (born uid time (call.newInputs data)) := by
    refine ⟨(weather.circumstance (creation call data)).uid, (weather.circumstance (creation call data)).time, ?_⟩
    rw [Weather.serve, met, serve_performed performed]
    exact congrArg Prod.snd (perform_create ((key _ _).symm ▸ free))
  obtain ⟨uid, time, after⟩ := after
  rw [after, inputsData, ← key uid time, find_write_self _ _ (released_born uid time _)]
  rfl

/-- What a rival has created stays. -/
theorem serve_rival {cluster : Cluster} {object : ConfigMap} {rival : GoMap} (other : weather.rival = some rival)
    (named : object.metadata.name ≠ "") (free : cluster.find .configMap object.key = none) :
    ((weather.serve cluster (.create .configMap object)).2.find .configMap object.key).map
      (fun stored => stored.content.data) = some rival := by
  have key : (born "" 0 (Weather.rivalConfigMap object rival)).key = object.key := by
    exact key_born named
  have met : weather.before cluster (.create .configMap object) =
      cluster.write (born "" 0 (Weather.rivalConfigMap object rival)) := by
    simp only [Weather.before, other]
    rw [perform_create (key.symm ▸ free)]
  have occupied : (cluster.write (born "" 0 (Weather.rivalConfigMap object rival))).find .configMap object.key =
      some (stamp (cluster.revision + 1) (born "" 0 (Weather.rivalConfigMap object rival))) := by
    rw [← key]
    exact find_write_self _ _ (released_born "" 0 _)
  rw [Weather.serve, met, serve_create_taken named occupied, occupied]
  rfl

theorem serve_creation_refused {cluster : Cluster} {message : String} (alone : weather.rival = none)
    (refused : weather.fate (creation call data) = .refused message) :
    (weather.serve cluster (creation call data)).2 = cluster := by
  have met : weather.before cluster (creation call data) = cluster := by simp [Weather.before, creation, alone]
  rw [Weather.serve, met, serve_refused refused]

theorem serve_merging {cluster : Cluster} {existing : ConfigMap} (settled : Settled cluster)
    (found : cluster.find .configMap call.inputs = some existing)
    (performed : ∀ message, weather.fate (merging call data existing) ≠ .refused message) :
    inputsData call (weather.serve cluster (merging call data existing)).2 =
      some (data.foldl (fun map (key, value) => GoMap.set key value map) existing.content.data) := by
  have own : existing.key = call.inputs := Keyed.key_of_find? found
  have key : (mergedConfigMap existing call.triggerName data).key = call.inputs := own
  have settles : released existing = false := settled _ _ _ found
  have stays : released (kept existing (mergedConfigMap existing call.triggerName data)) = false := settles
  have after : (weather.serve cluster (merging call data existing)).2 =
      cluster.write (kept existing (mergedConfigMap existing call.triggerName data)) := by
    have met : weather.before cluster (merging call data existing) = cluster := rfl
    have stored : cluster.find .configMap (mergedConfigMap existing call.triggerName data).key = some existing := by
      rw [key]
      exact found
    rw [Weather.serve, met, serve_performed performed]
    exact congrArg Prod.snd (perform_update stored rfl)
  rw [after, inputsData, ← key, ← key_kept existing (mergedConfigMap existing call.triggerName data),
    find_write_self _ _ stays]
  rfl

theorem afterInputs_written {cluster : Cluster} (settled : Settled cluster) (distinct : (data.map Prod.fst).Nodup)
    (written : Written weather call data cluster) :
    ∃ map, inputsData call (afterInputs weather call data cluster) = some map ∧ Holds map data := by
  obtain ⟨served, performed⟩ := written
  rw [afterInputs, if_pos served]
  cases found : cluster.find .configMap call.inputs with
  | none =>
    rw [found] at performed
    refine ⟨_, serve_creation_free performed.1 performed.2 found, ?_⟩
    intro entry member
    rw [ofList_eq_fold]
    exact lookup_fold distinct member _
  | some existing =>
    rw [found] at performed
    exact ⟨_, serve_merging settled found performed, fun entry member => lookup_fold distinct member _⟩

theorem afterInputs_standing {cluster : Cluster} (left : ¬ Written weather call data cluster) :
    inputsData call (afterInputs weather call data cluster) = standing weather call cluster := by
  by_cases served : weather.fate (inputsRequest call) = .served
  · rw [afterInputs, if_pos served, standing, if_pos served]
    cases found : cluster.find .configMap call.inputs with
    | none =>
      cases other : weather.rival with
      | none =>
        have refused : ∃ message, weather.fate (creation call data) = .refused message := by
          by_contra performed
          push Not at performed
          exact left ⟨served, by rw [found]; exact ⟨other, performed⟩⟩
        obtain ⟨message, refused⟩ := refused
        simp only [serve_creation_refused other refused, inputsData, found, Option.map_none]
      | some rival =>
        have free : cluster.find .configMap (call.newInputs data).key = none := found
        have stored := serve_rival other newInputs_named free
        rw [key_newInputs] at stored
        exact stored
    | some existing =>
      have refused : ∃ message, weather.fate (merging call data existing) = .refused message := by
        by_contra performed
        push Not at performed
        exact left ⟨served, by rw [found]; exact performed⟩
      obtain ⟨message, refused⟩ := refused
      have unchanged : (weather.serve cluster (merging call data existing)).2 = cluster := serve_refused refused
      simp only [unchanged, inputsData, found, Option.map_some]
  · rw [afterInputs, if_neg served, standing, if_neg served, inputsData]
    cases cluster.find .configMap call.inputs <;> rfl

end Launch

/-! What the rest of the call leaves alone. -/

theorem Weather.before_of_writes {weather : Weather} {cluster : Cluster} {request : Request}
    (spares : request.writes ≠ some .configMap) : weather.before cluster request = cluster := by
  unfold Weather.before
  split
  · exact absurd rfl spares
  · rfl

theorem Weather.find_serve {weather : Weather} {cluster : Cluster} {request : Request} {kind : Kind}
    (spares : request.writes ≠ some kind) (key : Key) :
    (weather.serve cluster request).2.find kind key = cluster.find kind key := by
  rw [Weather.serve, find_serve_of_writes spares]
  by_cases configMap : request.writes = some .configMap
  · have arrived (object : ConfigMap) : (Kubernetes.serve { fate := .served, uid := "", time := 0 } cluster
        (.create .configMap object)).2.find kind key = cluster.find kind key := by
      have other : (Request.create .configMap object).writes ≠ some kind := fun same => spares (configMap.trans same)
      exact find_serve_of_writes other key
    unfold Weather.before
    split
    · split
      · rfl
      · exact arrived _
    · rfl
  · rw [Weather.before_of_writes configMap]

/-- A program that writes no object of a kind finds and leaves them as they are. -/
theorem find_run {α : Type} {weather : Weather} {program : ApiProgram α} {kind : Kind}
    (spares : program.Uses fun request : Request => request.writes ≠ some kind) (cluster : Cluster) (key : Key) :
    (program.run weather.serve cluster).2.find kind key = cluster.find kind key := by
  let same (now : Cluster) : Prop := now.find kind key = cluster.find kind key
  have kept : ∀ now (request : Request), request.writes ≠ some kind → same now → same (weather.serve now request).2 :=
    fun _ _ allowed now => (Weather.find_serve allowed key).trans now
  have start : same cluster := rfl
  exact spares.run weather.serve kept start

section Finish
variable (weather : Weather) (call : Call)

def Call.job : Job :=
  call.watcher.postprocessJob call.ns call.triggerName call.triggerKind call.triggerUID

def jobCreation : Request := .create .job call.job

/-- The end of the call. -/
def finish : ApiProgram (Except PostprocessError String) := create call.job >>= fun answer =>
  match answer with
  | .ok created => ownDataConfigMap created call.inputsName >>= fun _ => pure (.ok call.postprocessName)
  | .error .alreadyExists => pure (.ok call.postprocessName)
  | .error error => pure (.error (.wrapped { message := "create postprocess job", cause := error }))

def ensureKey : ApiProgram (Except ApiError Unit) :=
  call.watcher.ensureCompiledSigningKey (compiledSigningKeySecretName call.ns)

theorem launch_eq : call.launch =
    (call.watcher.buildPostprocessInputs call.ns (configMapName call.triggerName) call.pods call.jobResults >>=
      fun inputs => createInputs call (aggregateData call.watcher.codec inputs call.annotations) >>=
        fun _ => ensureKey call >>= fun _ => finish call) := rfl

/-- The cluster in which the Job is created. -/
def ready (cluster : Cluster) : Cluster :=
  ((ensureKey call).run weather.serve (afterInputs weather call (call.seen weather cluster) cluster)).2

theorem launch_run (cluster : Cluster) :
    call.launch.run weather.serve cluster = (finish call).run weather.serve (ready weather call cluster) := by
  rw [launch_eq, Program.run_bind, buildPostprocessInputs_run, Program.run_bind, createInputs_run, Program.run_bind]
  rfl

theorem ensureKey_uses : (ensureKey call).Uses fun request : Request =>
    request.writes = none ∨ request.writes = some .secret :=
  (ensureCompiledSigningKey_uses _ _).mono fun request only => by
    rcases only with reads | ⟨secret, rfl⟩
    · exact Or.inl reads
    · exact Or.inr rfl

theorem createInputs_uses (data : List (String × String)) : (createInputs call data).Uses fun request : Request =>
    request.writes = none ∨ request.writes = some .configMap :=
  (createDataConfigMap_uses _ _ _ _).mono fun request only => by
    rcases only with reads | rfl | ⟨cm, rfl⟩
    · exact Or.inl reads
    · exact Or.inr rfl
    · exact Or.inr rfl

theorem find_ready_job (cluster : Cluster) (key : Key) :
    (ready weather call cluster).find .job key = cluster.find .job key := by
  have first : (createInputs call (call.seen weather cluster)).Uses fun request : Request =>
      request.writes ≠ some .job :=
    (createInputs_uses call _).mono fun request writes => by rcases writes with none | some <;> simp_all
  have second : (ensureKey call).Uses fun request : Request => request.writes ≠ some .job :=
    (ensureKey_uses call).mono fun request writes => by rcases writes with none | some <;> simp_all
  rw [ready, find_run second, ← createInputs_run, find_run first]

theorem inputsData_ready (cluster : Cluster) : inputsData call (ready weather call cluster) =
    inputsData call (afterInputs weather call (call.seen weather cluster) cluster) := by
  have spares : (ensureKey call).Uses fun request : Request => request.writes ≠ some .configMap :=
    (ensureKey_uses call).mono fun request writes => by rcases writes with none | some <;> simp_all
  rw [inputsData, ready, find_run spares]
  rfl

theorem settled_ready {cluster : Cluster} (settled : Settled cluster) : Settled (ready weather call cluster) := by
  rw [ready, ← createInputs_run]
  exact (settled.run _).run _

/-! How the call ends. -/

theorem postprocessName_ne_empty : call.postprocessName ≠ "" := by
  intro empty
  have length := congrArg String.length empty
  have suffix : postprocessSuffix.length = 18 := by decide
  simp [Call.postprocessName, postprocessJobName, suffix] at length

theorem job_named : call.job.metadata.name ≠ "" := postprocessName_ne_empty call

theorem triggerUID_job : GoMap.get annotationPostprocessTriggerUID call.job.metadata.annotations = call.triggerUID := by
  have kindKey : annotationPostprocessTriggerKind ≠ annotationPostprocessTriggerUID := by decide
  simp [Call.job, Watcher.postprocessJob, GoMap.ofList, Keyed.ofList, Keyed.putAll, GoMap.get, GoMap.lookup,
    Keyed.find?_put]

/-- The Job that the call creates, as it is stored. -/
def Call.created (cluster : Cluster) : Job :=
  stamp (cluster.revision + 1)
    (born (weather.circumstance (jobCreation call)).uid (weather.circumstance (jobCreation call)).time call.job)

/-- The cluster just after the call's Job was created. -/
def Call.launched (cluster : Cluster) : Cluster :=
  cluster.write (born (weather.circumstance (jobCreation call)).uid (weather.circumstance (jobCreation call)).time
    call.job)

variable {weather call}

theorem serve_jobCreation_free {cluster : Cluster} (served : weather.fate (jobCreation call) = .served)
    (free : cluster.find .job call.slot = none) :
    weather.serve cluster (jobCreation call) =
      (.ok (call.created weather cluster), call.launched weather cluster) := by
  have key (uid : String) (time : Time) : (born uid time call.job).key = call.slot := key_born (job_named call)
  have met : weather.before cluster (jobCreation call) = cluster := rfl
  rw [Weather.serve, met, serve_served served]
  unfold jobCreation
  rw [perform_create ((key _ _).symm ▸ free)]
  rfl

theorem serve_jobCreation_taken {cluster : Cluster} {job : Job} (served : weather.fate (jobCreation call) = .served)
    (occupied : cluster.find .job call.slot = some job) :
    weather.serve cluster (jobCreation call) = (.error .alreadyExists, cluster) := by
  have key (uid : String) (time : Time) : (born uid time call.job).key = call.slot := key_born (job_named call)
  have met : weather.before cluster (jobCreation call) = cluster := rfl
  rw [Weather.serve, met, serve_served served]
  unfold jobCreation
  rw [perform_create_taken ((key _ _).symm ▸ occupied)]

theorem inputsData_setOwner {cluster : Cluster} (settled : Settled cluster) (key : Key) (owner : OwnerReference) :
    inputsData call (weather.serve cluster (.patch .configMap key (.setOwner owner))).2 = inputsData call cluster := by
  generalize after : (weather.serve cluster (.patch .configMap key (.setOwner owner))).2 = next
  have effect := serve_effect (weather.circumstance (.patch .configMap key (.setOwner owner))) cluster
    (.patch .configMap key (.setOwner owner))
  have met : (Kubernetes.serve (weather.circumstance (.patch .configMap key (.setOwner owner))) cluster
    (.patch .configMap key (.setOwner owner))).2 = next := after
  rw [met] at effect
  cases effect with
  | unchanged => rfl
  | patched kind key change old found =>
    have settles : released old = false := settled _ _ _ found
    have stays : released (patched (.setOwner owner) old) = false := settles
    have own : old.key = key := Keyed.key_of_find? found
    unfold inputsData
    by_cases here : key = call.inputs
    · have written := find_write_self cluster (patched (.setOwner owner) old) stays
      rw [key_patched, own, here] at written
      rw [written, ← here, found]
      rfl
    · rw [find_write_of_key cluster (by rw [key_patched, own]; exact here)]

theorem finish_created {cluster : Cluster} (served : weather.fate (jobCreation call) = .served)
    (free : cluster.find .job call.slot = none) :
    (finish call).run weather.serve cluster = (.ok call.postprocessName,
      ((ownDataConfigMap (call.created weather cluster) call.inputsName).run weather.serve
        (call.launched weather cluster)).2) := by
  have answered := serve_jobCreation_free served free
  unfold jobCreation at answered
  rw [finish, create_bind, Program.run_call, answered]
  change (ownDataConfigMap _ _ >>= fun _ => pure _ : ApiProgram _).run weather.serve _ = _
  rw [Program.run_bind]
  rfl

theorem find_launched (cluster : Cluster) :
    (call.launched weather cluster).find .job call.slot = some (call.created weather cluster) := by
  have key (uid : String) (time : Time) : (born uid time call.job).key = call.slot := key_born (job_named call)
  rw [Call.launched, ← key (weather.circumstance (jobCreation call)).uid (weather.circumstance (jobCreation call)).time]
  exact find_write_self _ _ (released_born _ _ _)

/-- The Job is there when the call is over. -/
theorem finish_created_job {cluster : Cluster} (served : weather.fate (jobCreation call) = .served)
    (free : cluster.find .job call.slot = none) :
    ((finish call).run weather.serve cluster).2.find .job call.slot = some (call.created weather cluster) := by
  have spares : (ownDataConfigMap (call.created weather cluster) call.inputsName).Uses fun request : Request =>
      request.writes ≠ some .job :=
    (ownDataConfigMap_uses _ _).mono fun request writes => by
      obtain ⟨key, change, rfl⟩ := writes
      simp [Request.writes]
  rw [finish_created served free, find_run spares, find_launched]

/-- Making the Job the inputs' owner does not change their data. -/
theorem finish_created_inputs {cluster : Cluster} (settled : Settled cluster)
    (served : weather.fate (jobCreation call) = .served) (free : cluster.find .job call.slot = none) :
    inputsData call ((finish call).run weather.serve cluster).2 = inputsData call cluster := by
  let same (now : Cluster) : Prop := Settled now ∧ inputsData call now = inputsData call cluster
  have kept : ∀ now (request : Request), (∃ key change, request = .patch .configMap key (.setOwner change)) →
      same now → same (weather.serve now request).2 := by
    rintro now request ⟨key, change, rfl⟩ ⟨still, data⟩
    exact ⟨still.serve _, (inputsData_setOwner still key change).trans data⟩
  have start : same (call.launched weather cluster) := by
    refine ⟨settled_write settled _, ?_⟩
    rw [inputsData, Call.launched, find_write_of_kind _ _ (by decide)]
    rfl
  rw [finish_created served free]
  exact ((ownDataConfigMap_uses _ _).run weather.serve kept start).2

theorem finish_taken {cluster : Cluster} {job : Job} (served : weather.fate (jobCreation call) = .served)
    (occupied : cluster.find .job call.slot = some job) :
    (finish call).run weather.serve cluster = (.ok call.postprocessName, cluster) := by
  rw [finish, create_bind, Program.run_call]
  have answered := serve_jobCreation_taken served occupied
  unfold jobCreation at answered
  rw [answered]
  rfl

theorem finish_failed {cluster : Cluster} (failing : weather.fate (jobCreation call) ≠ .served) :
    ∃ error, ((finish call).run weather.serve cluster).1 = .error error := by
  obtain ⟨message, answered⟩ := weather.serve_failed cluster (jobCreation call) failing
  have error : (weather.serve cluster (jobCreation call)).1 = .error (.other message) := answered
  unfold jobCreation at error
  rw [finish, create_bind, Program.run_call, error]
  exact ⟨_, rfl⟩

end Finish

/-! The requests of the launch. -/

section Requests
variable (weather : Weather) (call : Call)

theorem buildInputs_uses : (call.watcher.buildPostprocessInputs call.ns (configMapName call.triggerName) call.pods
    call.jobResults).Uses fun request : Request => request.writes = none :=
  buildPostprocessInputs_uses _ _ _ _ _

theorem launch_served (cluster : Cluster) : call.launch.served weather.serve cluster =
    (call.watcher.buildPostprocessInputs call.ns (configMapName call.triggerName) call.pods call.jobResults).served
        weather.serve cluster ++
      ((createInputs call (call.seen weather cluster)).served weather.serve cluster ++
        ((ensureKey call).served weather.serve (afterInputs weather call (call.seen weather cluster) cluster) ++
          (finish call).served weather.serve (ready weather call cluster))) := by
  rw [launch_eq, Program.served_bind, buildPostprocessInputs_run, Program.served_bind, createInputs_run,
    Program.served_bind]
  rfl

theorem createInputs_served (data : List (String × String)) (cluster : Cluster) :
    (createInputs call data).served weather.serve cluster =
      ⟨cluster, inputsRequest call, (weather.serve cluster (inputsRequest call)).1⟩ ::
        if weather.fate (inputsRequest call) = .served then
          match cluster.find .configMap call.inputs with
          | none => [⟨cluster, creation call data, (weather.serve cluster (creation call data)).1⟩]
          | some existing =>
            [⟨cluster, merging call data existing, (weather.serve cluster (merging call data existing)).1⟩]
        else [] := by
  have unchanged : (weather.serve cluster (.get .configMap call.inputs)).2 = cluster := serve_reads rfl
  rw [createInputs_eq, get_bind, Program.served_call, unchanged]
  refine congrArg (List.cons _) ?_
  by_cases served : weather.fate (inputsRequest call) = .served
  · have answered : (weather.serve cluster (.get .configMap call.inputs)).1 =
        (perform _ _ cluster (.get .configMap call.inputs)).1 := congrArg Prod.fst (serve_served served)
    rw [if_pos served, answered, perform]
    cases cluster.find .configMap call.inputs with
    | none =>
      change (create (call.newInputs data) >>= _ : ApiProgram _).served weather.serve cluster = _
      rw [create_bind, Program.served_call]
      refine congrArg (List.cons _) ?_
      split <;> rfl
    | some existing =>
      change (update (mergedConfigMap existing call.triggerName data) >>= _ : ApiProgram _).served weather.serve
        cluster = _
      rw [update_bind, Program.served_call]
      refine congrArg (List.cons _) ?_
      split <;> rfl
  · obtain ⟨message, answered⟩ := weather.serve_failed cluster (inputsRequest call) served
    have error : (weather.serve cluster (.get .configMap call.inputs)).1 = .error (.other message) := answered
    rw [if_neg served, error]
    rfl

theorem ownDataConfigMap_served (owner : Job) (cluster : Cluster) :
    ∀ entry ∈ (ownDataConfigMap owner call.inputsName).served weather.serve cluster, entry.before = cluster := by
  unfold ownDataConfigMap
  split
  · simp
  · rw [patch_bind, Program.served_call]
    intro entry member
    obtain rfl := List.mem_singleton.mp member
    rfl

theorem finish_served (cluster : Cluster) : (finish call).served weather.serve cluster =
    ⟨cluster, jobCreation call, (weather.serve cluster (jobCreation call)).1⟩ ::
      match (weather.serve cluster (jobCreation call)).1 with
      | .ok created =>
        (ownDataConfigMap created call.inputsName).served weather.serve (weather.serve cluster (jobCreation call)).2
      | .error _ => [] := by
  unfold jobCreation
  rw [finish, create_bind, Program.served_call]
  refine congrArg (List.cons _) ?_
  split
  · rw [Program.served_bind, Program.pure_eq, Program.served_done, List.append_nil]
    rename_i answer
    rw [answer]
  · rename_i answer
    rw [answer]
    rfl
  · rename_i answer
    rw [answer]
    rfl

end Requests

/-! The call as a whole. -/

section Whole
variable (weather : Weather) (call : Call)

/-- The cluster in which the call builds its inputs, once others have acted. -/
def Call.middle (start : Cluster) : Cluster := weather.meanwhile (call.guard.run weather.serve start).2

def Call.outcome (start : Cluster) : Except PostprocessError String × Cluster :=
  match (call.guard.run weather.serve start).1 with
  | .otherRun => (.error .postprocessBusy, (call.guard.run weather.serve start).2)
  | .sameRun => (.ok call.postprocessName, (call.guard.run weather.serve start).2)
  | .neither => call.launch.run weather.serve (call.middle weather start)

/-- The requests of the call. -/
def Call.trace (start : Cluster) : List (Served ApiServer Cluster) :=
  call.guard.served weather.serve start ++
    match (call.guard.run weather.serve start).1 with
    | .neither => call.launch.served weather.serve (call.middle weather start)
    | _ => []

/-- The guard lets the call go on: it found no Job, a failed one, or could not look. -/
def Call.Passes (start : Cluster) : Prop := weather.fate call.listing = .served → call.occupant start = .neither

theorem guard_neither_iff (start : Cluster) :
    (call.guard.run weather.serve start).1 = .neither ↔ call.Passes weather start := by
  rw [guard_run, Call.Passes]
  split
  · rename_i served
    simp [served]
  · rename_i failing
    simp [failing]

end Whole

/-! A call of a Job `team/train` with one pod, while some requests fail. -/

def exampleCodec : GoJson where
  marshalRaw := fun texts => some ("[" ++ String.intercalate "," texts ++ "]")
  marshalMap := fun _ => "{}"
  unmarshalDatasets := fun _ => none
  unmarshalObject := fun _ => none
  marshalValues := fun _ => none
  marshalDatasets := fun _ => none
  marshalContainers := fun _ => "[]"
  formatTime := fun _ => "2026-01-01T00:00:00Z"

def exampleWatcher : Watcher where
  ns := "aibom"
  postprocessImage := "postprocess"
  prometheusURL := ""
  debugKeepPostprocessJobs := false
  debugTelemetryAllPods := false
  registryLabelLookup := false
  codec := exampleCodec

def examplePod : Pod where
  metadata := { name := "train-0", ns := "team", uid := "pod-1" }
  content := { spec := { containers := [{ name := "main" }] } }

def exampleCall : Call where
  watcher := exampleWatcher
  ns := "team"
  triggerName := "train"
  triggerKind := "Job"
  triggerUID := "job-1"
  pods := [examplePod]
  annotations := ∅
  jobResults := none

/-- Every request is served, but for those of a kind of request. -/
def failing (fails : Request → Bool) : Weather where
  circumstance := fun request =>
    { fate := if fails request then .refused "timeout" else .served, uid := "uid", time := 0 }
  meanwhile := id
  settled := fun _ settled => settled
  rival := none

end AibomWebhook.Creation
