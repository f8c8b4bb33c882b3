import AibomWebhook.Creation
import AibomWebhook.FirstWins
import AibomWebhook.PayloadIsolation

/-! Whether a postprocess Job is only launched over the inputs of its own run. Three
steps of `createPostprocessJobCore` log an error and go on, and an inputs ConfigMap
that somebody else has just created is left as it is. -/

namespace AibomWebhook.PostprocessInputs
open Aibomdata Creation DatasetFiles FirstWins JsonText Kubernetes Objects Postprocess PostprocessData Requests Writes

/-! The entries of the pods. -/

def payloadOf (dataCM : Option ConfigMap) (kind : DataKind) (pod : Pod) : String := (extractDataFromPod kind pod dataCM).1

/-- A pod's entry verifies, if there is a key. -/
def verifies (dataCM : Option ConfigMap) (key : Option Sha256.Bytes) (kind : DataKind) (pod : Pod) : Bool :=
  key.all fun signingKey =>
    verifySignature signingKey (extractDataFromPod kind pod dataCM).1 (extractDataFromPod kind pod dataCM).2

def counts (dataCM : Option ConfigMap) (key : Option Sha256.Bytes) (kind : DataKind) (pod : Pod) : Bool :=
  payloadOf dataCM kind pod ≠ "" && verifies dataCM key kind pod

/-- The entries of a kind that pods have in a ConfigMap and that verify. -/
def entriesIn (dataCM : Option ConfigMap) (key : Option Sha256.Bytes) (kind : DataKind) (pods : List Pod) : List String :=
  (pods.filter (counts dataCM key kind)).map (payloadOf dataCM kind)

section Entries
variable (call : Call) (cluster : Cluster)

def keySecretName : DataKind → String
  | .dataset => datasetSigningKeySecretName
  | _ => discoverySigningKeySecretName

def keyDataKey : DataKind → String
  | .dataset => datasetSigningKeyDataKey
  | _ => discoverySigningKeyDataKey

/-- The data ConfigMap of the workload. -/
def storedData : Option ConfigMap := cluster.find .configMap (call.ns, configMapName call.triggerName)

def verificationKey (kind : DataKind) : Option Sha256.Bytes :=
  storedKey cluster call.ns (keySecretName kind) (keyDataKey kind)

/-- The entries that are present and pass verification. -/
def acceptedEntries (kind : DataKind) (pods : List Pod) : List String :=
  entriesIn (storedData call cluster) (verificationKey call cluster kind) kind pods

/-- The entries that the call takes, as it reads the ConfigMap and the key. -/
def takenEntries (weather : Weather) (kind : DataKind) (pods : List Pod) : List String :=
  entriesIn (readable weather (dataConfigMapRequest call) (storedData call cluster))
    (readable weather (signingKeyRequest call.ns (keySecretName kind)) (verificationKey call cluster kind)) kind pods

/-- The five keys hold what the pods have stored, entry by entry, and what was gathered of the run. -/
structure Merged (data : GoMap) : Prop where
  discovery : ∃ text values, GoMap.lookup "discovery.json" data = some text ∧ meaning text = some (.array values) ∧
    (acceptedEntries call cluster .discovery call.pods).map meaning = values.map some
  files : ∀ entry ∈ acceptedEntries call cluster .dataset call.pods, (call.watcher.codec.unmarshalDatasets entry).isSome = true
  datasets : ∃ text file, GoMap.lookup "dataset.json" data = some text ∧
    call.watcher.codec.unmarshalDatasets text = some file ∧
    HoldsFirst call.watcher.codec (acceptedEntries call cluster .dataset (ranked call.pods)) file
  annotations : GoMap.lookup "annotations.json" data = some (call.watcher.codec.marshalMap call.annotations)
  containers : GoMap.lookup "containers.json" data = some (call.watcher.codec.marshalContainers (call.pods.flatMap fun pod =>
    pod.spec.containers.map (containerInfo call.watcher.codec call.jobResults pod)))
  storage : ∀ entry ∈ acceptedEntries call cluster .storage call.pods, GoMap.lookup "storage.json" data = some entry
  noStorage : acceptedEntries call cluster .storage call.pods = [] → GoMap.lookup "storage.json" data = some "{}"

end Entries

section Property
variable (weather : Weather) (call : Call) (start : Cluster)

/-- Whether a request has created a Job. -/
def createsJob : Served ApiServer Cluster → Bool
  | ⟨_, .create .job _, .ok _⟩ => true
  | _ => false

abbrev CreatesJob (entry : Served ApiServer Cluster) : Prop := createsJob entry = true

/-- A call that succeeds having created a Job leaves the inputs of its run behind. -/
def InputsHold : Prop :=
  ∀ name, (call.outcome weather start).1 = .ok name → (∃ entry ∈ call.trace weather start, CreatesJob entry) →
    ∃ inputs, (call.outcome weather start).2.find .configMap call.inputs = some inputs ∧
      Merged call (call.middle weather start) inputs.content.data

/-- The call comes to create its Job. -/
structure Creates : Prop where
  passes : call.Passes weather start
  served : weather.fate (jobCreation call) = .served
  free : (call.middle weather start).find .job call.slot = none

/-- What the pods have stored can be merged: discoveries that are JSON, dataset files, and no two storages. -/
structure Mergeable (cluster : Cluster) : Prop where
  discovery : ∀ entry ∈ acceptedEntries call cluster .discovery call.pods, (read entry).isSome = true
  files : ∀ entry ∈ acceptedEntries call cluster .dataset call.pods, (call.watcher.codec.unmarshalDatasets entry).isSome = true
  storage : ∀ entry ∈ acceptedEntries call cluster .storage call.pods,
    ∀ other ∈ acceptedEntries call cluster .storage call.pods, entry = other

/-- What the pods have stored can be merged, no failed reading conceals it, and what the call writes gets into the inputs
ConfigMap. -/
structure Sound (cluster : Cluster) : Prop where
  mergeable : Mergeable call cluster
  data : weather.fate (dataConfigMapRequest call) = .served ∨ ∀ kind, acceptedEntries call cluster kind call.pods = []
  keys : ∀ kind, weather.fate (signingKeyRequest call.ns (keySecretName kind)) = .served ∨
    ∀ pod ∈ call.pods, payloadOf (storedData call cluster) kind pod ≠ "" →
      verifies (storedData call cluster) (verificationKey call cluster kind) kind pod = true
  written : Written weather call (call.seen weather cluster) cluster

/-- What a run needs when nothing but its own write can fill the inputs ConfigMap. -/
structure Needed (cluster : Cluster) : Prop where
  mergeable : Mergeable call cluster
  data : weather.fate (dataConfigMapRequest call) = .served ∨ acceptedEntries call cluster .discovery call.pods = []
  key : weather.fate (signingKeyRequest call.ns (keySecretName .discovery)) = .served ∨
    (∀ pod ∈ call.pods, payloadOf (storedData call cluster) .discovery pod ≠ "" →
      verifies (storedData call cluster) (verificationKey call cluster .discovery) .discovery pod = true) ∨
    acceptedEntries call cluster .discovery call.pods = []
  written : Written weather call (call.seen weather cluster) cluster

variable {weather call start}

theorem createsJob_writes {entry : Served ApiServer Cluster} (creates : CreatesJob entry) :
    Request.writes entry.request = some .job := by
  unfold CreatesJob createsJob at creates
  split at creates
  · rfl
  · exact absurd creates Bool.false_ne_true

theorem guard_creates_nothing : ¬ ∃ entry ∈ call.guard.served weather.serve start, CreatesJob entry := by
  rintro ⟨entry, member, creates⟩
  rw [guard_served] at member
  rcases List.mem_cons.mp member with rfl | member
  · exact absurd creates Bool.false_ne_true
  · split at member
    · rcases List.mem_cons.mp member with rfl | member
      · exact absurd creates Bool.false_ne_true
      · obtain rfl := List.mem_singleton.mp member
        exact absurd creates Bool.false_ne_true
    · simp at member

/-- Of the launch only its last part can create the Job. -/
theorem launch_creates_iff (cluster : Cluster) : (∃ entry ∈ call.launch.served weather.serve cluster, CreatesJob entry) ↔
    ∃ entry ∈ (finish call).served weather.serve (ready weather call cluster), CreatesJob entry := by
  have reads : ∀ entry ∈ (call.watcher.buildPostprocessInputs call.ns (Aibomdata.configMapName call.triggerName) call.pods
      call.jobResults).served weather.serve cluster, ¬ CreatesJob entry := by
    intro entry member creates
    have writes := (buildInputs_uses call).served weather.serve cluster entry member
    rw [createsJob_writes creates] at writes
    exact absurd writes (by simp)
  have configMaps : ∀ entry ∈ (createInputs call (call.seen weather cluster)).served weather.serve cluster,
      ¬ CreatesJob entry := by
    intro entry member creates
    have writes := (createInputs_uses call _).served weather.serve cluster entry member
    rw [createsJob_writes creates] at writes
    exact absurd writes (by simp)
  have secrets : ∀ entry ∈ (ensureKey call).served weather.serve
      (afterInputs weather call (call.seen weather cluster) cluster), ¬ CreatesJob entry := by
    intro entry member creates
    have writes := (ensureKey_uses call).served weather.serve _ entry member
    rw [createsJob_writes creates] at writes
    exact absurd writes (by simp)
  rw [launch_served]
  constructor
  · rintro ⟨entry, member, creates⟩
    rw [List.mem_append, List.mem_append, List.mem_append] at member
    rcases member with first | second | third | last
    · exact absurd creates (reads entry first)
    · exact absurd creates (configMaps entry second)
    · exact absurd creates (secrets entry third)
    · exact ⟨entry, last, creates⟩
  · rintro ⟨entry, member, creates⟩
    exact ⟨entry, by simp [member], creates⟩

theorem finish_creates_iff (cluster : Cluster) :
    (∃ entry ∈ (finish call).served weather.serve cluster, CreatesJob entry) ↔
      weather.fate (jobCreation call) = .served ∧ cluster.find .job call.slot = none := by
  rw [finish_served]
  constructor
  · rintro ⟨entry, member, creates⟩
    have answer : CreatesJob ⟨cluster, jobCreation call, (weather.serve cluster (jobCreation call)).1⟩ := by
      rcases List.mem_cons.mp member with rfl | later
      · exact creates
      · split at later
        · obtain ⟨key, change, request⟩ := (ownDataConfigMap_uses _ _).served weather.serve _ entry later
          have writes := createsJob_writes creates
          rw [request] at writes
          exact absurd writes (by simp [Request.writes])
        · simp at later
    by_cases served : weather.fate (jobCreation call) = .served
    · refine ⟨served, ?_⟩
      cases occupied : cluster.find .job call.slot with
      | none => rfl
      | some job =>
        rw [serve_jobCreation_taken served occupied] at answer
        exact absurd answer Bool.false_ne_true
    · obtain ⟨message, failing⟩ := weather.serve_failed cluster (jobCreation call) served
      rw [failing] at answer
      exact absurd answer Bool.false_ne_true
  · rintro ⟨served, free⟩
    refine ⟨_, List.mem_cons_self, ?_⟩
    rw [serve_jobCreation_free served free]
    rfl

/-- The call succeeds having created a Job exactly when it comes to create one. -/
theorem creates_iff : Creates weather call start ↔
    (∃ name, (call.outcome weather start).1 = .ok name) ∧ ∃ entry ∈ call.trace weather start, CreatesJob entry := by
  have inGuard : ¬ ∃ entry ∈ call.guard.served weather.serve start, CreatesJob entry := guard_creates_nothing
  cases occupant : (call.guard.run weather.serve start).1 with
  | otherRun =>
    have stops : ¬ call.Passes weather start := by rw [← guard_neither_iff, occupant]; simp
    simp only [Call.outcome, Call.trace, occupant, List.append_nil]
    exact iff_of_false (fun creates => stops creates.passes) fun both => inGuard both.2
  | sameRun =>
    have stops : ¬ call.Passes weather start := by rw [← guard_neither_iff, occupant]; simp
    simp only [Call.outcome, Call.trace, occupant, List.append_nil]
    exact iff_of_false (fun creates => stops creates.passes) fun both => inGuard both.2
  | neither =>
    have passes : call.Passes weather start := (guard_neither_iff weather call start).mp occupant
    have launch : (∃ entry ∈ call.launch.served weather.serve (call.middle weather start), CreatesJob entry) ↔
        weather.fate (jobCreation call) = .served ∧ (call.middle weather start).find .job call.slot = none := by
      rw [launch_creates_iff, finish_creates_iff, find_ready_job]
    simp only [Call.outcome, Call.trace, occupant]
    constructor
    · rintro ⟨_, served, free⟩
      refine ⟨⟨call.postprocessName, ?_⟩, ?_⟩
      · rw [launch_run, finish_created served (by rw [find_ready_job]; exact free)]
      · obtain ⟨entry, member, creates⟩ := launch.mpr ⟨served, free⟩
        exact ⟨entry, List.mem_append_right _ member, creates⟩
    · rintro ⟨_, entry, member, creates⟩
      rcases List.mem_append.mp member with early | late
      · exact absurd ⟨entry, early, creates⟩ inGuard
      · obtain ⟨served, free⟩ := launch.mp ⟨entry, late, creates⟩
        exact ⟨passes, served, free⟩

/-- What is in the inputs ConfigMap when a call that creates its Job is over. -/
theorem outcome_inputs (settled : Settled start) (creates : Creates weather call start) :
    inputsData call (call.outcome weather start).2 = inputsData call
      (afterInputs weather call (call.seen weather (call.middle weather start)) (call.middle weather start)) := by
  have occupant := (guard_neither_iff weather call start).mpr creates.passes
  have settledMiddle : Settled (call.middle weather start) := weather.settled _ (settled.run _)
  have free : (ready weather call (call.middle weather start)).find .job call.slot = none := by
    rw [find_ready_job]
    exact creates.free
  simp only [Call.outcome, occupant]
  rw [launch_run, finish_created_inputs (settled_ready weather call settledMiddle) creates.served free, inputsData_ready]

end Property

/-! What the call writes of the entries that it takes. -/

section Texts
variable {dataCM : Option ConfigMap} {key : Option Sha256.Bytes} {kind : DataKind} {pods : List Pod}

theorem counts_iff {pod : Pod} : counts dataCM key kind pod = true ↔
    payloadOf dataCM kind pod ≠ "" ∧ verifies dataCM key kind pod = true := by
  rw [counts, Bool.and_eq_true, decide_eq_true_eq]

theorem entriesIn_none : entriesIn none key kind pods = [] := by
  rw [entriesIn, List.map_eq_nil_iff, List.filter_eq_nil_iff]
  exact fun pod _ found => (counts_iff.mp found).1 rfl

theorem ne_empty_of_mem_entriesIn {entry : String} (member : entry ∈ entriesIn dataCM key kind pods) : entry ≠ "" := by
  obtain ⟨pod, inside, rfl⟩ := List.mem_map.mp member
  exact (counts_iff.mp (List.mem_filter.mp inside).2).1

/-- An entry that does not verify counts as none. -/
theorem verifiedData_eq (pod : Pod) : verifiedData key kind pod dataCM =
    if counts dataCM key kind pod = true then payloadOf dataCM kind pod else "" := by
  unfold verifiedData counts verifies payloadOf
  generalize extractDataFromPod kind pod dataCM = found
  obtain ⟨payload, sig⟩ := found
  cases key with
  | none =>
    by_cases empty : payload = ""
    · simp [empty]
    · simp [empty]
  | some signingKey =>
    by_cases empty : payload = ""
    · simp [empty]
    · cases verified : verifySignature signingKey payload sig <;> simp [empty, verified]

theorem filter_verifiedData : (pods.map fun pod => verifiedData key kind pod dataCM).filter (· ≠ "") =
    entriesIn dataCM key kind pods := by
  unfold entriesIn
  induction pods with
  | nil => rfl
  | cons pod rest ih =>
    rw [List.map_cons, verifiedData_eq]
    by_cases counted : counts dataCM key kind pod = true
    · have filled := (counts_iff.mp counted).1
      rw [if_pos counted, List.filter_cons_of_pos (by simpa using filled), ih, List.filter_cons_of_pos counted, List.map_cons]
    · rw [if_neg counted, List.filter_cons_of_neg (by simp), ih, List.filter_cons_of_neg counted]

theorem mergeDatasets_filter (codec : GoJson) (texts : List String) :
    mergeDatasets codec (texts.filter (· ≠ "")) = mergeDatasets codec texts := by
  have files : DatasetMerge.files codec (texts.filter (· ≠ "")) = DatasetMerge.files codec texts := by
    rw [DatasetMerge.files, DatasetMerge.files, List.filterMap_filter]
    refine congrArg (fun test => List.filterMap test texts) (funext fun raw => ?_)
    by_cases empty : raw = "" <;> simp [empty]
  rw [DatasetMerge.mergeDatasets_eq, DatasetMerge.mergeDatasets_eq, files]

def discoveryText (codec : GoJson) (entries : List String) : String :=
  if entries.isEmpty then "[]" else (codec.marshalRaw entries).getD "[]"

theorem merge_eq (call : Call) (dataCM : Option ConfigMap) (key datasetKey : Option Sha256.Bytes) :
    call.merge dataCM key datasetKey =
      [("discovery.json", discoveryText call.watcher.codec (entriesIn dataCM key .discovery call.pods)),
        ("dataset.json", mergeDatasets call.watcher.codec (entriesIn dataCM datasetKey .dataset (ranked call.pods))),
        ("annotations.json", call.watcher.codec.marshalMap call.annotations),
        ("containers.json", call.watcher.codec.marshalContainers (call.pods.flatMap fun pod =>
          pod.spec.containers.map (containerInfo call.watcher.codec call.jobResults pod))),
        ("storage.json", (entriesIn dataCM key .storage call.pods).head?.getD "{}")] := by
  have datasets : mergeDatasets call.watcher.codec ((ranked call.pods).map fun pod => GoMap.get pod.metadata.name
      (some (Keyed.ofList (call.pods.map fun pod => (pod.metadata.name, verifiedData datasetKey .dataset pod dataCM))))) =
      mergeDatasets call.watcher.codec (entriesIn dataCM datasetKey .dataset (ranked call.pods)) := by
    have names : ((ranked call.pods).map fun pod => GoMap.get pod.metadata.name
        (some (Keyed.ofList (call.pods.map fun pod => (pod.metadata.name, verifiedData datasetKey .dataset pod dataCM))))) =
        (ranked call.pods).map fun pod => verifiedData datasetKey .dataset pod dataCM :=
      List.map_congr_left fun pod member => get_byName ((List.mem_insertionSort _).mp member)
    rw [names, ← filter_verifiedData, mergeDatasets_filter]
  have storage : ((call.pods.map fun pod => verifiedData key .storage pod dataCM).find? (· ≠ "")) =
      (entriesIn dataCM key .storage call.pods).head? := by
    rw [← filter_verifiedData, List.head?_filter]
  have filled : (entriesIn dataCM key .storage call.pods).head?.getD "{}" ≠ "" := by
    cases found : (entriesIn dataCM key .storage call.pods).head? with
    | none => decide
    | some entry => exact ne_empty_of_mem_entriesIn (List.mem_of_head? found)
  rw [Call.merge, aggregateData, inputsOf]
  simp only [filter_verifiedData, datasets, storage, if_neg filled]
  rfl

end Texts

section Taken
variable (weather : Weather) (call : Call) (cluster : Cluster)

theorem seen_eq : call.seen weather cluster =
    [("discovery.json", discoveryText call.watcher.codec (takenEntries call cluster weather .discovery call.pods)),
      ("dataset.json", mergeDatasets call.watcher.codec (takenEntries call cluster weather .dataset (ranked call.pods))),
      ("annotations.json", call.watcher.codec.marshalMap call.annotations),
      ("containers.json", call.watcher.codec.marshalContainers (call.pods.flatMap fun pod =>
        pod.spec.containers.map (containerInfo call.watcher.codec call.jobResults pod))),
      ("storage.json", (takenEntries call cluster weather .storage call.pods).head?.getD "{}")] :=
  merge_eq call _ _ _

theorem nodup_seen : ((call.seen weather cluster).map Prod.fst).Nodup := by
  rw [seen_eq]
  show ["discovery.json", "dataset.json", "annotations.json", "containers.json", "storage.json"].Nodup
  decide

variable {weather call cluster}

/-- Where no failed reading conceals what is stored, the call takes what it should. -/
theorem taken_eq_accepted {kind : DataKind} {pods : List Pod} (among : ∀ pod ∈ pods, pod ∈ call.pods)
    (data : weather.fate (dataConfigMapRequest call) = .served ∨ acceptedEntries call cluster kind call.pods = [])
    (keys : weather.fate (signingKeyRequest call.ns (keySecretName kind)) = .served ∨
      ∀ pod ∈ call.pods, payloadOf (storedData call cluster) kind pod ≠ "" →
        verifies (storedData call cluster) (verificationKey call cluster kind) kind pod = true) :
    takenEntries call cluster weather kind pods = acceptedEntries call cluster kind pods := by
  by_cases served : weather.fate (dataConfigMapRequest call) = .served
  · rw [takenEntries, readable, if_pos served]
    by_cases known : weather.fate (signingKeyRequest call.ns (keySecretName kind)) = .served
    · rw [readable, if_pos known]
      rfl
    · have all := keys.resolve_left known
      rw [readable, if_neg known, acceptedEntries, entriesIn, entriesIn]
      refine congrArg _ (List.filter_congr fun pod member => Bool.eq_iff_iff.mpr ?_)
      rw [counts_iff, counts_iff]
      exact ⟨fun present => ⟨present.1, all pod (among pod member) present.1⟩, fun accepted => ⟨accepted.1, rfl⟩⟩
  · have nothing := data.resolve_left served
    rw [takenEntries, readable, if_neg served, entriesIn_none, eq_comm, acceptedEntries, entriesIn, List.map_eq_nil_iff,
      List.filter_eq_nil_iff]
    rw [acceptedEntries, entriesIn, List.map_eq_nil_iff, List.filter_eq_nil_iff] at nothing
    exact fun pod member => nothing pod (among pod member)

theorem mem_taken_of_accepted {kind : DataKind} {pods : List Pod} {entry : String}
    (served : weather.fate (dataConfigMapRequest call) = .served) (member : entry ∈ acceptedEntries call cluster kind pods) :
    entry ∈ takenEntries call cluster weather kind pods := by
  rw [takenEntries, readable, if_pos served, readable]
  split
  · exact member
  · obtain ⟨pod, inside, rfl⟩ := List.mem_map.mp member
    obtain ⟨among, accepted⟩ := List.mem_filter.mp inside
    exact List.mem_map_of_mem (List.mem_filter.mpr ⟨among, counts_iff.mpr ⟨(counts_iff.mp accepted).1, rfl⟩⟩)

/-- As many entries verify as are present only if all of them do. -/
theorem verifies_of_length {kind : DataKind} {dataCM : Option ConfigMap} {key : Option Sha256.Bytes} {pods : List Pod}
    (same : (entriesIn dataCM none kind pods).length = (entriesIn dataCM key kind pods).length) :
    ∀ pod ∈ pods, payloadOf dataCM kind pod ≠ "" → verifies dataCM key kind pod = true := by
  have narrower : pods.filter (counts dataCM key kind) =
      (pods.filter (counts dataCM none kind)).filter (counts dataCM key kind) := by
    rw [List.filter_filter]
    refine List.filter_congr fun pod _ => Bool.eq_iff_iff.mpr ?_
    rw [Bool.and_eq_true, counts_iff, counts_iff]
    exact ⟨fun counted => ⟨counted, counted.1, rfl⟩, fun both => both.1⟩
  rw [entriesIn, entriesIn, List.length_map, List.length_map, narrower, eq_comm, List.length_filter_eq_length_iff] at same
  intro pod member present
  exact (counts_iff.mp (same pod (List.mem_filter.mpr ⟨member, counts_iff.mpr ⟨present, rfl⟩⟩))).2

end Taken

/-! What the texts mean. -/

section Meaning
variable {visit : Visit} {containers : List ContainerInfo → String} {time : Time → String}

/-- The entries are all JSON and written as one array, or one of them is not and none is written. -/
theorem discoveryText_cases (entries : List String) :
    (∀ entry ∈ entries, (read entry).isSome = true) ∧ (∃ values,
      meaning (discoveryText (goJson visit containers time) entries) = some (.array values) ∧
      entries.map meaning = values.map some) ∨
    (∃ entry ∈ entries, read entry = none) ∧ discoveryText (goJson visit containers time) entries = "[]" := by
  have marshal : (goJson visit containers time).marshalRaw entries = marshalRaw entries := rfl
  cases written : marshalRaw entries with
  | none =>
    have refused := PayloadIsolation.mapM_read_none.mp (Option.map_eq_none_iff.mp written)
    refine Or.inr ⟨refused, ?_⟩
    rw [discoveryText, marshal, written]
    exact ite_self _
  | some text =>
    obtain ⟨raws, all, _⟩ := Option.map_eq_some_iff.mp written
    have fine : ∀ entry ∈ entries, (read entry).isSome = true := List.isSome_mapM_iff.mp (by rw [all]; rfl)
    refine Or.inl ⟨fine, entries.filterMap meaning, ?_, ?_⟩
    · cases entries with
      | nil => exact PayloadIsolation.meaning_brackets
      | cons first rest =>
        rw [discoveryText, marshal, written]
        exact PayloadIsolation.meaning_marshalRaw written
    · rw [List.map_filterMap_some_eq_filter_map_isSome, eq_comm, List.filter_eq_self]
      intro value member
      obtain ⟨entry, inside, rfl⟩ := List.mem_map.mp member
      obtain ⟨raw, parsed⟩ := Option.isSome_iff_exists.mp (fine entry inside)
      rw [meaning_of_parse parsed]
      rfl

end Meaning

section Statement
variable {visit : Visit} {containers : List ContainerInfo → String} {time : Time → String} {weather : Weather} {call : Call}
  {cluster : Cluster} {data : GoMap}

/-- The texts of the five keys. -/
theorem lookups_of_holds (held : Holds data (call.seen weather cluster)) :
    GoMap.lookup "discovery.json" data =
        some (discoveryText call.watcher.codec (takenEntries call cluster weather .discovery call.pods)) ∧
      GoMap.lookup "dataset.json" data =
        some (mergeDatasets call.watcher.codec (takenEntries call cluster weather .dataset (ranked call.pods))) ∧
      GoMap.lookup "annotations.json" data = some (call.watcher.codec.marshalMap call.annotations) ∧
      GoMap.lookup "containers.json" data = some (call.watcher.codec.marshalContainers (call.pods.flatMap fun pod =>
        pod.spec.containers.map (containerInfo call.watcher.codec call.jobResults pod))) ∧
      GoMap.lookup "storage.json" data = some ((takenEntries call cluster weather .storage call.pods).head?.getD "{}") := by
  rw [seen_eq, Holds, List.forall_mem_cons, List.forall_mem_cons, List.forall_mem_cons, List.forall_mem_cons,
    List.forall_mem_singleton] at held
  exact held

theorem merged_of_sound (codec : call.watcher.codec = goJson visit containers time) (sound : Sound weather call cluster)
    (held : Holds data (call.seen weather cluster)) : Merged call cluster data := by
  have taken (kind : DataKind) : takenEntries call cluster weather kind call.pods = acceptedEntries call cluster kind call.pods :=
    taken_eq_accepted (fun _ member => member) (sound.data.imp_right fun nothing => nothing kind) (sound.keys kind)
  have rankedTaken : takenEntries call cluster weather .dataset (ranked call.pods) =
      acceptedEntries call cluster .dataset (ranked call.pods) :=
    taken_eq_accepted (fun pod member => (List.mem_insertionSort _).mp member) (sound.data.imp_right fun nothing => nothing _)
      (sound.keys _)
  obtain ⟨discovery, dataset, annotations, gathered, storage⟩ := lookups_of_holds held
  rw [taken] at discovery storage
  rw [rankedTaken] at dataset
  refine ⟨?_, sound.mergeable.files, ?_, annotations, gathered, fun entry member => ?_, fun nothing => ?_⟩
  · rcases discoveryText_cases (acceptedEntries call cluster .discovery call.pods) with ⟨_, values, means, same⟩ | ⟨refused, _⟩
    · exact ⟨_, values, discovery, codec ▸ means, same⟩
    · obtain ⟨entry, member, unread⟩ := refused
      have readsIt := sound.mergeable.discovery entry member
      rw [unread] at readsIt
      cases readsIt
  · rw [codec] at dataset ⊢
    exact ⟨_, _, dataset, unmarshal_mergeDatasets visit containers time _, firstWins visit containers time _⟩
  · rw [storage]
    cases entries : acceptedEntries call cluster .storage call.pods with
    | nil =>
      rw [entries] at member
      cases member
    | cons first rest =>
      exact congrArg some (sound.mergeable.storage first (entries ▸ List.mem_cons_self) entry member)
  · rw [storage, nothing]
    rfl

theorem needed_of_merged (codec : call.watcher.codec = goJson visit containers time)
    (written : Written weather call (call.seen weather cluster) cluster) (held : Holds data (call.seen weather cluster))
    (merged : Merged call cluster data) : Needed weather call cluster := by
  obtain ⟨discovery, _⟩ := lookups_of_holds held
  obtain ⟨text, values, found, means, same⟩ := merged.discovery
  obtain rfl := Option.some.inj (discovery.symm.trans found)
  -- Where nothing is written, nothing was accepted.
  have blank (lost : discoveryText (goJson visit containers time) (takenEntries call cluster weather .discovery call.pods) = "[]") :
      acceptedEntries call cluster .discovery call.pods = [] := by
    rw [codec, lost, PayloadIsolation.meaning_brackets, Option.some.injEq, Value.array.injEq] at means
    rw [← means] at same
    exact List.map_eq_nil_iff.mp same
  have unread (failing : ¬weather.fate (dataConfigMapRequest call) = .served) :
      acceptedEntries call cluster .discovery call.pods = [] := by
    refine blank ?_
    rw [takenEntries, readable, if_neg failing, entriesIn_none]
    rfl
  have ways := @discoveryText_cases visit containers time (takenEntries call cluster weather .discovery call.pods)
  refine ⟨⟨fun entry member => ?_, merged.files, fun entry member other second => ?_⟩, ?_, ?_, written⟩
  · by_cases served : weather.fate (dataConfigMapRequest call) = .served
    · rcases ways with ⟨fine, _⟩ | ⟨_, lost⟩
      · exact fine entry (mem_taken_of_accepted served member)
      · rw [blank lost] at member
        cases member
    · rw [unread served] at member
      cases member
  · exact Option.some.inj ((merged.storage entry member).symm.trans (merged.storage other second))
  · exact or_iff_not_imp_left.mpr unread
  · refine or_iff_not_imp_left.mpr fun unknown => ?_
    by_cases served : weather.fate (dataConfigMapRequest call) = .served
    · rcases ways with ⟨_, others, reads, sameToo⟩ | ⟨_, lost⟩
      · left
        rw [codec, reads, Option.some.injEq, Value.array.injEq] at means
        have length := congrArg List.length (sameToo.trans ((congrArg _ means).trans same.symm))
        rw [List.length_map, List.length_map, takenEntries, readable, if_pos served, readable, if_neg unknown] at length
        exact verifies_of_length length
      · exact Or.inr (blank lost)
    · exact Or.inr (unread served)

section Call
variable {start : Cluster} (codec : call.watcher.codec = goJson visit containers time) (settled : Settled start)
include codec settled

theorem hold_of_sound (sound : Creates weather call start → Sound weather call (call.middle weather start)) :
    InputsHold weather call start := by
  intro name succeeded created
  have creates := creates_iff.mpr ⟨⟨name, succeeded⟩, created⟩
  have settledMiddle : Settled (call.middle weather start) := weather.settled _ (settled.run _)
  obtain ⟨data, stored, held⟩ := afterInputs_written settledMiddle (nodup_seen weather call _) (sound creates).written
  rw [← outcome_inputs settled creates, inputsData, Option.map_eq_some_iff] at stored
  obtain ⟨inputs, found, rfl⟩ := stored
  exact ⟨inputs, found, merged_of_sound codec (sound creates) held⟩

theorem needed_of_hold (hold : InputsHold weather call start) (creates : Creates weather call start)
    (absent : (call.middle weather start).find .configMap call.inputs = none) (alone : weather.rival = none) :
    Needed weather call (call.middle weather start) := by
  obtain ⟨⟨name, succeeded⟩, created⟩ := creates_iff.mp creates
  obtain ⟨inputs, found, merged⟩ := hold name succeeded created
  have outcome := outcome_inputs settled creates
  rw [inputsData, found] at outcome
  by_cases written : Written weather call (call.seen weather (call.middle weather start)) (call.middle weather start)
  · have settledMiddle : Settled (call.middle weather start) := weather.settled _ (settled.run _)
    obtain ⟨data, stored, held⟩ := afterInputs_written settledMiddle (nodup_seen weather call _) written
    rw [stored] at outcome
    exact needed_of_merged codec written held (Option.some.inj outcome ▸ merged)
  · rw [afterInputs_standing written, standing, absent, alone] at outcome
    dsimp only at outcome
    rw [ite_self] at outcome
    cases outcome

end Call

/-- The inputs hold if what the pods have stored can be merged and no request that matters fails. Where the ConfigMap is not
there before the call, and nobody else creates it, most of this is needed. -/
theorem inputs_hold_of_sound (visit : Visit) (containers : List ContainerInfo → String) (time : Time → String)
    (weather : Weather) (call : Call) (start : Cluster) (codec : call.watcher.codec = goJson visit containers time)
    (settled : Settled start) :
    ((Creates weather call start → Sound weather call (call.middle weather start)) → InputsHold weather call start) ∧
    (InputsHold weather call start → Creates weather call start →
      (call.middle weather start).find .configMap call.inputs = none → weather.rival = none →
      Needed weather call (call.middle weather start)) :=
  ⟨hold_of_sound codec settled, needed_of_hold codec settled⟩

end Statement

/-! One pod that has stored its discovery. -/

def oneCall : Call := { exampleCall with watcher := { exampleWatcher with codec := PayloadIsolation.exampleJson } }

/-- The data ConfigMap with the one entry that the pod's discovery wrote. -/
def oneEntry : Cluster :=
  let dataCM : ConfigMap :=
    { metadata := { name := configMapName "train", ns := "team" }
      content := { data := GoMap.ofList [(jsonKey .discovery "train-0", "\"gpu\"")] } }
  Cluster.empty.write dataCM

def readsDataConfigMap : Request → Bool
  | .get .configMap key => key.1 = "team"
  | _ => false

theorem oneEntry_settled : Settled oneEntry := by
  apply settled_write
  intro kind key object found
  exact absurd found (by simp [Cluster.find, Cluster.empty])

theorem oneCall_middle (fails : Request → Bool) : oneCall.middle (failing fails) oneEntry = oneEntry := by
  have nothingFailed : (oneCall.listed oneEntry).any (fun job => jobResult job = "Failed") = false := by decide
  rw [Call.middle, guard_run, nothingFailed, if_neg Bool.false_ne_true, apply_ite Prod.snd, ite_self]
  rfl

theorem oneCall_creates (fails : Request → Bool) (created : fails (jobCreation oneCall) = false) :
    Creates (failing fails) oneCall oneEntry where
  passes := fun _ => by decide
  served := by
    show (if fails (jobCreation oneCall) = true then Fate.refused "timeout" else Fate.served) = Fate.served
    rw [created]
    rfl
  free := by
    rw [oneCall_middle]
    decide

theorem oneEntry_accepted : acceptedEntries oneCall oneEntry .discovery oneCall.pods = ["\"gpu\""] := by
  decide

theorem oneEntry_sound : Sound (failing fun _ => false) oneCall oneEntry where
  mergeable := by
    refine ⟨?_, ?_, ?_⟩
    · rw [oneEntry_accepted]
      decide
    · decide
    · decide
  data := Or.inl rfl
  keys := fun _ => Or.inl rfl
  written := ⟨rfl, rfl, fun message refused => by cases refused⟩

theorem inputs_hold_of_sound_on_oneEntry : InputsHold (failing fun _ => false) oneCall oneEntry :=
  (inputs_hold_of_sound PayloadIsolation.exampleVisit (fun _ => "[]") (fun _ => "") (failing fun _ => false) oneCall oneEntry
    rfl oneEntry_settled).1 fun _ => oneCall_middle _ ▸ oneEntry_sound

/-- The data ConfigMap is not read, and the Job is created all the same. -/
theorem job_launched_without_discovery : ¬InputsHold (failing readsDataConfigMap) oneCall oneEntry := by
  intro hold
  have creates := oneCall_creates readsDataConfigMap rfl
  have needed := needed_of_hold rfl oneEntry_settled hold creates (by rw [oneCall_middle]; decide) rfl
  rw [oneCall_middle] at needed
  rcases needed.data with served | nothing
  · exact absurd served (by decide)
  · rw [oneEntry_accepted] at nothing
    cases nothing

end AibomWebhook.PostprocessInputs
