import AibomWebhook.Postprocess

/-! What a verified signature says about the pod and the kind of an entry of the
data ConfigMap. The scripts generate_snapshot.py and dataset_sidecar.py sign the
bytes of the payload alone, with one key for discovery and storage and one for
datasets; the watcher verifies them under the name they are stored at. -/

namespace AibomWebhook.Signatures
open Aibomdata Kubernetes Objects Postprocess PostprocessData Requests

/-! The signers. -/

def isSpace (byte : UInt8) : Bool := byte = 32 || (9 ≤ byte && byte ≤ 13)

/-- Python's `bytes.strip`. -/
def strip (bytes : Sha256.Bytes) : Sha256.Bytes := (bytes.dropWhile isSpace).rdropWhile isSpace

/-- `sign_payload` of both scripts, given the key file, if it is mounted. -/
def signPayload (keyFile : Option Sha256.Bytes) (payload : String) : Option String :=
  match keyFile with
  | none => none
  | some content =>
    let key := strip content
    if key = [] then none else some (Sha256.encodeToString (Sha256.hmac key payload.toUTF8.toList))

/-- A key that is configured: not blank, and the same for the scripts, which strip
it, as for the watcher, which does not. -/
structure SigningKey where
  bytes : Sha256.Bytes
  stripped : strip bytes = bytes
  filled : bytes ≠ []

structure NamespaceKeys where
  discovery : SigningKey
  dataset : SigningKey

/-- The key that entries of a kind are signed and verified with. -/
def NamespaceKeys.keyOf (keys : NamespaceKeys) : DataKind → SigningKey
  | .discovery => keys.discovery
  | .storage => keys.discovery
  | .dataset => keys.dataset

/-- A payload that the platform container of a pod has signed, and as what. -/
structure Signing where
  podName : String
  kind : DataKind
  payload : String
  deriving DecidableEq, Repr

def Signing.signature (keys : NamespaceKeys) (signing : Signing) : Option String :=
  signPayload (some (keys.keyOf signing.kind).bytes) signing.payload

theorem signature_eq (keys : NamespaceKeys) (signing : Signing) : signing.signature keys =
    some (Sha256.encodeToString (Sha256.hmac (keys.keyOf signing.kind).bytes signing.payload.toUTF8.toList)) := by
  simp [Signing.signature, signPayload, (keys.keyOf signing.kind).stripped, (keys.keyOf signing.kind).filled]

/-! The verifier. -/

/-- What `buildPostprocessInputs` takes as a pod's entry of one kind. -/
def accepted (keys : NamespaceKeys) (dataCM : ConfigMap) (kind : DataKind) (pod : Pod) : String :=
  verifiedData (some (keys.keyOf kind).bytes) kind pod (some dataCM)

/-- The Secrets of a namespace hold the keys. -/
structure Configured (keys : NamespaceKeys) (ns : String) (cluster : Cluster) : Prop where
  discovery : ∃ secret, cluster.find .secret (ns, discoverySigningKeySecretName) = some secret ∧
    secret.content.data.find? discoverySigningKeyDataKey = some (discoverySigningKeyDataKey, keys.discovery.bytes)
  dataset : ∃ secret, cluster.find .secret (ns, datasetSigningKeySecretName) = some secret ∧
    secret.content.data.find? datasetSigningKeyDataKey = some (datasetSigningKeyDataKey, keys.dataset.bytes)

theorem fetchSigningKey_run {ns secretName dataKey : String} {key : Sha256.Bytes} {cluster : Cluster}
    (held : ∃ secret, cluster.find .secret (ns, secretName) = some secret ∧
      secret.content.data.find? dataKey = some (dataKey, key)) :
    (fetchSigningKey ns secretName dataKey).run (perform "" 0) cluster = (.ok (some key), cluster) := by
  obtain ⟨secret, stored, found⟩ := held
  simp [fetchSigningKey, perform, stored, found]

/-- With the keys configured, only accepted payloads reach the inputs. -/
theorem buildPostprocessInputs_run (w : Watcher) {keys : NamespaceKeys} {ns configMapName : String} {cluster : Cluster}
    (configured : Configured keys ns cluster) {dataCM : ConfigMap}
    (stored : cluster.find .configMap (ns, configMapName) = some dataCM) (pods : List Pod) (jobResults : GoMap) :
    (w.buildPostprocessInputs ns configMapName pods jobResults).run (perform "" 0) cluster =
      (inputsOf w.codec (some dataCM) (some keys.discovery.bytes) (some keys.dataset.bytes) pods jobResults, cluster) := by
  have discovery := fetchSigningKey_run configured.discovery
  have dataset := fetchSigningKey_run configured.dataset
  simp only [Watcher.buildPostprocessInputs, get_bind, Program.run_call, Program.run_bind, fetchDiscoverySigningKey,
    fetchDatasetSigningKey]
  simp [perform, stored, discovery, dataset, keyOrNone, Except.toOption]

/-! The names of the entries. -/

/-- The first two letters tell the kinds apart. -/
theorem kind_of_take {first second : DataKind} {one two : String}
    (same : (first.word ++ one).toList = (second.word ++ two).toList) : first = second := by
  have letters (kind : DataKind) (rest : String) : (kind.word ++ rest).toList.take 2 = kind.word.toList.take 2 := by
    rw [String.toList_append, List.take_append_of_le_length (by cases kind <;> decide)]
  have start : first.word.toList.take 2 = second.word.toList.take 2 := by rw [← letters first one, same, letters]
  cases first <;> cases second <;> first | rfl | exact absurd start (by decide)

theorem jsonKey_inj {first second : DataKind} {one two : String} (same : jsonKey first one = jsonKey second two) :
    first = second ∧ one = two := by
  simp only [jsonKey, String.append_assoc] at same
  obtain rfl := kind_of_take (congrArg String.toList same)
  simpa using same

theorem sigKey_inj {first second : DataKind} {one two : String} (same : sigKey first one = sigKey second two) :
    first = second ∧ one = two := by
  simp only [sigKey, String.append_assoc] at same
  obtain rfl := kind_of_take (congrArg String.toList same)
  simpa using same

theorem jsonKey_ne_sigKey (first second : DataKind) (one two : String) : jsonKey first one ≠ sigKey second two := by
  have ends (start suffix : String) (filled : suffix.toList ≠ []) :
      (start ++ suffix).toList.getLast? = suffix.toList.getLast? := by
    rw [String.toList_append, List.getLast?_append_of_ne_nil _ filled]
  intro same
  have last := congrArg (fun name => name.toList.getLast?) same
  simp only [jsonKey, sigKey] at last
  rw [ends _ ".json" (by decide), ends _ ".sig" (by decide)] at last
  exact absurd last (by decide)

/-! The property. -/

/-- Content that nobody forged: a payload with a signature that verifies has been
signed with that key, though maybe for another pod or as another kind. -/
def Unforged (keys : NamespaceKeys) (history : List Signing) (dataCM : ConfigMap) : Prop :=
  ∀ kind podName,
    verifySignature (keys.keyOf kind).bytes (GoMap.get (jsonKey kind podName) dataCM.content.data)
      (GoMap.get (sigKey kind podName) dataCM.content.data) = true →
    ∃ signing ∈ history, keys.keyOf signing.kind = keys.keyOf kind ∧
      signing.payload = GoMap.get (jsonKey kind podName) dataCM.content.data

/-- What is accepted as a kind of a pod was signed by that pod as that kind. -/
def Binds (keys : NamespaceKeys) (history : List Signing) (pod : Pod) (kind : DataKind) : Prop :=
  ∀ dataCM, Unforged keys history dataCM → accepted keys dataCM kind pod ≠ "" →
    { podName := pod.metadata.name, kind := kind, payload := accepted keys dataCM kind pod } ∈ history

theorem accepted_filled {keys : NamespaceKeys} {dataCM : ConfigMap} {kind : DataKind} {pod : Pod}
    (filled : accepted keys dataCM kind pod ≠ "") :
    accepted keys dataCM kind pod = GoMap.get (jsonKey kind pod.metadata.name) dataCM.content.data ∧
      verifySignature (keys.keyOf kind).bytes (GoMap.get (jsonKey kind pod.metadata.name) dataCM.content.data)
        (GoMap.get (sigKey kind pod.metadata.name) dataCM.content.data) = true := by
  have shape : accepted keys dataCM kind pod =
      if GoMap.get (jsonKey kind pod.metadata.name) dataCM.content.data ≠ "" ∧
        ¬ verifySignature (keys.keyOf kind).bytes (GoMap.get (jsonKey kind pod.metadata.name) dataCM.content.data)
          (GoMap.get (sigKey kind pod.metadata.name) dataCM.content.data) = true
      then "" else GoMap.get (jsonKey kind pod.metadata.name) dataCM.content.data := rfl
  by_cases verifies : verifySignature (keys.keyOf kind).bytes
      (GoMap.get (jsonKey kind pod.metadata.name) dataCM.content.data)
      (GoMap.get (sigKey kind pod.metadata.name) dataCM.content.data) = true
  · exact ⟨by rw [shape, if_neg fun refused => refused.2 verifies], verifies⟩
  · by_cases stored : GoMap.get (jsonKey kind pod.metadata.name) dataCM.content.data = ""
    · exact absurd (by rw [shape, stored, ite_self]) filled
    · exact absurd (by rw [shape, if_pos ⟨stored, verifies⟩]) filled

/-- A signed payload stored as another pod's entry, or as one of another kind. -/
def replayed (keys : NamespaceKeys) (signing : Signing) (kind : DataKind) (podName : String) : ConfigMap where
  metadata := { name := "", ns := "" }
  content := { data := GoMap.ofList [(jsonKey kind podName, signing.payload),
    (sigKey kind podName, (signing.signature keys).getD "")] }

section Replayed
variable (keys : NamespaceKeys) (signing : Signing) (kind : DataKind) (podName : String)

theorem lookup_replayed (key : String) :
    GoMap.lookup key (replayed keys signing kind podName).content.data =
      if sigKey kind podName = key then some ((signing.signature keys).getD "")
      else if jsonKey kind podName = key then some signing.payload else none := by
  simp only [replayed, GoMap.ofList, Keyed.ofList, Keyed.putAll, List.foldl, GoMap.lookup, Option.getD_some,
    Keyed.find?_put, Keyed.find?_empty]
  split
  · rfl
  · split <;> rfl

theorem get_json_replayed (other : DataKind) (otherName : String) :
    GoMap.get (jsonKey other otherName) (replayed keys signing kind podName).content.data =
      if other = kind ∧ otherName = podName then signing.payload else "" := by
  rw [GoMap.get, lookup_replayed, if_neg (Ne.symm (jsonKey_ne_sigKey _ _ _ _))]
  by_cases same : other = kind ∧ otherName = podName
  · obtain ⟨rfl, rfl⟩ := same
    simp
  · rw [if_neg same, if_neg fun equal => same ((jsonKey_inj equal).imp Eq.symm Eq.symm)]
    rfl

theorem get_sig_replayed (other : DataKind) (otherName : String) :
    GoMap.get (sigKey other otherName) (replayed keys signing kind podName).content.data =
      if other = kind ∧ otherName = podName then (signing.signature keys).getD "" else "" := by
  rw [GoMap.get, lookup_replayed]
  by_cases same : other = kind ∧ otherName = podName
  · obtain ⟨rfl, rfl⟩ := same
    simp
  · rw [if_neg same, if_neg fun equal => same ((sigKey_inj equal).imp Eq.symm Eq.symm),
      if_neg (jsonKey_ne_sigKey _ _ _ _)]
    rfl

variable {keys signing kind}

theorem replayed_verifies (sameKey : keys.keyOf signing.kind = keys.keyOf kind) :
    verifySignature (keys.keyOf kind).bytes signing.payload ((signing.signature keys).getD "") = true := by
  let code := Sha256.hmac (keys.keyOf kind).bytes signing.payload.toUTF8.toList
  have sig : (signing.signature keys).getD "" = Sha256.encodeToString code := by
    rw [signature_eq, sameKey, Option.getD_some]
  have written : Sha256.encodeToString code ≠ "" := by
    intro blank
    have length := congrArg (fun text => text.toList.length) blank
    simp [Sha256.encodeToString, code, Sha256.length_hmac] at length
  rw [sig, verifySignature, if_neg written, Sha256.decodeString_encodeToString]
  exact decide_eq_true rfl

theorem replayed_unforged {history : List Signing} (member : signing ∈ history)
    (sameKey : keys.keyOf signing.kind = keys.keyOf kind) : Unforged keys history (replayed keys signing kind podName) := by
  intro other otherName verifies
  rw [get_json_replayed, get_sig_replayed] at verifies
  rw [get_json_replayed]
  by_cases same : other = kind ∧ otherName = podName
  · rw [if_pos same]
    exact ⟨signing, member, same.1 ▸ sameKey, rfl⟩
  · rw [if_neg same] at verifies
    simp [verifySignature, same] at verifies

theorem accepted_replayed (sameKey : keys.keyOf signing.kind = keys.keyOf kind) (pod : Pod) :
    accepted keys (replayed keys signing kind pod.metadata.name) kind pod = signing.payload := by
  have json := get_json_replayed keys signing kind pod.metadata.name kind pod.metadata.name
  have sig := get_sig_replayed keys signing kind pod.metadata.name kind pod.metadata.name
  rw [if_pos ⟨rfl, rfl⟩] at json sig
  simp only [accepted, verifiedData, extractDataFromPod, json, sig, replayed_verifies sameKey]
  simp

end Replayed

/-- The signatures bind a kind of a pod exactly when every payload signed with its
key happens to have been signed for it. -/
theorem signatures_bind_iff (keys : NamespaceKeys) (history : List Signing) (pod : Pod) (kind : DataKind) :
    Binds keys history pod kind ↔
      ∀ signing ∈ history, keys.keyOf signing.kind = keys.keyOf kind → signing.payload ≠ "" →
        { podName := pod.metadata.name, kind := kind, payload := signing.payload } ∈ history := by
  constructor
  · intro binds signing member sameKey filled
    have replay := accepted_replayed sameKey pod
    have bound := binds _ (replayed_unforged pod.metadata.name member sameKey) (replay ▸ filled)
    rwa [replay] at bound
  · intro condition dataCM unforged filled
    obtain ⟨payload, verifies⟩ := accepted_filled filled
    obtain ⟨signing, member, sameKey, signed⟩ := unforged kind pod.metadata.name verifies
    rw [payload, ← signed]
    exact condition signing member sameKey (by rw [signed, ← payload]; exact filled)

def exampleKeys : NamespaceKeys where
  discovery := { bytes := [1], stripped := by decide, filled := by decide }
  dataset := { bytes := [2], stripped := by decide, filled := by decide }

/-- A pod whose platform container has signed nothing. -/
def idlePod : Pod where
  metadata := { name := "idle", ns := "team" }
  content := { spec := { containers := [{ name := "main" }] } }

theorem storage_accepted_as_other_discovery : ¬ Binds exampleKeys
    [{ podName := "train-0", kind := .storage, payload := "stored at s3" }] idlePod .discovery := by
  intro binds
  let signing : Signing := { podName := "train-0", kind := .storage, payload := "stored at s3" }
  have sameKey : exampleKeys.keyOf signing.kind = exampleKeys.keyOf .discovery := rfl
  have replay := accepted_replayed sameKey idlePod
  have filled : accepted exampleKeys (replayed exampleKeys signing .discovery "idle") .discovery idlePod ≠ "" := by
    rw [show "idle" = idlePod.metadata.name from rfl, replay]
    decide
  have bound := binds _ (replayed_unforged "idle" (List.mem_singleton_self signing) sameKey) filled
  have signed := congrArg Signing.podName (List.mem_singleton.mp bound)
  exact absurd signed (by decide)

end AibomWebhook.Signatures
