import AibomWebhook.Library.Program
import AibomWebhook.Objects

/-! The API server as its clients see it: the requests they send, what each
answers, and what it does to the stored objects. The informers' caches hold
copies of the objects that may be older than the stored ones. -/

namespace AibomWebhook.Kubernetes
open Objects Requests

inductive ApiError where
  | notFound
  | alreadyExists
  | conflict
  | other (message : String)
  deriving DecidableEq, Repr

/-- The merge patches that the code sends. The last one is a script's, for a ConfigMap. -/
inductive MergePatch where
  | annotate (key value : String)
  | setFinalizers (finalizers : List String) (resourceVersion : Option Nat)
  | setOwner (owner : OwnerReference)
  | mergeData (entries : List (String × String))
  deriving DecidableEq, Repr

abbrev LabelSelector := List (String × String)

inductive Request where
  | get (kind : Kind) (key : Key)
  | list (kind : Kind) (ns : String) (selector : LabelSelector)
  | create (kind : Kind) (object : Object kind)
  | update (kind : Kind) (object : Object kind)
  | patch (kind : Kind) (key : Key) (patch : MergePatch)
  | delete (kind : Kind) (key : Key)
  | createToken (key : Key)
  | cached (kind : Kind) (key : Key)
  | now
  | generateKey

abbrev Response : Request → Type
  | .get kind _ => Except ApiError (Object kind)
  | .list kind _ _ => Except ApiError (List (Object kind))
  | .create kind _ => Except ApiError (Object kind)
  | .update kind _ => Except ApiError (Object kind)
  | .patch kind _ _ => Except ApiError (Object kind)
  | .delete _ _ => Except ApiError Unit
  | .createToken _ => Except ApiError String
  | .cached kind _ => Option (Object kind)
  | .now => Time
  | .generateKey => Except ApiError Sha256.Bytes

abbrev ApiServer : Interface where
  Request := Request
  Response := Response

abbrev ApiProgram (α : Type) := Program ApiServer α

def get (kind : Kind) (key : Key) : ApiProgram (Except ApiError (Object kind)) :=
  Program.send (I := ApiServer) (.get kind key)

def list (kind : Kind) (ns : String) (selector : LabelSelector) :
    ApiProgram (Except ApiError (List (Object kind))) :=
  Program.send (I := ApiServer) (.list kind ns selector)

def create {kind : Kind} (object : Object kind) : ApiProgram (Except ApiError (Object kind)) :=
  Program.send (I := ApiServer) (.create kind object)

def update {kind : Kind} (object : Object kind) : ApiProgram (Except ApiError (Object kind)) :=
  Program.send (I := ApiServer) (.update kind object)

def patch (kind : Kind) (key : Key) (change : MergePatch) : ApiProgram (Except ApiError (Object kind)) :=
  Program.send (I := ApiServer) (.patch kind key change)

def delete (kind : Kind) (key : Key) : ApiProgram (Except ApiError Unit) :=
  Program.send (I := ApiServer) (.delete kind key)

def createToken (key : Key) : ApiProgram (Except ApiError String) :=
  Program.send (I := ApiServer) (.createToken key)

def cached (kind : Kind) (key : Key) : ApiProgram (Option (Object kind)) :=
  Program.send (I := ApiServer) (.cached kind key)

def now : ApiProgram Time := Program.send (I := ApiServer) .now

def generateKey : ApiProgram (Except ApiError Sha256.Bytes) := Program.send (I := ApiServer) .generateKey

/-! What a program does after one of these requests. -/

section
variable {α : Type}

@[simp] theorem get_bind (kind : Kind) (key : Key) (rest : Except ApiError (Object kind) → ApiProgram α) :
    (get kind key >>= rest) = .call (.get kind key) rest := rfl

@[simp] theorem list_bind (kind : Kind) (ns : String) (selector : LabelSelector)
    (rest : Except ApiError (List (Object kind)) → ApiProgram α) :
    (list kind ns selector >>= rest) = .call (.list kind ns selector) rest := rfl

@[simp] theorem create_bind {kind : Kind} (object : Object kind)
    (rest : Except ApiError (Object kind) → ApiProgram α) :
    (create object >>= rest) = .call (.create kind object) rest := rfl

@[simp] theorem update_bind {kind : Kind} (object : Object kind)
    (rest : Except ApiError (Object kind) → ApiProgram α) :
    (update object >>= rest) = .call (.update kind object) rest := rfl

@[simp] theorem patch_bind (kind : Kind) (key : Key) (change : MergePatch)
    (rest : Except ApiError (Object kind) → ApiProgram α) :
    (patch kind key change >>= rest) = .call (.patch kind key change) rest := rfl

@[simp] theorem delete_bind (kind : Kind) (key : Key) (rest : Except ApiError Unit → ApiProgram α) :
    (delete kind key >>= rest) = .call (.delete kind key) rest := rfl

@[simp] theorem createToken_bind (key : Key) (rest : Except ApiError String → ApiProgram α) :
    (createToken key >>= rest) = .call (.createToken key) rest := rfl

@[simp] theorem cached_bind (kind : Kind) (key : Key) (rest : Option (Object kind) → ApiProgram α) :
    (cached kind key >>= rest) = .call (.cached kind key) rest := rfl

@[simp] theorem now_bind (rest : Time → ApiProgram α) : (now >>= rest) = .call .now rest := rfl

@[simp] theorem generateKey_bind (rest : Except ApiError Sha256.Bytes → ApiProgram α) :
    (generateKey >>= rest) = .call .generateKey rest := rfl

end

/-! Labels and patches. -/

def selects (selector : LabelSelector) (labels : GoMap) : Bool :=
  selector.all fun wanted => GoMap.lookup wanted.1 labels = some wanted.2

def MergePatch.apply : MergePatch → ObjectMeta → ObjectMeta
  | .annotate key value, metadata =>
    { metadata with annotations := GoMap.set key value metadata.annotations }
  | .setFinalizers finalizers _, metadata => { metadata with finalizers := finalizers }
  | .setOwner owner, metadata => { metadata with ownerReferences := [owner] }
  | .mergeData _, metadata => metadata

def MergePatch.applyContent (change : MergePatch) : (kind : Kind) → Content kind → Content kind
  | .configMap, content =>
    match change with
    | .mergeData entries =>
      { data := entries.foldl (fun map (key, value) => GoMap.set key value map) content.data }
    | _ => content
  | _, content => content

/-- A patch that names a resource version only applies to that version. -/
def MergePatch.accepts : MergePatch → ObjectMeta → Bool
  | .setFinalizers _ (some version), metadata => version = metadata.resourceVersion
  | _, _ => true

/-! The stored objects. -/

abbrev Store (kind : Kind) := Keyed (Object.key : Object kind → Key)

structure Cluster where
  store : (kind : Kind) → Store kind
  cache : (kind : Kind) → Store kind
  revision : Nat

def Cluster.empty : Cluster where
  store := fun _ => ∅
  cache := fun _ => ∅
  revision := 0

namespace Cluster

def find (kind : Kind) (key : Key) (cluster : Cluster) : Option (Object kind) :=
  (cluster.store kind).find? key

def setStore (kind : Kind) (store : Store kind) (cluster : Cluster) : Cluster :=
  { cluster with store := Function.update cluster.store kind store }

def setCache (kind : Kind) (cache : Store kind) (cluster : Cluster) : Cluster :=
  { cluster with cache := Function.update cluster.cache kind cache }

def remove (kind : Kind) (key : Key) (cluster : Cluster) : Cluster :=
  cluster.setStore kind ((cluster.store kind).erase key)

end Cluster

def stamp {kind : Kind} (version : Nat) (object : Object kind) : Object kind :=
  { object with metadata := { object.metadata with resourceVersion := version } }

/-- An object marked for deletion is gone once nothing holds it. -/
def released {kind : Kind} (object : Object kind) : Bool :=
  object.metadata.deletionTimestamp.isSome && object.metadata.finalizers.isEmpty

def Cluster.write {kind : Kind} (object : Object kind) (cluster : Cluster) : Cluster :=
  let stamped := stamp (cluster.revision + 1) object
  let store := if released object then (cluster.store kind).erase object.key else (cluster.store kind).put stamped
  { cluster.setStore kind store with revision := cluster.revision + 1 }

/-- What the API server fills in when it creates an object. -/
def born {kind : Kind} (uid : String) (time : Time) (object : Object kind) : Object kind :=
  let metadata := object.metadata
  { object with metadata := { metadata with
      name := if metadata.name = "" then metadata.generateName ++ uid else metadata.name
      uid := uid, creationTimestamp := time, deletionTimestamp := none } }

/-- Of an updated object, the parts that no client can change are kept. -/
def kept {kind : Kind} (old new : Object kind) : Object kind :=
  { new with metadata := { new.metadata with
      uid := old.metadata.uid
      creationTimestamp := old.metadata.creationTimestamp
      deletionTimestamp := old.metadata.deletionTimestamp } }

def deleting {kind : Kind} (time : Time) (object : Object kind) : Object kind :=
  { object with metadata := { object.metadata with
      deletionTimestamp := some (object.metadata.deletionTimestamp.getD time) } }

def patched {kind : Kind} (change : MergePatch) (object : Object kind) : Object kind where
  metadata := change.apply object.metadata
  content := change.applyContent kind object.content

/-- One request, carried out. The identifier of a new object, a random key and the
time come from elsewhere. -/
def perform (uid : String) (time : Time) (cluster : Cluster) :
    (request : Request) → Response request × Cluster
  | .get kind key =>
    match cluster.find kind key with
    | some object => (.ok object, cluster)
    | none => (.error .notFound, cluster)
  | .list kind ns selector =>
    (.ok ((cluster.store kind).items.filter fun object =>
      object.metadata.ns = ns && selects selector object.metadata.labels), cluster)
  | .create kind object =>
    match cluster.find kind (born uid time object).key with
    | some _ => (.error .alreadyExists, cluster)
    | none => (.ok (stamp (cluster.revision + 1) (born uid time object)), cluster.write (born uid time object))
  | .update kind object =>
    match cluster.find kind object.key with
    | none => (.error .notFound, cluster)
    | some old =>
      if object.metadata.resourceVersion = old.metadata.resourceVersion then
        (.ok (stamp (cluster.revision + 1) (kept old object)), cluster.write (kept old object))
      else (.error .conflict, cluster)
  | .patch kind key change =>
    match cluster.find kind key with
    | none => (.error .notFound, cluster)
    | some old =>
      if change.accepts old.metadata then
        (.ok (stamp (cluster.revision + 1) (patched change old)), cluster.write (patched change old))
      else (.error .conflict, cluster)
  | .delete kind key =>
    match cluster.find kind key with
    | none => (.error .notFound, cluster)
    | some old => (.ok (), cluster.write (deleting time old))
  | .createToken key =>
    match cluster.find .serviceAccount key with
    | none => (.error .notFound, cluster)
    | some account => (.ok account.metadata.uid, cluster)
  | .cached kind key => ((cluster.cache kind).find? key, cluster)
  | .now => (time, cluster)
  | .generateKey => (.ok uid.toUTF8.toList, cluster)

/-! The writing requests, when they go through. -/

section Performing
variable {kind : Kind} {uid : String} {time : Time} {cluster : Cluster}

theorem perform_create {object : Object kind} (free : cluster.find kind (born uid time object).key = none) :
    perform uid time cluster (.create kind object) =
      (.ok (stamp (cluster.revision + 1) (born uid time object)), cluster.write (born uid time object)) := by
  simp only [perform, free]

theorem perform_create_taken {object taken : Object kind}
    (occupied : cluster.find kind (born uid time object).key = some taken) :
    perform uid time cluster (.create kind object) = (.error .alreadyExists, cluster) := by
  simp only [perform, occupied]

theorem perform_update {object old : Object kind} (found : cluster.find kind object.key = some old)
    (current : object.metadata.resourceVersion = old.metadata.resourceVersion) :
    perform uid time cluster (.update kind object) =
      (.ok (stamp (cluster.revision + 1) (kept old object)), cluster.write (kept old object)) := by
  simp only [perform, found, current, if_true]

end Performing

/-! How a request ends for its sender. -/

inductive Fate where
  | served
  | refused (message : String)
  | lost (message : String)
  deriving DecidableEq, Repr

/-- The answer of a failed request, which is none of the errors that the state of the
cluster gives. A cache that cannot answer has no such object, and reading the clock
does not fail. -/
def failed (message : String) (time : Time) : (request : Request) → Response request
  | .get _ _ => .error (.other message)
  | .list _ _ _ => .error (.other message)
  | .create _ _ => .error (.other message)
  | .update _ _ => .error (.other message)
  | .patch _ _ _ => .error (.other message)
  | .delete _ _ => .error (.other message)
  | .createToken _ => .error (.other message)
  | .cached _ _ => none
  | .now => time
  | .generateKey => .error (.other message)

structure Circumstance where
  fate : Fate
  uid : String
  time : Time

/-- A served request has its effect and its answer, a refused one neither, and a
lost one its effect only. -/
def serve (circumstance : Circumstance) (cluster : Cluster) (request : Request) : Response request × Cluster :=
  match circumstance.fate with
  | .served => perform circumstance.uid circumstance.time cluster request
  | .refused message => (failed message circumstance.time request, cluster)
  | .lost message =>
    (failed message circumstance.time request, (perform circumstance.uid circumstance.time cluster request).2)

/-! What a write does to the stored objects. -/

section Writes
variable {kind other : Kind} (cluster : Cluster)

theorem find_write (object : Object kind) (key : Key) : (cluster.write object).find kind key =
    if object.key = key then (if released object then none else some (stamp (cluster.revision + 1) object))
    else cluster.find kind key := by
  have same : (stamp (cluster.revision + 1) object).key = object.key := rfl
  simp only [Cluster.find, Cluster.write, Cluster.setStore, Function.update_self]
  split
  · rename_i gone
    by_cases here : object.key = key
    · subst here
      simp
    · rw [if_neg here, Keyed.find?_erase_of_ne (Ne.symm here)]
  · rw [Keyed.find?_put, same]

theorem find_write_self (object : Object kind) (stays : released object = false) :
    (cluster.write object).find kind object.key = some (stamp (cluster.revision + 1) object) := by
  simp [find_write, stays]

theorem find_write_of_key {object : Object kind} {key : Key} (different : object.key ≠ key) :
    (cluster.write object).find kind key = cluster.find kind key := by
  rw [find_write, if_neg different]

theorem find_write_of_kind (object : Object kind) (different : other ≠ kind) (key : Key) :
    (cluster.write object).find other key = cluster.find other key := by
  simp [Cluster.find, Cluster.write, Cluster.setStore, Function.update_of_ne different]

@[simp] theorem cache_write (object : Object kind) : (cluster.write object).cache = cluster.cache := rfl

@[simp] theorem key_patched (change : MergePatch) (object : Object kind) : (patched change object).key = object.key := by
  cases change <;> rfl

@[simp] theorem key_deleting (time : Time) (object : Object kind) : (deleting time object).key = object.key := rfl

@[simp] theorem key_kept (old new : Object kind) : (kept old new).key = new.key := rfl

@[simp] theorem content_patched (change : MergePatch) (job : Job) :
    (patched change job).content = job.content := rfl

@[simp] theorem uid_patched (change : MergePatch) (object : Object kind) :
    (patched change object).metadata.uid = object.metadata.uid := by
  cases change <;> rfl

@[simp] theorem labels_patched (change : MergePatch) (object : Object kind) :
    (patched change object).metadata.labels = object.metadata.labels := by
  cases change <;> rfl

theorem key_born {uid : String} {time : Time} {object : Object kind} (named : object.metadata.name ≠ "") :
    (born uid time object).key = object.key := by
  simp [born, Object.key, named]

@[simp] theorem released_born (uid : String) (time : Time) (object : Object kind) :
    released (born uid time object) = false := rfl

end Writes

/-- All that a request can do to the cluster. -/
inductive Effect (uid : String) (time : Time) (cluster : Cluster) : Request → Cluster → Prop where
  | unchanged (request : Request) : Effect uid time cluster request cluster
  | created (kind : Kind) (object : Object kind) (free : cluster.find kind (born uid time object).key = none) :
    Effect uid time cluster (.create kind object) (cluster.write (born uid time object))
  | updated (kind : Kind) (object old : Object kind) (found : cluster.find kind object.key = some old) :
    Effect uid time cluster (.update kind object) (cluster.write (kept old object))
  | patched (kind : Kind) (key : Key) (change : MergePatch) (old : Object kind)
      (found : cluster.find kind key = some old) :
    Effect uid time cluster (.patch kind key change) (cluster.write (patched change old))
  | deleted (kind : Kind) (key : Key) (old : Object kind) (found : cluster.find kind key = some old) :
    Effect uid time cluster (.delete kind key) (cluster.write (deleting time old))

theorem perform_effect (uid : String) (time : Time) (cluster : Cluster) (request : Request) :
    Effect uid time cluster request (perform uid time cluster request).2 := by
  cases request with
  | get kind key =>
    simp only [perform]
    split <;> exact .unchanged _
  | list kind ns selector => exact .unchanged _
  | create kind object =>
    simp only [perform]
    split
    · exact .unchanged _
    · rename_i free
      exact .created kind object free
  | update kind object =>
    simp only [perform]
    split
    · exact .unchanged _
    · rename_i old found
      split
      · exact .updated kind object old found
      · exact .unchanged _
  | patch kind key change =>
    simp only [perform]
    split
    · exact .unchanged _
    · rename_i old found
      split
      · exact .patched kind key change old found
      · exact .unchanged _
  | delete kind key =>
    simp only [perform]
    split
    · exact .unchanged _
    · rename_i old found
      exact .deleted kind key old found
  | createToken key =>
    simp only [perform]
    split <;> exact .unchanged _
  | cached kind key => exact .unchanged _
  | now => exact .unchanged _
  | generateKey => exact .unchanged _

/-- How a stored object came to be what it is after a request: it was there before, it
is new, or it is what the request made of the one before. -/
inductive Comes (uid : String) (time : Time) (cluster : Cluster) (kind : Kind) (key : Key) :
    Request → Object kind → Prop where
  | stayed (request : Request) (object : Object kind) (found : cluster.find kind key = some object) :
    Comes uid time cluster kind key request object
  | created (draft : Object kind) (free : cluster.find kind key = none) (named : (born uid time draft).key = key) :
    Comes uid time cluster kind key (.create kind draft) (stamp (cluster.revision + 1) (born uid time draft))
  | updated (draft old : Object kind) (found : cluster.find kind key = some old) (named : draft.key = key) :
    Comes uid time cluster kind key (.update kind draft) (stamp (cluster.revision + 1) (kept old draft))
  | patched (change : MergePatch) (old : Object kind) (found : cluster.find kind key = some old) :
    Comes uid time cluster kind key (.patch kind key change)
      (stamp (cluster.revision + 1) (Kubernetes.patched change old))
  | deleted (old : Object kind) (found : cluster.find kind key = some old) :
    Comes uid time cluster kind key (.delete kind key) (stamp (cluster.revision + 1) (deleting time old))

theorem write_found {written kind : Kind} {cluster : Cluster} {object : Object written} {key : Key}
    {found : Object kind} (after : (cluster.write object).find kind key = some found) :
    cluster.find kind key = some found ∨
      ∃ same : written = kind, object.key = key ∧ found = stamp (cluster.revision + 1) (same ▸ object) := by
  by_cases same : written = kind
  · subst same
    rw [find_write] at after
    split at after
    · rename_i here
      split at after
      · exact absurd after (by simp)
      · exact Or.inr ⟨rfl, here, (Option.some.inj after).symm⟩
    · exact Or.inl after
  · rw [find_write_of_kind _ _ (Ne.symm same)] at after
    exact Or.inl after

theorem Effect.comes {uid : String} {time : Time} {cluster next : Cluster} {request : Request}
    (effect : Effect uid time cluster request next) {kind : Kind} {key : Key} {object : Object kind}
    (after : next.find kind key = some object) : Comes uid time cluster kind key request object := by
  cases effect with
  | unchanged => exact .stayed _ _ after
  | created written draft free =>
    rcases write_found after with before | ⟨rfl, rfl, rfl⟩
    · exact .stayed _ _ before
    · exact .created draft free rfl
  | updated written draft old found =>
    rcases write_found after with before | ⟨rfl, named, rfl⟩
    · exact .stayed _ _ before
    · exact .updated draft old (named ▸ found) named
  | patched written place change old found =>
    rcases write_found after with before | ⟨rfl, named, rfl⟩
    · exact .stayed _ _ before
    · have here : place = key := (Keyed.key_of_find? found).symm.trans ((key_patched change old).symm.trans named)
      subst here
      exact .patched change old found
  | deleted written place old found =>
    rcases write_found after with before | ⟨rfl, named, rfl⟩
    · exact .stayed _ _ before
    · have here : place = key := (Keyed.key_of_find? found).symm.trans named
      subst here
      exact .deleted old found

theorem serve_effect (circumstance : Circumstance) (cluster : Cluster) (request : Request) :
    Effect circumstance.uid circumstance.time cluster request (serve circumstance cluster request).2 := by
  unfold serve
  split
  · exact perform_effect _ _ _ _
  · exact .unchanged _
  · exact perform_effect _ _ _ _

/-- The kind of object that a request may change. -/
def Request.writes : Request → Option Kind
  | .create kind _ => some kind
  | .update kind _ => some kind
  | .patch kind _ _ => some kind
  | .delete kind _ => some kind
  | _ => none

section Serving
variable {circumstance : Circumstance} {cluster : Cluster} {request : Request}

theorem serve_served (served : circumstance.fate = .served) :
    serve circumstance cluster request = perform circumstance.uid circumstance.time cluster request := by
  simp [serve, served]

theorem serve_failed (failing : circumstance.fate ≠ .served) :
    ∃ message, (serve circumstance cluster request).1 = failed message circumstance.time request := by
  cases fate : circumstance.fate with
  | served => exact absurd fate failing
  | refused message => exact ⟨message, by simp [serve, fate]⟩
  | lost message => exact ⟨message, by simp [serve, fate]⟩

theorem serve_refused {message : String} (refused : circumstance.fate = .refused message) :
    (serve circumstance cluster request).2 = cluster := by simp [serve, refused]

theorem serve_performed (performed : ∀ message, circumstance.fate ≠ .refused message) :
    (serve circumstance cluster request).2 = (perform circumstance.uid circumstance.time cluster request).2 := by
  cases fate : circumstance.fate with
  | served => simp [serve, fate]
  | refused message => exact absurd fate (performed message)
  | lost message => simp [serve, fate]

/-- Nothing is created where something is. -/
theorem serve_create_taken {kind : Kind} {object taken : Object kind} (named : object.metadata.name ≠ "")
    (occupied : cluster.find kind object.key = some taken) :
    (serve circumstance cluster (.create kind object)).2 = cluster := by
  have nothing (uid : String) (time : Time) : (perform uid time cluster (.create kind object)).2 = cluster := by
    have taken : cluster.find kind (born uid time object).key = some taken := key_born named ▸ occupied
    rw [perform_create_taken taken]
  cases fate : circumstance.fate with
  | served => rw [serve_served fate, nothing]
  | refused message => exact serve_refused fate
  | lost message => rw [serve_performed (by simp [fate]), nothing]

theorem serve_reads (reads : request.writes = none) : (serve circumstance cluster request).2 = cluster := by
  generalize after : (serve circumstance cluster request).2 = result
  have effect := serve_effect circumstance cluster request
  rw [after] at effect
  cases effect with
  | unchanged => rfl
  | created | updated | patched | deleted => exact absurd reads (by simp [Request.writes])

theorem find_serve_of_writes {kind : Kind} (spares : request.writes ≠ some kind) (key : Key) :
    (serve circumstance cluster request).2.find kind key = cluster.find kind key := by
  generalize after : (serve circumstance cluster request).2 = result
  have effect := serve_effect circumstance cluster request
  rw [after] at effect
  cases effect with
  | unchanged => rfl
  | created other | updated other | patched other | deleted other =>
    exact find_write_of_kind _ _ (fun same => spares (congrArg some same.symm)) key

end Serving

end AibomWebhook.Kubernetes
