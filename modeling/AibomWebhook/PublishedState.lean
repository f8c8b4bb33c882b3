import AibomWebhook.FinalFlush
import AibomWebhook.SignerKeys
import AibomWebhook.Library.Checked

/-! What the dataset sidecar has published (scripts/aibom-scripts/dataset_sidecar.py). A
pass reads the time of the last change, then the text, then the signing key, while others
replace the file and the key comes and goes. -/

namespace AibomWebhook.PublishedState
open DatasetSidecar Kubernetes Objects PostprocessData Requests Signatures

/-- One version of the detection file. Without a text it cannot be parsed. -/
structure Version where
  mtime : Nat
  payload : Option String

/-- A sidecar with the names that the webhook gives it, and how many passes it makes before
it is told to stop. -/
structure Site where
  podName : String
  podNamespace : String
  dataConfigMap : String
  passes : Nat
  named : podName ≠ "" ∧ podNamespace ≠ "" ∧ dataConfigMap ≠ ""
  deriving DecidableEq

def Site.key (s : Site) : Key := (s.podNamespace, s.dataConfigMap)
def Site.jsonName (s : Site) : String := jsonKey .dataset s.podName
def Site.sigName (s : Site) : String := sigKey .dataset s.podName

/-- `remember` sets the loop's `last_mtime`, `finish` is the return of `_publish_final`. -/
inductive SidecarRequest where
  | stat
  | read
  | readKey
  | api (request : Request)
  | remember (lastMtime : Option Nat)
  | finish (gaveUp : Bool)

abbrev SidecarAnswer : SidecarRequest → Type
  | .stat => Option Nat
  | .read => Option String
  | .readKey => Option Sha256.Bytes
  | .api request => Response request
  | _ => Unit

abbrev SidecarCalls : Interface where
  Request := SidecarRequest
  Response := SidecarAnswer

abbrev SidecarProgram (α : Type) := Program SidecarCalls α

def send (request : SidecarRequest) : SidecarProgram (SidecarAnswer request) := Program.send (I := SidecarCalls) request

@[simp] theorem send_bind {α : Type} (request : SidecarRequest) (rest : SidecarAnswer request → SidecarProgram α) :
    (send request >>= rest) = .call request rest := rfl

/-- The calls to the API server. -/
def apiPart : Program.Part ApiServer SidecarCalls where
  request := .api
  answer _ response := response

/-- The payload with its signature under the key file, if that gives one. -/
def Site.dataUpdates (s : Site) (keyFile : Option Sha256.Bytes) (payload : String) : List (String × String) :=
  (s.jsonName, payload) ::
    match signPayload keyFile payload with
    | none => []
    | some signature => if signature = "" then [] else [(s.sigName, signature)]

def Site.publish (s : Site) (keyFile : Option Sha256.Bytes) (payload : String) : SidecarProgram (Except ApiError Unit) :=
  (patchConfigMap s.podNamespace s.dataConfigMap (s.dataUpdates keyFile payload)).within apiPart

def Site.runOnce (s : Site) (lastMtime : Option Nat) : SidecarProgram (Option Nat) := do
  match ← send .stat with
  | none => return lastMtime
  | some mtime =>
    if some mtime = lastMtime then return lastMtime
    else
      match ← send .read with
      | none => return lastMtime
      | some payload =>
        if s.podName = "" ∨ s.podNamespace = "" ∨ s.dataConfigMap = "" then return some mtime
        else do
          let keyFile ← send .readKey
          match ← s.publish keyFile payload with
          | .ok _ => return some mtime
          | .error _ => return lastMtime

def Site.publishFinal (s : Site) : Nat → Option Nat → SidecarProgram Unit
  | 0, _ => send (.finish true)
  | attempts + 1, lastMtime => do
    let lastMtime ← s.runOnce lastMtime
    send (.remember lastMtime)
    match ← send .stat with
    | none => send (.finish false)
    | some current => if some current = lastMtime then send (.finish false) else s.publishFinal attempts lastMtime

def Site.poll (s : Site) : Nat → Option Nat → SidecarProgram Unit
  | 0, lastMtime => s.publishFinal finalPublishAttempts lastMtime
  | passes + 1, lastMtime => do
    let lastMtime ← s.runOnce lastMtime
    send (.remember lastMtime)
    s.poll passes lastMtime

def Site.main (s : Site) : SidecarProgram Unit := s.poll s.passes none

/-! The pod and the cluster. -/

/-- `versions` lists all versions of the file, the current one last, and `looked` counts
those there were at the last look at the file. -/
structure State where
  cluster : Cluster
  versions : List Version
  looked : Nat
  keyFile : Option Sha256.Bytes
  lastMtime : Option Nat
  finished : Option Bool

def serve (circumstance : Circumstance) (state : State) : (request : SidecarRequest) → SidecarAnswer request × State
  | .stat => (state.versions.getLast?.map Version.mtime, { state with looked := state.versions.length })
  | .read => (state.versions.getLast?.bind Version.payload, state)
  | .readKey => (state.keyFile, state)
  | .api request => ((Kubernetes.serve circumstance state.cluster request).1,
      { state with cluster := (Kubernetes.serve circumstance state.cluster request).2 })
  | .remember lastMtime => ((), { state with lastMtime := lastMtime })
  | .finish gaveUp => ((), { state with finished := some gaveUp })

/-- The file is replaced, the key file changes, another pod's container writes. -/
inductive Deed where
  | replace (version : Version)
  | setKey (keyFile : Option Sha256.Bytes)
  | api (circumstance : Circumstance) (request : Request)

def State.act (deed : Deed) (state : State) : State :=
  match deed with
  | .replace version => { state with versions := state.versions ++ [version] }
  | .setKey keyFile => { state with keyFile := keyFile }
  | .api circumstance request => { state with cluster := (Kubernetes.serve circumstance state.cluster request).2 }

def publishing : System SidecarCalls State Site Site Deed Circumstance where
  resolve _ s := some s
  program := Site.main
  act := State.act
  serve := serve

abbrev SidecarWorld := World SidecarCalls State Site
abbrev SidecarMove := Move Site Deed Circumstance

/-- A write of these entries into the ConfigMap. -/
def Writes (key : Key) (entries : List (String × String)) (request : Request) : Prop :=
  request = .patch .configMap key (.mergeData entries) ∨
    request = .create .configMap (publishedConfigMap key.1 key.2 entries)

/-- One sidecar; each version has a time of its own; other pods write other entries. -/
def Permitted (s : Site) (world : SidecarWorld) : SidecarMove → Prop
  | .spawn site => site = s ∧ world.threads = []
  | .act (.replace version) => ∀ old ∈ world.shared.versions, old.mtime ≠ version.mtime
  | .act (.setKey _) => True
  | .act (.api _ request) => ∃ entries, Writes s.key entries request ∧
      ∀ entry ∈ entries, entry.1 ≠ s.jsonName ∧ entry.1 ≠ s.sigName
  | .serve _ _ => True

/-- What the data ConfigMap holds under a name. -/
def entryOf (key : Key) (name : String) (cluster : Cluster) : Option String :=
  (cluster.find .configMap key).bind fun cm => GoMap.lookup name cm.content.data

def textRead (entry : Served SidecarCalls State) : Option String :=
  match entry with
  | ⟨_, .read, text⟩ => text
  | _ => none

def Signs (keyFile : Option Sha256.Bytes) (payload : String) : Prop :=
  ∃ signature, signPayload keyFile payload = some signature ∧ signature ≠ ""

/-- A pass reads a key, unless no signature is stored or the payload is the stored one. -/
def KeepsSigning (s : Site) (world : SidecarWorld) : SidecarMove → Prop
  | .serve index _ => ∀ thread next payload, world.threads[index]? = some thread → thread.rest = .call .readKey next →
      (thread.past.filterMap textRead).getLast? = some payload → Signs world.shared.keyFile payload ∨
        entryOf s.key s.sigName world.shared.cluster = none ∨ entryOf s.key s.jsonName world.shared.cluster = some payload
  | _ => True

/-! The property. -/

/-- The time that the loop remembers is that of a version which is published, or a newer one is. -/
def AdvancesPublished (s : Site) (state : State) : Prop :=
  ∀ mtime, state.lastMtime = some mtime → ∃ (i k : Nat) (old new : Version) (payload : String), i ≤ k ∧
    state.versions[i]? = some old ∧ old.mtime = mtime ∧ state.versions[k]? = some new ∧ new.payload = some payload ∧
    entryOf s.key s.jsonName state.cluster = some payload

/-- Once `_publish_final` has not given up, the file's final content is published, if the
file was not replaced after the last look at it. -/
def FinalPublished (s : Site) (state : State) : Prop :=
  state.finished = some false → state.looked = state.versions.length → ∀ version, state.versions.getLast? = some version →
    ∃ payload, version.payload = some payload ∧ entryOf s.key s.jsonName state.cluster = some payload

/-- The stored signature is that of the stored payload, under a key that was there. -/
def SignedAsStored (s : Site) (world : SidecarWorld) : Prop :=
  ∀ payload signature, entryOf s.key s.jsonName world.shared.cluster = some payload →
    entryOf s.key s.sigName world.shared.cluster = some signature →
    ∃ state ∈ world.states, signPayload state.keyFile payload = some signature

/-! What a write does to the ConfigMap. -/

/-- The ConfigMap is not being deleted. -/
def Plain (key : Key) (cluster : Cluster) : Prop :=
  ∀ cm, cluster.find .configMap key = some cm → cm.metadata.deletionTimestamp = none

/-- What entries say of a name. -/
def written (entries : List (String × String)) (name : String) : Option String :=
  GoMap.lookup name (FinalFlush.merged entries none)

theorem lookup_merged (entries : List (String × String)) (map : GoMap) (name : String) :
    GoMap.lookup name (FinalFlush.merged entries map) = (written entries name).or (GoMap.lookup name map) := by
  induction entries generalizing map with
  | nil => rfl
  | cons entry rest ih =>
    have first : GoMap.lookup name (FinalFlush.merged (entry :: rest) map) =
        (written rest name).or (GoMap.lookup name (GoMap.set entry.1 entry.2 map)) := ih _
    have alone : written (entry :: rest) name =
        (written rest name).or (GoMap.lookup name (GoMap.set entry.1 entry.2 none)) := ih _
    rw [first, alone, Option.or_assoc]
    by_cases same : name = entry.1
    · subst same
      simp
    · rw [GoMap.lookup_set_of_ne same, GoMap.lookup_set_of_ne same, GoMap.lookup_none, Option.none_or]

def stores (request : Request) (response : Response request) : Bool :=
  match request, response with
  | .patch .., .ok _ => true
  | .create .., .ok _ => true
  | _, _ => false

section Write
variable {key : Key} {entries : List (String × String)} {cluster : Cluster} {request : Request}

/-- The write leaves the entries as they are, and is not said to have succeeded, or makes them. -/
structure Wrote (key : Key) (entries : List (String × String)) (cluster next : Cluster) (request : Request)
    (response : Response request) : Prop where
  plain : Plain key next
  entries : (∀ name, entryOf key name next = entryOf key name cluster) ∧ stores request response = false ∨
    ∀ name, entryOf key name next = (written entries name).or (entryOf key name cluster)

theorem wrote_nothing (plain : Plain key cluster) {response : Response request} (failed : stores request response = false) :
    Wrote key entries cluster cluster request response :=
  ⟨plain, Or.inl ⟨fun _ => rfl, failed⟩⟩

theorem wrote_object {cm : ConfigMap} {response : Response request} (named : cm.key = key)
    (alive : cm.metadata.deletionTimestamp = none)
    (content : ∀ name, GoMap.lookup name cm.content.data = (written entries name).or (entryOf key name cluster)) :
    Wrote key entries cluster (cluster.write cm) request response := by
  have stays : released cm = false := by simp [released, alive]
  have after := find_write_self cluster cm stays
  rw [named] at after
  refine ⟨fun found here => ?_, Or.inr fun name => ?_⟩
  · obtain rfl := Option.some.inj (after.symm.trans here)
    exact alive
  · rw [entryOf, after]
    exact content name

theorem perform_wrote (uid : String) (time : Time) (named : key.2 ≠ "") (plain : Plain key cluster)
    (writes : Writes key entries request) :
    Wrote key entries cluster (perform uid time cluster request).2 request (perform uid time cluster request).1 := by
  rcases writes with rfl | rfl
  · cases found : cluster.find .configMap key with
    | none =>
      simp only [perform, found]
      exact wrote_nothing plain rfl
    | some old =>
      simp only [perform, found, MergePatch.accepts, if_true]
      refine wrote_object ?_ (plain old found) fun name => ?_
      · rw [key_patched]
        exact Keyed.key_of_find? found
      · have here : entryOf key name cluster = GoMap.lookup name old.content.data := by rw [entryOf, found, Option.bind_some]
        rw [here]
        exact lookup_merged entries old.content.data name
  · have place : (born uid time (publishedConfigMap key.1 key.2 entries)).key = key := key_born named
    cases found : cluster.find .configMap (born uid time (publishedConfigMap key.1 key.2 entries)).key with
    | some taken =>
      simp only [perform, found]
      exact wrote_nothing plain rfl
    | none =>
      simp only [perform, found]
      refine wrote_object place rfl fun name => ?_
      have here : entryOf key name cluster = none := by
        rw [place] at found
        rw [entryOf, found, Option.bind_none]
      have data : (born uid time (publishedConfigMap key.1 key.2 entries)).content.data = GoMap.ofList entries := rfl
      rw [here, data, FinalFlush.merged_ofList, lookup_merged]
      rfl

theorem serve_wrote (circumstance : Circumstance) (named : key.2 ≠ "") (plain : Plain key cluster)
    (writes : Writes key entries request) :
    Wrote key entries cluster (Kubernetes.serve circumstance cluster request).2 request
      (Kubernetes.serve circumstance cluster request).1 := by
  have performed := perform_wrote circumstance.uid circumstance.time named plain writes
  have unanswered (message : String) : stores request (failed message circumstance.time request) = false := by
    rcases writes with rfl | rfl <;> rfl
  rw [Kubernetes.serve]
  split
  · exact performed
  · exact wrote_nothing plain (unanswered _)
  · refine ⟨performed.plain, ?_⟩
    rcases performed.entries with ⟨same, _⟩ | made
    · exact Or.inl ⟨same, unanswered _⟩
    · exact Or.inr made

end Write

section Updates
variable {s : Site} {keyFile : Option Sha256.Bytes} {payload : String}

theorem names_ne : s.jsonName ≠ s.sigName := jsonKey_ne_sigKey _ _ _ _

theorem written_of_absent {entries : List (String × String)} {name : String} (absent : ∀ entry ∈ entries, entry.1 ≠ name) :
    written entries name = none := by
  induction entries with
  | nil => rfl
  | cons entry rest ih =>
    have others := ih fun other member => absent other (List.mem_cons_of_mem _ member)
    have here : name ≠ entry.1 := (absent entry List.mem_cons_self).symm
    have first : written (entry :: rest) name = (written rest name).or (GoMap.lookup name (GoMap.set entry.1 entry.2 none)) :=
      lookup_merged rest _ name
    rw [first, others, GoMap.lookup_set_of_ne here]
    rfl

/-- The entries that are written: the payload, and its signature if there is one. -/
theorem written_updates : written (s.dataUpdates keyFile payload) s.jsonName = some payload ∧
    (Signs keyFile payload → written (s.dataUpdates keyFile payload) s.sigName = signPayload keyFile payload) ∧
    (¬Signs keyFile payload → written (s.dataUpdates keyFile payload) s.sigName = none) := by
  have json (rest : List (String × String)) (others : ∀ entry ∈ rest, entry.1 ≠ s.jsonName) :
      written ((s.jsonName, payload) :: rest) s.jsonName = some payload := by
    have first : written ((s.jsonName, payload) :: rest) s.jsonName =
        (written rest s.jsonName).or (GoMap.lookup s.jsonName (GoMap.set s.jsonName payload none)) :=
      lookup_merged rest _ s.jsonName
    rw [first, written_of_absent others, GoMap.lookup_set_self]
    rfl
  have alone : written [(s.jsonName, payload)] s.sigName = none :=
    written_of_absent (by simpa using names_ne)
  cases signed : signPayload keyFile payload with
  | none =>
    have unsigned : ¬Signs keyFile payload := by
      rintro ⟨signature, given, _⟩
      simp [signed] at given
    simp only [Site.dataUpdates, signed]
    exact ⟨json [] (by simp), fun signs => absurd signs unsigned, fun _ => alone⟩
  | some signature =>
    by_cases empty : signature = ""
    · have unsigned : ¬Signs keyFile payload := by
        rintro ⟨other, given, filled⟩
        rw [signed] at given
        exact filled ((Option.some.inj given).symm.trans empty)
      simp only [Site.dataUpdates, signed, if_pos empty]
      exact ⟨json [] (by simp), fun signs => absurd signs unsigned, fun _ => alone⟩
    · have signs : Signs keyFile payload := ⟨signature, signed, empty⟩
      simp only [Site.dataUpdates, signed, if_neg empty]
      refine ⟨json _ (by simpa using names_ne.symm), fun _ => ?_, fun unsigned => absurd signs unsigned⟩
      have first : written [(s.jsonName, payload), (s.sigName, signature)] s.sigName =
          (written [(s.sigName, signature)] s.sigName).or
            (GoMap.lookup s.sigName (GoMap.set s.jsonName payload none)) :=
        lookup_merged [(s.sigName, signature)] _ s.sigName
      rw [first]
      have last : written [(s.sigName, signature)] s.sigName = some signature := GoMap.lookup_set_self _ _ _
      rw [last, Option.some_or]

end Updates

/-! What the sidecar knows in a pass. -/

/-- `last_mtime`, what the last look at the file gave, what was read, and whether it was stored. -/
structure Knowledge where
  last : Option Nat
  seen : Option (Option Nat)
  payload : Option String
  keyFile : Option (Option Sha256.Bytes)
  stored : Bool

def Knowledge.nothing : Knowledge where
  last := none
  seen := none
  payload := none
  keyFile := none
  stored := false

def learn (known : Knowledge) (request : SidecarRequest) (response : SidecarAnswer request) : Knowledge :=
  match request, response with
  | .stat, seen => { known with seen := some seen, payload := none, keyFile := none, stored := false }
  | .read, text => { known with payload := text, keyFile := none, stored := false }
  | .readKey, keyFile => { known with keyFile := some keyFile }
  | .api request, response => { known with stored := known.stored || stores request response }
  | .remember lastMtime, _ => { known with last := lastMtime }
  | .finish _, _ => known

def Demand (s : Site) (known : Knowledge) (request : SidecarRequest)
    (next : SidecarAnswer request → SidecarProgram Unit) : Prop :=
  match request, next with
  | .api request, _ => ∃ payload keyFile, known.payload = some payload ∧ known.keyFile = some keyFile ∧
      Writes s.key (s.dataUpdates keyFile payload) request
  | .remember lastMtime, _ => lastMtime = known.last ∨
      ∃ mtime, lastMtime = some mtime ∧ known.seen = some (some mtime) ∧ known.stored = true
  | .finish gaveUp, next => next () = .done () ∧ (gaveUp = true ∨ known.seen = some none ∨
      ∃ mtime, known.seen = some (some mtime) ∧ known.last = some mtime)
  | _, _ => True

/-- The sidecar goes by what it knows. -/
def Careful (s : Site) (known : Knowledge) (rest : SidecarProgram Unit) : Prop :=
  rest.Tracked (fun _ _ => True) learn (Demand s) known

section Programs
variable {s : Site} {rest : Option Nat → SidecarProgram Unit}

theorem publish_careful {last : Option Nat} {seen : Option (Option Nat)} {payload : String}
    {keyFile : Option Sha256.Bytes} {next : Except ApiError Unit → SidecarProgram Unit}
    (stored : Careful s ⟨last, seen, some payload, some keyFile, true⟩ (next (.ok ())))
    (failed : ∀ error, Careful s ⟨last, seen, some payload, some keyFile, false⟩ (next (.error error))) :
    Careful s ⟨last, seen, some payload, some keyFile, false⟩ (s.publish keyFile payload >>= next) := by
  have writes {request : Request} (writes : Writes s.key (s.dataUpdates keyFile payload) request) :
      ∃ text file, (some payload) = some text ∧ some keyFile = some file ∧ Writes s.key (s.dataUpdates file text) request :=
    ⟨payload, keyFile, rfl, rfl, writes⟩
  refine ⟨writes (Or.inl rfl), fun response _ => ?_⟩
  cases response with
  | ok patched => exact stored
  | error error =>
    cases error with
    | notFound =>
      refine ⟨writes (Or.inr rfl), fun response _ => ?_⟩
      cases response with
      | ok created => exact stored
      | error error =>
        by_cases lost : error ≠ .alreadyExists ∧ error ≠ .conflict
        · have ends := failed error
          change Careful s _ ((Program.within apiPart (if error ≠ .alreadyExists ∧ error ≠ .conflict then .done (.error error)
            else _)).bind next)
          rw [if_pos lost]
          exact ends
        · change Careful s _ ((Program.within apiPart (if error ≠ .alreadyExists ∧ error ≠ .conflict then .done (.error error)
            else _)).bind next)
          rw [if_neg lost]
          refine ⟨writes (Or.inl rfl), fun response _ => ?_⟩
          cases response with
          | ok patched => exact stored
          | error error => exact failed error
    | alreadyExists => exact failed .alreadyExists
    | conflict => exact failed .conflict
    | other message => exact failed (.other message)

/-- A pass ends with the time that it started from, or with that of what it has stored. -/
theorem runOnce_careful {last : Option Nat} {known : Knowledge} (before : known.last = last)
    (same : ∀ known, known.last = last → Careful s known (rest last))
    (advanced : ∀ known mtime, known.last = last → known.seen = some (some mtime) → known.stored = true →
      Careful s known (rest (some mtime))) : Careful s known (s.runOnce last >>= rest) := by
  refine ⟨trivial, fun found _ => ?_⟩
  cases found with
  | none => exact same _ before
  | some mtime =>
    change Careful s _ ((if some mtime = last then .done last else _) >>= rest)
    by_cases unchanged : some mtime = last
    · rw [if_pos unchanged]
      exact same _ before
    · rw [if_neg unchanged]
      refine ⟨trivial, fun text _ => ?_⟩
      cases text with
      | none => exact same _ before
      | some payload =>
        change Careful s _ ((if s.podName = "" ∨ s.podNamespace = "" ∨ s.dataConfigMap = "" then .done (some mtime) else _) >>= rest)
        have named : ¬(s.podName = "" ∨ s.podNamespace = "" ∨ s.dataConfigMap = "") := by simp [s.named]
        rw [if_neg named]
        refine ⟨trivial, fun keyFile _ => ?_⟩
        change Careful s ⟨known.last, some (some mtime), some payload, some keyFile, false⟩
          ((s.publish keyFile payload >>= _) >>= rest)
        rw [bind_assoc]
        refine publish_careful ?_ fun error => ?_
        · exact advanced _ mtime before rfl rfl
        · exact same _ before

/-- A pass whose result is remembered. -/
theorem pass_careful {last : Option Nat} {known : Knowledge} (before : known.last = last)
    (later : ∀ last known, known.last = last → Careful s known (rest last)) :
    Careful s known (s.runOnce last >>= fun last => send (.remember last) >>= fun _ => rest last) := by
  refine runOnce_careful before (fun known same => ?_) (fun known mtime _ seen stored => ?_)
  · exact ⟨Or.inl same.symm, fun _ _ => later last _ rfl⟩
  · exact ⟨Or.inr ⟨mtime, rfl, seen, stored⟩, fun _ _ => later (some mtime) _ rfl⟩

theorem publishFinal_careful (attempts : Nat) :
    ∀ last known, known.last = last → Careful s known (s.publishFinal attempts last) := by
  induction attempts with
  | zero => exact fun last known _ => ⟨⟨rfl, Or.inl rfl⟩, fun _ _ => trivial⟩
  | succ attempts ih =>
    intro last known before
    refine pass_careful before fun last known same => ⟨trivial, fun current _ => ?_⟩
    cases current with
    | none => exact ⟨⟨rfl, Or.inr (Or.inl rfl)⟩, fun _ _ => trivial⟩
    | some current =>
      change Careful s _ (if some current = last then send (.finish false) else s.publishFinal attempts last)
      by_cases reached : some current = last
      · rw [if_pos reached]
        exact ⟨⟨rfl, Or.inr (Or.inr ⟨current, rfl, same.trans reached.symm⟩)⟩, fun _ _ => trivial⟩
      · rw [if_neg reached]
        exact ih last _ same

theorem poll_careful (passes : Nat) : ∀ last known, known.last = last → Careful s known (s.poll passes last) := by
  induction passes with
  | zero => exact publishFinal_careful finalPublishAttempts
  | succ passes ih => exact fun last known before => pass_careful before ih

theorem main_careful : Careful s .nothing s.main := poll_careful s.passes none .nothing rfl

end Programs

/-! What the sidecar knows is so. -/

section Facts
variable (s : Site) (states : List State) (state : State)

/-- A version no older than the one of this time has this text. -/
def Newer (mtime : Nat) (k : Nat) : Prop := ∃ (i : Nat) (old : Version), i ≤ k ∧ state.versions[i]? = some old ∧ old.mtime = mtime

def TextOf (k : Nat) (payload : String) : Prop :=
  ∃ version, state.versions[k]? = some version ∧ version.payload = some payload

def Stored (payload : String) : Prop := entryOf s.key s.jsonName state.cluster = some payload

/-- An unsigned write does no harm. -/
def Unsigned (payload : String) : Prop := entryOf s.key s.sigName state.cluster = none ∨ Stored s state payload

structure Aware (known : Knowledge) : Prop where
  last : state.lastMtime = known.last
  published : ∀ mtime, known.last = some mtime → ∃ k payload, Newer state mtime k ∧ TextOf state k payload ∧
    Stored s state payload
  seen : ∀ mtime, known.seen = some (some mtime) → 0 < state.looked ∧ ∃ version,
    state.versions[state.looked - 1]? = some version ∧ version.mtime = mtime
  unseen : known.seen = some none → state.looked = 0
  payload : ∀ payload, known.payload = some payload → ∃ k, state.looked - 1 ≤ k ∧ TextOf state k payload ∧
    ∀ mtime, known.last = some mtime → Newer state mtime k
  keyFile : ∀ keyFile payload, known.keyFile = some keyFile → known.payload = some payload →
    (∃ old ∈ states, old.keyFile = keyFile) ∧ (Signs keyFile payload ∨ Unsigned s state payload)
  stored : known.stored = true → ∃ payload, known.payload = some payload ∧ Stored s state payload

end Facts

section Steps
variable {s : Site} {states later : List State} {state next : State} {known : Knowledge}

theorem Newer.mono {mtime k : Nat} {more : List Version} (newer : Newer state mtime k)
    (grown : next.versions = state.versions ++ more) : Newer next mtime k := by
  obtain ⟨i, old, within, found, time⟩ := newer
  refine ⟨i, old, within, ?_, time⟩
  rw [grown, List.getElem?_append_left (List.getElem?_eq_some_iff.mp found).1]
  exact found

theorem TextOf.mono {k : Nat} {payload : String} {more : List Version} (text : TextOf state k payload)
    (grown : next.versions = state.versions ++ more) : TextOf next k payload := by
  obtain ⟨version, found, here⟩ := text
  refine ⟨version, ?_, here⟩
  rw [grown, List.getElem?_append_left (List.getElem?_eq_some_iff.mp found).1]
  exact found

/-- What leaves the sidecar's own entries alone leaves its knowledge right. -/
theorem Aware.outlasts {more : List Version} (aware : Aware s states state known)
    (grown : next.versions = state.versions ++ more) (looked : next.looked = state.looked)
    (last : next.lastMtime = state.lastMtime)
    (json : entryOf s.key s.jsonName next.cluster = entryOf s.key s.jsonName state.cluster)
    (sig : entryOf s.key s.sigName next.cluster = entryOf s.key s.sigName state.cluster)
    (all : ∀ old ∈ states, old ∈ later) : Aware s later next known := by
  have stored (payload : String) : Stored s next payload ↔ Stored s state payload := by rw [Stored, Stored, json]
  have unsigned (payload : String) : Unsigned s next payload ↔ Unsigned s state payload := by
    rw [Unsigned, Unsigned, sig, stored]
  refine { last := last.trans aware.last, published := fun mtime here => ?_, seen := fun mtime here => ?_
           unseen := fun here => looked.trans (aware.unseen here), payload := fun payload here => ?_
           keyFile := fun keyFile payload read text => ?_, stored := fun here => ?_ }
  · obtain ⟨k, payload, newer, text, now⟩ := aware.published mtime here
    exact ⟨k, payload, newer.mono grown, text.mono grown, (stored payload).mpr now⟩
  · obtain ⟨some, version, found, time⟩ := aware.seen mtime here
    rw [looked]
    refine ⟨some, version, ?_, time⟩
    rw [grown, List.getElem?_append_left (List.getElem?_eq_some_iff.mp found).1]
    exact found
  · obtain ⟨k, within, text, newer⟩ := aware.payload payload here
    rw [looked]
    exact ⟨k, within, text.mono grown, fun mtime last => (newer mtime last).mono grown⟩
  · obtain ⟨⟨old, member, same⟩, harmless⟩ := aware.keyFile keyFile payload read text
    exact ⟨⟨old, all old member, same⟩, harmless.imp_right (unsigned payload).mpr⟩
  · obtain ⟨payload, text, now⟩ := aware.stored here
    exact ⟨payload, text, (stored payload).mpr now⟩

variable {circumstance : Circumstance}

theorem Aware.stat (aware : Aware s states state known) :
    Aware s later (serve circumstance state .stat).2 (learn known .stat (serve circumstance state .stat).1) := by
  refine { last := aware.last, published := aware.published, seen := fun mtime here => ?_, unseen := fun here => ?_
           payload := fun payload here => (by cases here), keyFile := fun keyFile payload here => (by cases here)
           stored := fun here => (by cases here) }
  · have found : state.versions.getLast?.map Version.mtime = some mtime := Option.some.inj here
    obtain ⟨version, last, time⟩ := Option.map_eq_some_iff.mp found
    have filled : state.versions ≠ [] := by
      rintro empty
      simp [empty] at last
    refine ⟨List.length_pos_iff.mpr filled, version, ?_, time⟩
    rw [List.getLast?_eq_getElem?] at last
    exact last
  · have none : state.versions.getLast?.map Version.mtime = none := Option.some.inj here
    rw [Option.map_eq_none_iff, List.getLast?_eq_none_iff] at none
    exact List.length_eq_zero_iff.mpr none

theorem Aware.read (aware : Aware s states state known) (looked : state.looked ≤ state.versions.length) :
    Aware s later state (learn known .read (serve circumstance state .read).1) := by
  refine { last := aware.last, published := aware.published, seen := aware.seen, unseen := aware.unseen
           payload := fun payload here => ?_, keyFile := fun keyFile payload here => (by cases here)
           stored := fun here => (by cases here) }
  obtain ⟨version, last, text⟩ := Option.bind_eq_some_iff.mp here
  rw [List.getLast?_eq_getElem?] at last
  refine ⟨state.versions.length - 1, Nat.sub_le_sub_right looked 1, ⟨version, last, text⟩, fun mtime remembered => ?_⟩
  obtain ⟨k, _, ⟨i, old, within, found, time⟩, ⟨_, there, _⟩, _⟩ := aware.published mtime remembered
  have inside := (List.getElem?_eq_some_iff.mp there).1
  exact ⟨i, old, by omega, found, time⟩

theorem Aware.readKey (aware : Aware s states state known) (present : state ∈ later)
    (harmless : ∀ payload, known.payload = some payload → Signs state.keyFile payload ∨ Unsigned s state payload) :
    Aware s later state (learn known .readKey (serve circumstance state .readKey).1) := by
  refine { last := aware.last, published := aware.published, seen := aware.seen, unseen := aware.unseen
           payload := aware.payload, keyFile := fun keyFile payload read text => ?_, stored := aware.stored }
  obtain rfl : state.keyFile = keyFile := Option.some.inj read
  exact ⟨⟨state, present, rfl⟩, harmless payload text⟩

theorem Aware.remember {last : Option Nat} (aware : Aware s states state known) (all : ∀ old ∈ states, old ∈ later)
    (demand : last = known.last ∨ ∃ mtime, last = some mtime ∧ known.seen = some (some mtime) ∧ known.stored = true) :
    Aware s later { state with lastMtime := last } { known with last := last } := by
  rcases demand with rfl | ⟨mtime, rfl, seen, stored⟩
  · have same : ({ state with lastMtime := known.last } : State) = state := by
      obtain ⟨cluster, versions, looked, keyFile, lastMtime, finished⟩ := state
      obtain rfl : lastMtime = known.last := aware.last
      rfl
    rw [same]
    exact aware.outlasts (List.append_nil _).symm rfl rfl rfl rfl all
  · obtain ⟨payload, text, now⟩ := aware.stored stored
    obtain ⟨k, within, here, _⟩ := aware.payload payload text
    obtain ⟨_, version, found, time⟩ := aware.seen mtime seen
    have newer : Newer state mtime k := ⟨state.looked - 1, version, within, found, time⟩
    refine { last := rfl, published := ?_, seen := aware.seen, unseen := aware.unseen, payload := ?_
             keyFile := ?_, stored := aware.stored }
    · rintro other ⟨⟩
      exact ⟨k, payload, newer, here, now⟩
    · intro other read
      obtain rfl : payload = other := Option.some.inj (text.symm.trans read)
      refine ⟨k, within, here, ?_⟩
      rintro other ⟨⟩
      exact newer
    · intro keyFile other read given
      obtain ⟨⟨old, member, same⟩, harmless⟩ := aware.keyFile keyFile other read given
      exact ⟨⟨old, all old member, same⟩, harmless⟩

/-- The pairs that are stored under the sidecar's names are signed. -/
def Signed (s : Site) (states : List State) (cluster : Cluster) : Prop :=
  ∀ payload signature, entryOf s.key s.jsonName cluster = some payload → entryOf s.key s.sigName cluster = some signature →
    ∃ state ∈ states, signPayload state.keyFile payload = some signature

theorem Aware.api {request : Request} (aware : Aware s states state known) (plain : Plain s.key state.cluster)
    (signed : Signed s states state.cluster) (all : ∀ old ∈ states, old ∈ later)
    (demand : ∃ payload keyFile, known.payload = some payload ∧ known.keyFile = some keyFile ∧
      Writes s.key (s.dataUpdates keyFile payload) request) :
    Aware s later (serve circumstance state (.api request)).2
        (learn known (.api request) (serve circumstance state (.api request)).1) ∧
      Plain s.key (serve circumstance state (.api request)).2.cluster ∧
      Signed s later (serve circumstance state (.api request)).2.cluster := by
  obtain ⟨payload, keyFile, text, read, writes⟩ := demand
  have wrote : Wrote s.key (s.dataUpdates keyFile payload) state.cluster (serve circumstance state (.api request)).2.cluster
      request (serve circumstance state (.api request)).1 := serve_wrote circumstance s.named.2.2 plain writes
  obtain ⟨k, within, here, newer⟩ := aware.payload payload text
  obtain ⟨⟨old, member, same⟩, harmless⟩ := aware.keyFile keyFile payload read text
  rcases wrote.entries with ⟨entries, failed⟩ | entries
  · have kept : Aware s later (serve circumstance state (.api request)).2 known :=
      aware.outlasts (List.append_nil _).symm rfl rfl (entries _) (entries _) all
    refine ⟨{ kept with stored := fun here => kept.stored ?_ }, wrote.plain, fun payload signature json sig => ?_⟩
    · have unsaid : stores request (Kubernetes.serve circumstance state.cluster request).1 = false := failed
      simpa [learn, serve, unsaid] using here
    · obtain ⟨old, member, same⟩ := signed payload signature ((entries _).symm.trans json) ((entries _).symm.trans sig)
      exact ⟨old, all old member, same⟩
  · obtain ⟨json, sign, unsign⟩ := @written_updates s keyFile payload
    have now : Stored s (serve circumstance state (.api request)).2 payload :=
      (entries s.jsonName).trans (by rw [json, Option.some_or])
    refine ⟨?_, wrote.plain, fun other signature first second => ?_⟩
    · refine { last := aware.last, published := fun mtime last => ?_, seen := aware.seen, unseen := aware.unseen
               payload := aware.payload, keyFile := fun file other given seen => ?_, stored := fun _ => ⟨payload, text, now⟩ }
      · exact ⟨k, payload, newer mtime last, here, now⟩
      · obtain rfl : payload = other := Option.some.inj (text.symm.trans seen)
        obtain rfl : keyFile = file := Option.some.inj (read.symm.trans given)
        exact ⟨⟨old, all old member, same⟩, Or.inr (Or.inr now)⟩
    · obtain rfl : payload = other := Option.some.inj (now.symm.trans first)
      have held : entryOf s.key s.sigName (serve circumstance state (.api request)).2.cluster =
          (written (s.dataUpdates keyFile payload) s.sigName).or (entryOf s.key s.sigName state.cluster) := entries _
      rw [second] at held
      by_cases signs : Signs keyFile payload
      · obtain ⟨given, under, _⟩ := signs
        rw [sign ⟨given, under, by assumption⟩, under, Option.some_or] at held
        refine ⟨old, all old member, ?_⟩
        rw [same, under]
        exact held.symm
      · rw [unsign signs, Option.none_or] at held
        rcases harmless.resolve_left signs with none | before
        · rw [none] at held
          cases held
        · obtain ⟨first, there, under⟩ := signed payload signature before held.symm
          exact ⟨first, all first there, under⟩

end Steps

/-! The whole run. -/

abbrev SidecarThread := Thread SidecarCalls State Site

/-- The text that a thread has read last is the one that it goes by. -/
def Reads (thread : SidecarThread) (known : Knowledge) : Prop :=
  ∀ payload, known.payload = some payload → (thread.past.filterMap textRead).getLast? = some payload

structure Sound (s : Site) (world : SidecarWorld) : Prop where
  plain : Plain s.key world.shared.cluster
  distinct : (world.shared.versions.map Version.mtime).Nodup
  looked : world.shared.looked ≤ world.shared.versions.length
  signed : SignedAsStored s world
  final : FinalPublished s world.shared
  idle : world.threads = [] → world.shared.lastMtime = none ∧ world.shared.looked = 0 ∧ world.shared.finished = none
  alone : world.threads = [] ∨ ∃ thread, world.threads = [thread]
  ended : world.shared.finished ≠ none → ∀ thread ∈ world.threads, thread.rest = .done ()
  aware : ∀ thread ∈ world.threads, ∃ known, Careful s known thread.rest ∧
    Aware s world.states world.shared known ∧ Reads thread known

/-- A pod that has just started. -/
structure Fresh (s : Site) (start : SidecarWorld) : Prop where
  threads : start.threads = []
  plain : Plain s.key start.shared.cluster
  json : entryOf s.key s.jsonName start.shared.cluster = none
  distinct : (start.shared.versions.map Version.mtime).Nodup
  looked : start.shared.looked = 0
  lastMtime : start.shared.lastMtime = none
  finished : start.shared.finished = none

theorem Sound.start {s : Site} {start : SidecarWorld} (fresh : Fresh s start) : Sound s start where
  plain := fresh.plain
  distinct := fresh.distinct
  looked := by rw [fresh.looked]; exact Nat.zero_le _
  signed payload signature json := by
    rw [fresh.json] at json
    cases json
  final done := by
    rw [fresh.finished] at done
    cases done
  idle _ := ⟨fresh.lastMtime, fresh.looked, fresh.finished⟩
  alone := Or.inl fresh.threads
  ended := by simp [fresh.threads]
  aware := by simp [fresh.threads]

section Moves
variable {s : Site} {world : SidecarWorld}

theorem Sound.spawn (sound : Sound s world) (none : world.threads = []) :
    Sound s { world with threads := world.threads ++ [publishing.started s] } := by
  obtain ⟨last, looked, finished⟩ := sound.idle none
  refine { sound with idle := ?_, alone := ?_, ended := ?_, aware := ?_ }
  · simp
  · exact Or.inr ⟨_, by rw [none]; rfl⟩
  · exact fun done => absurd finished done
  · intro thread member
    rw [none, List.nil_append, List.mem_singleton] at member
    subst member
    refine ⟨.nothing, main_careful, ⟨last, ?_, ?_, ?_, ?_, ?_, ?_⟩, ?_⟩ <;>
      simp [Knowledge.nothing, Reads]

/-- What others do leaves everything as it is but the versions and the key. -/
theorem Sound.act (sound : Sound s world) {deed : Deed} (allowed : Permitted s world (.act deed)) :
    Sound s { world with shared := world.shared.act deed, history := world.states } := by
  have all : ∀ old ∈ world.states, old ∈ world.states ++ [world.shared.act deed] := fun old member =>
    List.mem_append_left _ member
  -- Nothing that a deed does touches the sidecar's entries.
  have kept : Plain s.key (world.shared.act deed).cluster ∧
      entryOf s.key s.jsonName (world.shared.act deed).cluster = entryOf s.key s.jsonName world.shared.cluster ∧
      entryOf s.key s.sigName (world.shared.act deed).cluster = entryOf s.key s.sigName world.shared.cluster := by
    cases deed with
    | replace version => exact ⟨sound.plain, rfl, rfl⟩
    | setKey keyFile => exact ⟨sound.plain, rfl, rfl⟩
    | api circumstance request =>
      obtain ⟨entries, writes, others⟩ := allowed
      have wrote := serve_wrote circumstance s.named.2.2 sound.plain writes
      refine ⟨wrote.plain, ?_, ?_⟩
      · rcases wrote.entries with ⟨same, _⟩ | made
        · exact same _
        · have absent := written_of_absent fun entry member => (others entry member).1
          exact (made _).trans (by rw [absent, Option.none_or])
      · rcases wrote.entries with ⟨same, _⟩ | made
        · exact same _
        · have absent := written_of_absent fun entry member => (others entry member).2
          exact (made _).trans (by rw [absent, Option.none_or])
  obtain ⟨plain, json, sig⟩ := kept
  have rest : (world.shared.act deed).looked = world.shared.looked ∧
      (world.shared.act deed).lastMtime = world.shared.lastMtime ∧
      (world.shared.act deed).finished = world.shared.finished := by cases deed <;> exact ⟨rfl, rfl, rfl⟩
  have grown : ∃ more, (world.shared.act deed).versions = world.shared.versions ++ more := by
    cases deed with
    | replace version => exact ⟨[version], rfl⟩
    | _ => exact ⟨[], (List.append_nil _).symm⟩
  obtain ⟨more, versions⟩ := grown
  refine { plain := plain, distinct := ?_, looked := ?_, signed := ?_, final := ?_, idle := ?_, alone := sound.alone
           ended := ?_, aware := ?_ }
  · cases deed with
    | replace version =>
      simp only [State.act, List.map_append]
      refine List.nodup_append.mpr ⟨sound.distinct, List.nodup_singleton _, ?_⟩
      intro time old other last
      obtain ⟨version', member, rfl⟩ := List.mem_map.mp old
      obtain rfl := List.mem_singleton.mp last
      exact allowed version' member
    | _ => exact sound.distinct
  · rw [rest.1, versions, List.length_append]
    exact sound.looked.trans (Nat.le_add_right _ _)
  · intro payload signature first second
    obtain ⟨old, member, same⟩ := sound.signed payload signature (json.symm.trans first) (sig.symm.trans second)
    exact ⟨old, all old member, same⟩
  · intro done looked version last
    simp only [rest.1, rest.2.2, versions, List.length_append] at done looked last
    have none : more = [] := by
      have within := sound.looked
      exact List.length_eq_zero_iff.mp (by omega)
    subst none
    rw [List.append_nil] at last
    obtain ⟨payload, text, now⟩ := sound.final done (by simpa using looked) version last
    exact ⟨payload, text, json.trans now⟩
  · simp only [rest.1, rest.2.1, rest.2.2]
    exact sound.idle
  · simp only [rest.2.2]
    exact sound.ended
  · intro thread member
    obtain ⟨known, careful, aware, reads⟩ := sound.aware thread member
    exact ⟨known, careful, aware.outlasts versions rest.1 rest.2.1 json sig all, reads⟩

section Serve
variable {index : Nat} {thread : SidecarThread} {circumstance : Circumstance} {request : SidecarRequest}
  {rest : SidecarAnswer request → SidecarProgram Unit}

private abbrev advanced (circumstance : Circumstance) (world : SidecarWorld) (thread : SidecarThread)
    (request : SidecarRequest) (rest : SidecarAnswer request → SidecarProgram Unit) : SidecarThread :=
  { owner := thread.owner
    past := thread.past ++ [⟨world.shared, request, (serve circumstance world.shared request).1⟩]
    rest := rest (serve circumstance world.shared request).1 }

theorem Reads.served {known : Knowledge} (reads : Reads thread known) :
    Reads (advanced circumstance world thread request rest)
      (learn known request (serve circumstance world.shared request).1) := by
  intro payload here
  have past : (advanced circumstance world thread request rest).past.filterMap textRead =
      thread.past.filterMap textRead ++
        (textRead ⟨world.shared, request, (serve circumstance world.shared request).1⟩).toList := by
    rw [List.filterMap_append]
    cases text : textRead ⟨world.shared, request, (serve circumstance world.shared request).1⟩ <;> simp [text]
  rw [past]
  cases request with
  | stat => cases here
  | read =>
    have now : textRead ⟨world.shared, .read, (serve circumstance world.shared .read).1⟩ = some payload := here
    rw [now]
    simp
  | _ =>
    have before := reads payload here
    simpa [textRead] using before

/-- The last content is published when the sidecar returns without giving up. -/
theorem final_of_finish {gaveUp : Bool} {known : Knowledge} (sound : Sound s world)
    (aware : Aware s world.states world.shared known) (demand : gaveUp = true ∨ known.seen = some none ∨
      ∃ mtime, known.seen = some (some mtime) ∧ known.last = some mtime) :
    FinalPublished s { world.shared with finished := some gaveUp } := by
  intro done looked version last
  obtain rfl : gaveUp = false := Option.some.inj done
  dsimp only at looked last
  rcases demand with up | none | ⟨mtime, seen, remembered⟩
  · cases up
  · rw [aware.unseen none] at looked
    rw [List.length_eq_zero_iff.mp looked.symm] at last
    cases last
  · obtain ⟨some, current, found, time⟩ := aware.seen mtime seen
    obtain ⟨k, payload, ⟨i, old, within, there, sameTime⟩, ⟨new, here, text⟩, now⟩ := aware.published mtime remembered
    have bound := (List.getElem?_eq_some_iff.mp here).1
    -- The version of that time is the current one, and no version is newer.
    have only : i = world.shared.looked - 1 := by
      refine (List.getElem?_inj (by simpa using (List.getElem?_eq_some_iff.mp there).1) sound.distinct).mp ?_
      rw [List.getElem?_map, List.getElem?_map, there, found]
      exact congrArg Option.some (sameTime.trans time.symm)
    obtain rfl : k = world.shared.versions.length - 1 := by omega
    rw [List.getLast?_eq_getElem?, here] at last
    obtain rfl := Option.some.inj last
    exact ⟨payload, text, now⟩

theorem Sound.serve (sound : Sound s world) (found : world.threads[index]? = some thread)
    (calls : thread.rest = .call request rest) (keeps : KeepsSigning s world (.serve index circumstance)) :
    Sound s { shared := (serve circumstance world.shared request).2
              history := world.states
              threads := world.threads.set index (advanced circumstance world thread request rest) } := by
  have here : thread ∈ world.threads := List.mem_of_getElem? found
  obtain ⟨known, careful, aware, reads⟩ := sound.aware thread here
  rw [calls] at careful
  obtain ⟨demand, later⟩ := careful
  have running : world.shared.finished = none := by
    by_contra done
    have ended := sound.ended done thread here
    rw [calls] at ended
    cases ended
  have threads : world.threads.set index (advanced circumstance world thread request rest) =
      [advanced circumstance world thread request rest] := by
    rcases sound.alone with none | ⟨only, single⟩
    · rw [none] at here
      cases here
    · rw [single] at found ⊢
      obtain ⟨place, _⟩ := List.getElem?_eq_some_iff.mp found
      obtain rfl : index = 0 := Nat.lt_one_iff.mp place
      rfl
  have member (state : State) (old : state ∈ world.states) : state ∈ world.states ++
      [(PublishedState.serve circumstance world.shared request).2] := List.mem_append_left _ old
  have now : world.shared ∈ world.states := List.mem_append_right _ (List.mem_singleton_self _)
  -- It is left to say what the step does to the state and to the knowledge.
  suffices done : Plain s.key (PublishedState.serve circumstance world.shared request).2.cluster ∧
      Signed s (world.states ++ [(PublishedState.serve circumstance world.shared request).2])
        (PublishedState.serve circumstance world.shared request).2.cluster ∧
      (PublishedState.serve circumstance world.shared request).2.versions = world.shared.versions ∧
      (PublishedState.serve circumstance world.shared request).2.looked ≤ world.shared.versions.length ∧
      FinalPublished s (PublishedState.serve circumstance world.shared request).2 ∧
      ((PublishedState.serve circumstance world.shared request).2.finished ≠ none →
        rest (PublishedState.serve circumstance world.shared request).1 = .done ()) ∧
      Aware s (world.states ++ [(PublishedState.serve circumstance world.shared request).2])
        (PublishedState.serve circumstance world.shared request).2
        (learn known request (PublishedState.serve circumstance world.shared request).1) by
    obtain ⟨plain, signed, versions, looked, final, ended, aware⟩ := done
    refine { plain := plain, distinct := by rw [versions]; exact sound.distinct, looked := by rw [versions]; exact looked
             signed := signed, final := final, idle := ?_, alone := Or.inr ⟨_, threads⟩, ended := ?_, aware := ?_ }
    · rw [threads]
      exact fun none => by cases none
    · rw [threads]
      intro finished other single
      rw [List.mem_singleton.mp single]
      exact ended finished
    · rw [threads]
      intro other single
      rw [List.mem_singleton.mp single]
      exact ⟨_, later _ trivial, aware, reads.served⟩
  have unfinished (next : State) (same : next.finished = world.shared.finished) : FinalPublished s next ∧
      (next.finished ≠ none → rest (PublishedState.serve circumstance world.shared request).1 = .done ()) := by
    refine ⟨fun done => ?_, fun done => absurd (same.trans running) done⟩
    rw [same, running] at done
    cases done
  have signed (next : State) : Signed s (world.states ++ [next]) world.shared.cluster := fun payload signature json sig => by
    obtain ⟨state, old, same⟩ := sound.signed payload signature json sig
    exact ⟨state, List.mem_append_left _ old, same⟩
  cases request with
  | stat =>
    obtain ⟨final, going⟩ := unfinished (PublishedState.serve circumstance world.shared .stat).2 rfl
    exact ⟨sound.plain, signed _, rfl, le_rfl, final, going, aware.stat⟩
  | read =>
    obtain ⟨final, going⟩ := unfinished (PublishedState.serve circumstance world.shared .read).2 rfl
    exact ⟨sound.plain, signed _, rfl, sound.looked, final, going, aware.read sound.looked⟩
  | readKey =>
    obtain ⟨final, going⟩ := unfinished (PublishedState.serve circumstance world.shared .readKey).2 rfl
    refine ⟨sound.plain, signed _, rfl, sound.looked, final, going, ?_⟩
    exact aware.readKey (member _ now) fun payload text => keeps thread rest payload found calls (reads payload text)
  | api request =>
    obtain ⟨known, plain, signed⟩ := aware.api sound.plain sound.signed member demand
    obtain ⟨final, going⟩ := unfinished (PublishedState.serve circumstance world.shared (.api request)).2 rfl
    exact ⟨plain, signed, rfl, sound.looked, final, going, known⟩
  | remember lastMtime =>
    obtain ⟨final, going⟩ := unfinished (PublishedState.serve circumstance world.shared (.remember lastMtime)).2 rfl
    exact ⟨sound.plain, signed _, rfl, sound.looked, final, going, aware.remember member demand⟩
  | finish gaveUp =>
    refine ⟨sound.plain, signed _, rfl, sound.looked, final_of_finish sound aware demand.2, fun _ => demand.1, ?_⟩
    exact aware.outlasts (List.append_nil _).symm rfl rfl rfl rfl member

end Serve

end Moves

theorem Sound.reached {s : Site} {start world : SidecarWorld} (fresh : Fresh s start)
    (reached : publishing.Reaches (fun world move => Permitted s world move ∧ KeepsSigning s world move) start world) :
    Sound s world := by
  refine System.Reaches.invariant (Sound.start fresh) (fun world next move _ sound allowed moved => ?_) reached
  rcases System.step_cases moved with ⟨label, owner, rfl, found, rfl⟩ | ⟨deed, rfl, rfl⟩ |
    ⟨index, circumstance, thread, request, rest, rfl, found, calls, rfl⟩
  · obtain rfl := Option.some.inj found
    obtain ⟨rfl, none⟩ := allowed.1
    exact sound.spawn none
  · exact sound.act allowed.1
  · exact sound.serve found calls allowed.2

/-- As long as each pass finds a key when a signature is stored, the time that is remembered
is that of a published version, the final content is published, and every stored signature
is that of the payload beside it. -/
theorem published_signed {s : Site} {start world : SidecarWorld} (fresh : Fresh s start)
    (reached : publishing.Reaches (fun world move => Permitted s world move ∧ KeepsSigning s world move) start world) :
    AdvancesPublished s world.shared ∧ FinalPublished s world.shared ∧ SignedAsStored s world := by
  have sound := Sound.reached fresh reached
  refine ⟨fun mtime remembered => ?_, sound.final, sound.signed⟩
  rcases sound.alone with none | ⟨thread, single⟩
  · rw [(sound.idle none).1] at remembered
    cases remembered
  · obtain ⟨known, _, aware, _⟩ := sound.aware thread (by simp [single])
    obtain ⟨k, payload, ⟨i, old, within, found, time⟩, ⟨new, here, text⟩, now⟩ :=
      aware.published mtime (aware.last.symm.trans remembered)
    exact ⟨i, k, old, new, payload, within, found, time, here, text, now⟩

/-! Runs of one sidecar. -/

def permits (s : Site) (world : SidecarWorld) : SidecarMove → Bool
  | .spawn site => site = s && world.threads.isEmpty
  | .act (.replace version) => world.shared.versions.all fun old => old.mtime != version.mtime
  | .act (.setKey _) => true
  | .act (.api _ _) => false
  | .serve _ _ => true

theorem permitted_of_permits {s : Site} (world : SidecarWorld) (move : SidecarMove) (checked : permits s world move = true) :
    Permitted s world move := by
  cases move with
  | spawn site => simpa [permits, Permitted] using checked
  | act deed =>
    cases deed with
    | replace version => simpa [permits, Permitted] using checked
    | setKey keyFile => trivial
    | api circumstance request => cases checked
  | serve index circumstance => trivial

def keyBytes : Sha256.Bytes := [107, 101, 121]

/-- A key that is not blank signs every payload. -/
theorem signs_keyBytes (payload : String) : Signs (some keyBytes) payload := by
  have filled : strip keyBytes ≠ [] := by decide
  have digest : Sha256.hmac (strip keyBytes) payload.toUTF8.toList ≠ [] := by
    intro empty
    have length := Sha256.length_hmac (strip keyBytes) payload.toUTF8.toList
    rw [empty] at length
    cases length
  exact ⟨_, SignerKeys.signPayload_filled filled payload, SignerKeys.encodeToString_ne_empty digest⟩

def keepsKey (s : Site) (world : SidecarWorld) (move : SidecarMove) : Bool :=
  permits s world move && world.shared.keyFile = some keyBytes

theorem keeps_of_keepsKey {s : Site} (world : SidecarWorld) (move : SidecarMove)
    (checked : keepsKey s world move = true) : Permitted s world move ∧ KeepsSigning s world move := by
  rw [keepsKey, Bool.and_eq_true, decide_eq_true_eq] at checked
  obtain ⟨permitted, same⟩ := checked
  refine ⟨permitted_of_permits world move permitted, ?_⟩
  cases move with
  | serve index circumstance =>
    intro thread next payload _ _ _
    rw [same]
    exact Or.inl (signs_keyBytes payload)
  | _ => trivial

def site : Site where
  podName := "worker-0"
  podNamespace := "team"
  dataConfigMap := "train-aibom-postprocess-data"
  passes := 2
  named := by decide

def firstPayload : String := "\x7b\"datasets\":[]\x7d"
def secondPayload : String := "\x7b\"datasets\":[\x7b\"dataset_name\":\"imdb\"\x7d]\x7d"

/-- The inner digests of the two payloads. -/
def firstInner : Sha256.Bytes :=
  [96, 8, 243, 189, 222, 45, 170, 91, 25, 110, 58, 206, 113, 114, 35, 214, 204, 69, 108, 160, 197, 138, 67, 9, 230, 224,
    217, 50, 206, 101, 226, 215]

def secondInner : Sha256.Bytes :=
  [251, 39, 147, 178, 45, 111, 122, 120, 75, 166, 59, 68, 160, 29, 55, 57, 147, 72, 94, 183, 186, 87, 92, 192, 7, 64, 194,
    104, 216, 215, 118, 2]

theorem payload_digests :
    Sha256.sum256 ((Sha256.blockKey (strip keyBytes)).map (· ^^^ 0x36) ++ firstPayload.toUTF8.toList) = firstInner ∧
    Sha256.sum256 ((Sha256.blockKey (strip keyBytes)).map (· ^^^ 0x36) ++ secondPayload.toUTF8.toList) = secondInner ∧
    (Sha256.sum256 ((Sha256.blockKey (strip keyBytes)).map (· ^^^ 0x5c) ++ firstInner)).head? = some 60 ∧
    (Sha256.sum256 ((Sha256.blockKey (strip keyBytes)).map (· ^^^ 0x5c) ++ secondInner)).head? = some 232 :=
  ⟨by decide +kernel, by decide +kernel, by decide +kernel, by decide +kernel⟩

theorem signatures_differ : signPayload (some keyBytes) secondPayload ≠ signPayload (some keyBytes) firstPayload := by
  have filled : strip keyBytes ≠ [] := by decide
  intro same
  rw [SignerKeys.signPayload_filled filled, SignerKeys.signPayload_filled filled, Option.some.injEq] at same
  have decoded := congrArg Sha256.decodeString same
  rw [Sha256.decodeString_encodeToString, Sha256.decodeString_encodeToString, Option.some.injEq] at decoded
  have heads := congrArg List.head? decoded
  obtain ⟨innerFirst, innerSecond, outerFirst, outerSecond⟩ := payload_digests
  rw [Sha256.hmac, Sha256.hmac, innerFirst, innerSecond, outerFirst, outerSecond] at heads
  cases heads

def newPod : SidecarWorld := World.initial Site
  { cluster := Cluster.empty
    versions := []
    looked := 0
    keyFile := some keyBytes
    lastMtime := none
    finished := none }

theorem newPod_fresh : Fresh site newPod where
  threads := rfl
  plain cm found := by cases found
  json := rfl
  distinct := List.nodup_nil
  looked := rfl
  lastMtime := rfl
  finished := rfl

def served : SidecarMove := .serve 0 { fate := .served, uid := "u", time := 0 }

/-- A first version is published, with its signature, then the second one. -/
def twoVersions (later : List SidecarMove) : List SidecarMove :=
  [.spawn site, .act (.replace ⟨1, some firstPayload⟩)] ++ List.replicate 6 served ++ later ++
    [.act (.replace ⟨2, some secondPayload⟩)] ++ List.replicate 5 served

def signedRun : Checked (publishing.checkedRun (keepsKey site) newPod (twoVersions [] ++ List.replicate 4 served))
    fun world => world.shared.finished = some false ∧ world.shared.lastMtime = some 2 := .of (by decide +kernel)

theorem published_signed_to_the_end : ∃ world,
    publishing.Reaches (fun world move => Permitted site world move ∧ KeepsSigning site world move) newPod world ∧
      world.shared.finished = some false ∧ world.shared.lastMtime = some 2 ∧
      AdvancesPublished site world.shared ∧ FinalPublished site world.shared ∧ SignedAsStored site world := by
  obtain ⟨world, ran, result⟩ := signedRun
  have reached := System.reaches_of_checkedRun keeps_of_keepsKey ran
  exact ⟨world, reached, result.1, result.2, published_signed newPod_fresh reached⟩

/-- The key was gone in the second pass, and the signature of the first version stayed. -/
def staleRun : Checked (publishing.checkedRun (permits site) newPod (twoVersions [.act (.setKey none)])) fun world =>
    entryOf site.key site.jsonName world.shared.cluster = some secondPayload ∧
      entryOf site.key site.sigName world.shared.cluster = signPayload (some keyBytes) firstPayload ∧
      ∀ state ∈ world.states, state.keyFile = none ∨ state.keyFile = some keyBytes := .of (by decide +kernel)

theorem signature_of_another_payload : ∃ world, publishing.Reaches (Permitted site) newPod world ∧
    ¬SignedAsStored site world := by
  obtain ⟨world, ran, json, sig, keys⟩ := staleRun
  refine ⟨world, System.reaches_of_checkedRun permitted_of_permits ran, fun signed => ?_⟩
  obtain ⟨signature, first, _⟩ := signs_keyBytes firstPayload
  obtain ⟨state, member, second⟩ := signed secondPayload signature json (sig.trans first)
  rcases keys state member with none | same
  · rw [none] at second
    cases second
  · rw [same] at second
    exact signatures_differ (second.trans first.symm)

end AibomWebhook.PublishedState
