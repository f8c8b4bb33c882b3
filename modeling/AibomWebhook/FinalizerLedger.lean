import AibomWebhook.Events
import AibomWebhook.Library.Interleaving

/-! Whether the finalizers of others stay on a Job or Pod as their owners left them,
while the watcher writes whole lists that it made from cached copies. -/

namespace AibomWebhook.FinalizerLedger
open Events Kubernetes Objects Requests

def watcherFinalizers : List String := [finalizerName, podFinalizerName]

def carries (kind : Kind) (key : Key) (name : String) (cluster : Cluster) : Bool :=
  match cluster.find kind key with
  | none => false
  | some object => object.metadata.finalizers.contains name

/-- The stored objects, and for each the finalizers that their owners last left there. -/
structure Ledger where
  cluster : Cluster
  left : (kind : Kind) → Key → String → Bool

/-- What others do. -/
inductive Deed where
  | keep (kind : Kind) (key : Key) (name : String)
  | drop (kind : Kind) (key : Key) (name : String)
  | change (kind : Kind) (key : Key) (content : Content kind → Content kind)
  | delete (kind : Kind) (key : Key) (time : Time)
  | create (kind : Kind) (object : Object kind) (uid : String) (time : Time)

namespace Ledger

def note (kind : Kind) (key : Key) (name : String) (present : Bool) (ledger : Ledger) :
    (kind : Kind) → Key → String → Bool :=
  fun other place finalizer => if other = kind ∧ place = key ∧ finalizer = name then present
    else ledger.left other place finalizer

/-- An owner replaces the list of an object with its own finalizer added or taken out. -/
def own (kind : Kind) (key : Key) (name : String) (present : Bool) (ledger : Ledger) : Ledger :=
  match ledger.cluster.find kind key with
  | none => ledger
  | some object =>
    let others := object.metadata.finalizers.filter (· ≠ name)
    { cluster := ledger.cluster.write
        (patched (.setFinalizers (if present then others ++ [name] else others) none) object)
      left := ledger.note kind key name present }

def act (deed : Deed) (ledger : Ledger) : Ledger :=
  match deed with
  | .keep kind key name => ledger.own kind key name true
  | .drop kind key name => ledger.own kind key name false
  | .change kind key content =>
    match ledger.cluster.find kind key with
    | none => ledger
    | some object => { ledger with cluster := ledger.cluster.write { object with content := content object.content } }
  | .delete kind key time => { ledger with cluster := (perform "" time ledger.cluster (.delete kind key)).2 }
  | .create kind object uid time =>
    match ledger.cluster.find kind (born uid time object).key with
    | some _ => ledger
    | none =>
      { cluster := ledger.cluster.write (born uid time object)
        left := fun other place name => if other = kind ∧ place = (born uid time object).key then
            object.metadata.finalizers.contains name
          else ledger.left other place name }

/-- Every finalizer of others is on the stored object exactly when its owner left it there. -/
def Faithful (ledger : Ledger) : Prop :=
  ∀ kind key name, name ∉ watcherFinalizers → ledger.left kind key name = carries kind key name ledger.cluster

end Ledger

/-! What a write does to the finalizers. An object without any may vanish, and then
carries none either. -/

section Carrying
variable {kind other : Kind} {cluster : Cluster}

theorem carries_write (object : Object kind) (name : String) :
    carries kind object.key name (cluster.write object) = object.metadata.finalizers.contains name := by
  simp only [carries, find_write, if_true]
  cases gone : released object with
  | false => rfl
  | true =>
    have none : object.metadata.finalizers = [] := by
      simp only [released, Bool.and_eq_true, List.isEmpty_iff] at gone
      exact gone.2
    simp [none]

theorem carries_write_of_ne {object : Object kind} {key : Key} (elsewhere : ¬ (other = kind ∧ key = object.key))
    (name : String) : carries other key name (cluster.write object) = carries other key name cluster := by
  by_cases same : other = kind
  · subst same
    have different : object.key ≠ key := fun here => elsewhere ⟨rfl, here.symm⟩
    rw [carries, carries, find_write_of_key _ different]
  · rw [carries, carries, find_write_of_kind _ _ same]

theorem carries_of_find {object : Object kind} {key : Key} (found : cluster.find kind key = some object) (name : String) :
    carries kind key name cluster = object.metadata.finalizers.contains name := by rw [carries, found]

theorem carries_true {key : Key} {name : String} (has : carries kind key name cluster = true) :
    ∃ object, cluster.find kind key = some object ∧ holdsFinalizer name object = true := by
  cases found : cluster.find kind key with
  | none => simp [carries, found] at has
  | some object => exact ⟨object, rfl, (carries_of_find found name).symm.trans has⟩

end Carrying

namespace Ledger
variable {kind : Kind} {ledger : Ledger}

/-- A write keeps the books, if it writes what they say of the object. -/
theorem faithful_write_iff {object : Object kind} {left : (kind : Kind) → Key → String → Bool}
    (elsewhere : ∀ other key name, ¬ (other = kind ∧ key = object.key) → left other key name = ledger.left other key name)
    (faithful : ledger.Faithful) : Faithful { cluster := ledger.cluster.write object, left := left } ↔
      ∀ name ∉ watcherFinalizers, left kind object.key name = object.metadata.finalizers.contains name := by
  constructor
  · intro kept name foreign
    have here := kept kind object.key name foreign
    rwa [carries_write] at here
  · intro agrees other key name foreign
    by_cases here : other = kind ∧ key = object.key
    · obtain ⟨rfl, rfl⟩ := here
      rw [carries_write]
      exact agrees name foreign
    · have outside : left other key name = ledger.left other key name := elsewhere other key name here
      have before : left other key name = carries other key name ledger.cluster :=
        outside.trans (faithful other key name foreign)
      exact before.trans (carries_write_of_ne here name).symm

/-- A write that leaves the finalizers of an object alone. -/
theorem Faithful.rewrite {object next : Object kind} {key : Key} (faithful : ledger.Faithful)
    (found : ledger.cluster.find kind key = some object) (same : next.key = object.key)
    (finalizers : next.metadata.finalizers = object.metadata.finalizers) :
    Faithful { ledger with cluster := ledger.cluster.write next } := by
  have here : object.key = key := Keyed.key_of_find? found
  refine (faithful_write_iff (fun _ _ _ _ => rfl) faithful).mpr fun name foreign => ?_
  rw [finalizers, same, here, ← carries_of_find found]
  exact faithful kind key name foreign

theorem Faithful.own (faithful : ledger.Faithful) (kind : Kind) (key : Key) (name : String) (present : Bool) :
    (ledger.own kind key name present).Faithful := by
  unfold Ledger.own
  split
  · exact faithful
  · rename_i object found
    have here : object.key = key := Keyed.key_of_find? found
    subst here
    refine (faithful_write_iff ?_ faithful).mpr ?_
    · intro other place finalizer elsewhere
      have spared : ¬ (other = kind ∧ place = object.key ∧ finalizer = name) := fun same =>
        elsewhere ⟨same.1, same.2.1⟩
      rw [note, if_neg spared]
    · intro finalizer foreign
      have before := faithful kind object.key finalizer foreign
      rw [carries_of_find found] at before
      rw [key_patched]
      by_cases same : finalizer = name
      · subst same
        cases present <;> simp [note, patched, MergePatch.apply]
      · cases present <;> simp [note, patched, MergePatch.apply, same, before]

/-- What others do keeps the books. -/
theorem Faithful.act (faithful : ledger.Faithful) (deed : Deed) : (ledger.act deed).Faithful := by
  cases deed with
  | keep kind key name => exact faithful.own kind key name true
  | drop kind key name => exact faithful.own kind key name false
  | change kind key content =>
    simp only [Ledger.act]
    split
    · exact faithful
    · rename_i object found
      exact faithful.rewrite found rfl rfl
  | delete kind key time =>
    simp only [Ledger.act, perform]
    split
    · exact faithful
    · rename_i object found
      exact faithful.rewrite found rfl rfl
  | create kind object uid time =>
    simp only [Ledger.act]
    split
    · exact faithful
    · refine (faithful_write_iff ?_ faithful).mpr ?_
      · intro other place finalizer elsewhere
        rw [if_neg elsewhere]
      · intro finalizer _
        rw [if_pos ⟨rfl, rfl⟩]
        rfl

end Ledger

/-! The watcher. Each call works on a copy from the informer's cache. -/

/-- One call of the watcher, with the object that it is given. -/
inductive Upkeep where
  | addFinalizer (job : Job)
  | removeFinalizer (job : Job)
  | addPodFinalizer (pod : Pod)
  | removePodFinalizer (pod : Pod)

structure Copy where
  kind : Kind
  object : Object kind

namespace Upkeep

def copy : Upkeep → Copy
  | addFinalizer job => ⟨.job, job⟩
  | removeFinalizer job => ⟨.job, job⟩
  | addPodFinalizer pod => ⟨.pod, pod⟩
  | removePodFinalizer pod => ⟨.pod, pod⟩

def program : Upkeep → ApiProgram Unit
  | addFinalizer job => Events.addFinalizer job
  | removeFinalizer job => Events.removeFinalizer job
  | addPodFinalizer pod => Events.addPodFinalizer pod
  | removePodFinalizer pod => Events.removePodFinalizer pod

end Upkeep

/-- Which call is made, for which object, and how old the cached copy of it is. -/
inductive Cue where
  | addFinalizer (moment : Nat) (key : Key)
  | removeFinalizer (moment : Nat) (key : Key)
  | addPodFinalizer (moment : Nat) (key : Key)
  | removePodFinalizer (moment : Nat) (key : Key)

def cachedAt (kind : Kind) (ledgers : List Ledger) (moment : Nat) (key : Key) : Option (Object kind) :=
  (ledgers[moment]?).bind fun ledger => ledger.cluster.find kind key

def Cue.resolve (ledgers : List Ledger) : Cue → Option Upkeep
  | addFinalizer moment key => (cachedAt .job ledgers moment key).map .addFinalizer
  | removeFinalizer moment key => (cachedAt .job ledgers moment key).map .removeFinalizer
  | addPodFinalizer moment key => (cachedAt .pod ledgers moment key).map .addPodFinalizer
  | removePodFinalizer moment key => (cachedAt .pod ledgers moment key).map .removePodFinalizer

def upkeepSystem : System ApiServer Ledger Upkeep Cue Deed Circumstance where
  resolve := Cue.resolve
  program := Upkeep.program
  act := Ledger.act
  serve circumstance ledger request :=
    ((serve circumstance ledger.cluster request).1,
      { ledger with cluster := (serve circumstance ledger.cluster request).2 })

/-- The same finalizers, but for the watcher's. -/
def SameForeign {kind : Kind} (first second : Object kind) : Prop :=
  ∀ name ∉ watcherFinalizers, first.metadata.finalizers.contains name = second.metadata.finalizers.contains name

/-- A patch of the watcher's that takes effect was made from a copy that is still right
about the finalizers of others. -/
def Current (world : World ApiServer Ledger Upkeep) : Move Cue Deed Circumstance → Prop
  | .serve index circumstance => ∀ thread, world.threads[index]? = some thread →
      (∀ message, circumstance.fate ≠ .refused message) → ∀ stored,
      world.shared.cluster.find thread.owner.copy.kind thread.owner.copy.object.key = some stored →
      SameForeign thread.owner.copy.object stored
  | _ => True

/-- Nothing is asked, or one patch is sent, with the finalizers of others as the copy has them. -/
theorem program_cases (upkeep : Upkeep) : upkeep.program = .done () ∨ ∃ finalizers,
    upkeep.program = .call (.patch upkeep.copy.kind upkeep.copy.object.key (.setFinalizers finalizers none))
      (fun _ => .done ()) ∧
    ∀ name ∉ watcherFinalizers, finalizers.contains name = upkeep.copy.object.metadata.finalizers.contains name := by
  have adds {kind : Kind} (finalizer : String) (own : finalizer ∈ watcherFinalizers) (object : Object kind) :
      ∃ finalizers, addFinalizerTo finalizer object =
        .call (.patch kind object.key (.setFinalizers finalizers none)) (fun _ => .done ()) ∧
      ∀ name ∉ watcherFinalizers, finalizers.contains name = object.metadata.finalizers.contains name := by
    refine ⟨_, rfl, fun name foreign => ?_⟩
    have other : name ≠ finalizer := fun same => foreign (same ▸ own)
    simp [other]
  have removes {kind : Kind} (finalizer : String) (own : finalizer ∈ watcherFinalizers) (object : Object kind) :
      removeFinalizerFrom finalizer object = .done () ∨ ∃ finalizers, removeFinalizerFrom finalizer object =
        .call (.patch kind object.key (.setFinalizers finalizers none)) (fun _ => .done ()) ∧
      ∀ name ∉ watcherFinalizers, finalizers.contains name = object.metadata.finalizers.contains name := by
    rw [removeFinalizerFrom, finalizerRemovalPatch_eq]
    by_cases holds : finalizer ∈ object.metadata.finalizers
    · rw [if_pos holds]
      refine Or.inr ⟨_, rfl, fun name foreign => ?_⟩
      have other : name ≠ finalizer := fun same => foreign (same ▸ own)
      simp [other]
    · rw [if_neg holds]
      exact Or.inl rfl
  cases upkeep with
  | addFinalizer job => exact Or.inr (adds finalizerName (by decide) job)
  | removeFinalizer job => exact removes finalizerName (by decide) job
  | addPodFinalizer pod => exact Or.inr (adds podFinalizerName (by decide) pod)
  | removePodFinalizer pod => exact removes podFinalizerName (by decide) pod

/-- A call that has not been made yet, or is over. -/
def Whole (thread : Thread ApiServer Ledger Upkeep) : Prop :=
  thread.rest = thread.owner.program ∨ thread.rest = .done ()

/-- The books are right, and no call has been made in part. -/
def Sound (world : World ApiServer Ledger Upkeep) : Prop :=
  world.shared.Faithful ∧ ∀ thread ∈ world.threads, Whole thread

/-- A served patch keeps the books exactly if its copy was right. -/
theorem patch_faithful_iff {ledger : Ledger} {copy : Copy} {finalizers : List String} (circumstance : Circumstance)
    (faithful : ledger.Faithful)
    (same : ∀ name ∉ watcherFinalizers, finalizers.contains name = copy.object.metadata.finalizers.contains name) :
    Ledger.Faithful { ledger with cluster :=
        (serve circumstance ledger.cluster (.patch copy.kind copy.object.key (.setFinalizers finalizers none))).2 } ↔
      ((∀ message, circumstance.fate ≠ .refused message) → ∀ stored,
        ledger.cluster.find copy.kind copy.object.key = some stored → SameForeign copy.object stored) := by
  by_cases performed : ∀ message, circumstance.fate ≠ .refused message
  · rw [serve_performed performed]
    cases found : ledger.cluster.find copy.kind copy.object.key with
    | none =>
      simp only [perform, found]
      exact iff_of_true faithful (by simp)
    | some stored =>
      have here : stored.key = copy.object.key := Keyed.key_of_find? found
      have before (name : String) (foreign : name ∉ watcherFinalizers) :
          ledger.left copy.kind copy.object.key name = stored.metadata.finalizers.contains name :=
        (faithful _ _ _ foreign).trans (carries_of_find found name)
      simp only [perform, found, MergePatch.accepts, if_true]
      rw [Ledger.faithful_write_iff (fun _ _ _ _ => rfl) faithful, key_patched, here]
      constructor
      · rintro kept _ _ ⟨⟩ name foreign
        exact (same name foreign).symm.trans ((kept name foreign).symm.trans (before name foreign))
      · intro right name foreign
        have right : SameForeign copy.object stored := right performed stored rfl
        exact (before name foreign).trans ((right name foreign).symm.trans (same name foreign).symm)
  · have refused : ∃ message, circumstance.fate = .refused message := by simpa using performed
    obtain ⟨message, refused⟩ := refused
    rw [serve_refused refused]
    exact iff_of_true faithful fun performs => absurd performs performed

theorem step_faithful_iff {world next : World ApiServer Ledger Upkeep} {move : Move Cue Deed Circumstance}
    (sound : Sound world) (moved : upkeepSystem.step world move = some next) :
    (next.shared.Faithful ↔ Current world move) ∧ (next.shared.Faithful → Sound next) := by
  obtain ⟨faithful, whole⟩ := sound
  rcases System.step_cases moved with ⟨cue, upkeep, rfl, found, rfl⟩ | ⟨deed, rfl, rfl⟩ |
    ⟨index, circumstance, thread, request, rest, rfl, found, calls, rfl⟩
  · refine ⟨iff_of_true faithful trivial, fun faithful => ⟨faithful, fun thread member => ?_⟩⟩
    rcases List.mem_append.mp member with old | new
    · exact whole thread old
    · obtain rfl := List.mem_singleton.mp new
      exact Or.inl rfl
  · exact ⟨iff_of_true (faithful.act deed) trivial, fun faithful => ⟨faithful, whole⟩⟩
  · have started : thread.rest = thread.owner.program := by
      refine (whole thread (List.mem_of_getElem? found)).resolve_right fun ended => ?_
      rw [calls] at ended
      cases ended
    rcases program_cases thread.owner with nothing | ⟨finalizers, sends, same⟩
    · rw [nothing, calls] at started
      cases started
    · rw [sends, calls] at started
      cases started
      constructor
      · refine (patch_faithful_iff circumstance faithful same).trans ?_
        constructor
        · intro right other here
          obtain rfl := Option.some.inj (found.symm.trans here)
          exact right
        · exact fun current => current thread found
      · refine fun faithful => ⟨faithful, fun other member => ?_⟩
        rcases List.mem_or_eq_of_mem_set member with old | rfl
        · exact whole other old
        · exact Or.inr rfl

/-- A run keeps every finalizer of others where its owner left it, exactly if every
patch of the watcher's that takes effect comes from a copy that is right about them. -/
theorem finalizers_kept_iff (start : Ledger) (faithful : start.Faithful) (moves : List (Move Cue Deed Circumstance)) :
    upkeepSystem.Throughout (fun _ _ next => next.shared.Faithful) (World.initial Upkeep start) moves ↔
      upkeepSystem.Throughout (fun world move _ => Current world move) (World.initial Upkeep start) moves := by
  have sound : Sound (World.initial Upkeep start) := by
    refine ⟨faithful, fun thread member => ?_⟩
    cases member
  apply System.throughout_iff _ moves sound
  intro world next move sound moved
  exact step_faithful_iff sound moved

/-! A Job that the watcher lets go of while another controller takes hold of it. -/

def heldJob : Job where
  metadata := { name := "train", ns := "team", finalizers := [finalizerName] }
  content := { template := { spec := { containers := [] } } }

def heldLedger : Ledger :=
  Ledger.act (.create .job heldJob "job-1" 0) { cluster := Cluster.empty, left := fun _ _ _ => false }

theorem heldLedger_faithful : heldLedger.Faithful := by
  have empty : Ledger.Faithful { cluster := Cluster.empty, left := fun _ _ _ => false } := fun _ _ _ _ => rfl
  exact empty.act _

/-- The cached copy is older than the other controller's finalizer. -/
def overlap : List (Move Cue Deed Circumstance) :=
  [.spawn (.removeFinalizer 0 ("team", "train")), .act (.keep .job ("team", "train") "orphan"),
    .serve 0 { fate := .served, uid := "", time := 0 }]

theorem finalizers_kept_iff_on_overlap :
    upkeepSystem.Throughout (fun _ _ next => next.shared.Faithful) (World.initial Upkeep heldLedger) overlap ↔
      upkeepSystem.Throughout (fun world move _ => Current world move) (World.initial Upkeep heldLedger) overlap :=
  finalizers_kept_iff heldLedger heldLedger_faithful overlap

theorem foreign_finalizer_dropped : ¬ ∀ (start : Ledger) (moves : List (Move Cue Deed Circumstance)), start.Faithful →
    upkeepSystem.Throughout (fun _ _ next => next.shared.Faithful) (World.initial Upkeep start) moves := by
  intro claim
  have orphan := (claim heldLedger overlap heldLedger_faithful).mono fun _ _ _ faithful =>
    faithful .job ("team", "train") "orphan" (by decide)
  exact absurd orphan (by decide)

end AibomWebhook.FinalizerLedger
