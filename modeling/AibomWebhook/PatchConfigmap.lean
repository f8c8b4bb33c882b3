import AibomWebhook.Library.Program
import AibomWebhook.Objects

/-! Many calls of `patch_configmap` on one ConfigMap (scripts/aibom-scripts/k8s_api.py), one
request at a time in any order: no update is lost. -/

namespace AibomWebhook.PatchConfigmap
open Objects Requests

/-- What is asked about the ConfigMap. -/
inductive Request where
  | patch (data : StringMap)
  | post (data : StringMap)

/-- A request fails with a status. -/
abbrev Api : Interface where
  Request := Request
  Response := fun _ => Except Nat Unit

/-! The call. -/

/-- Lost the create race against a sibling. -/
def patchAgain (dataUpdates : StringMap) : Program Api (Except Nat Unit) := do
  match ← Program.send (I := Api) (.patch dataUpdates) with
  | .ok () => return .ok ()
  | .error code => return .error code

def createConfigmap (dataUpdates : StringMap) : Program Api (Except Nat Unit) := do
  match ← Program.send (I := Api) (.post dataUpdates) with
  | .ok () => return .ok ()
  | .error code => if code ≠ 409 then return .error code else patchAgain dataUpdates

def patchConfigmap (dataUpdates : StringMap) : Program Api (Except Nat Unit) := do
  match ← Program.send (I := Api) (.patch dataUpdates) with
  | .ok () => return .ok ()
  | .error code => if code ≠ 404 then return .error code else createConfigmap dataUpdates

/-! The API server: a request is atomic. -/

def serve : Option StringMap → Request → Except Nat Unit × Option StringMap
  | none, .patch _ => (.error 404, none)
  | some data, .patch updates => (.ok (), some (Keyed.putAll updates.items data))
  | none, .post data => (.ok (), some data)
  | some data, .post _ => (.error 409, some data)

/-- The ConfigMap, and what is left of each call. -/
structure World where
  configMap : Option StringMap
  calls : List (Program Api (Except Nat Unit))

def World.start (configMap : Option StringMap) (callers : List StringMap) : World where
  configMap := configMap
  calls := callers.map patchConfigmap

/-- The next request of one call is answered. -/
def World.step (world : World) (i : Nat) : Option World :=
  match world.calls[i]? with
  | some (.call request next) =>
    some { configMap := (serve world.configMap request).2
           calls := world.calls.set i (next (serve world.configMap request).1) }
  | _ => none

def World.run (world : World) (moves : List Nat) : Option World := moves.foldlM World.step world

/-! The property. -/

def lookup (key : String) (configMap : Option StringMap) : Option String :=
  ((configMap.getD ∅).find? key).map Prod.snd

/-- The ConfigMap has all keys of a caller, with its values. -/
def Has (updates : StringMap) (configMap : Option StringMap) : Prop :=
  ∀ key value, updates.find? key = some (key, value) → lookup key configMap = some value

/-- Two callers have no key in common. -/
def Apart (first second : StringMap) : Prop := ∀ key, first.find? key = none ∨ second.find? key = none

structure Lossless (initial : Option StringMap) (callers : List StringMap) (moves : List Nat) (world : World) : Prop where
  /-- No call ends with an error. -/
  returned : ∀ result, .done result ∈ world.calls → result = .ok ()
  /-- Who has returned has written all of its keys, and they stay. -/
  written : ∀ (i : Nat) updates, callers[i]? = some updates → world.calls[i]? = some (.done (.ok ())) →
    world.configMap.isSome = true ∧ Has updates world.configMap
  /-- What nobody names is as it was. -/
  kept : ∀ key, (∀ updates ∈ callers, updates.find? key = none) → lookup key world.configMap = lookup key initial
  /-- Each call makes at most three requests, and goes on until it returns. -/
  bounded : ∀ i, moves.count i ≤ 3
  progress : ∀ i < callers.length, (∃ result, world.calls[i]? = some (.done result)) ∨ (world.step i).isSome = true

/-! Where a call is after so many requests. -/

inductive At (updates : StringMap) (configMap : Option StringMap) : Nat → Program Api (Except Nat Unit) → Prop where
  | patching : At updates configMap 0 (patchConfigmap updates)
  | creating : At updates configMap 1 (createConfigmap updates)
  | again (present : configMap.isSome = true) : At updates configMap 2 (patchAgain updates)
  | returned {count : Nat} (few : count ≤ 3) (present : configMap.isSome = true) (has : Has updates configMap) :
    At updates configMap count (.done (.ok ()))

/-- What a change of the ConfigMap keeps for a caller. -/
structure Keeps (updates : StringMap) (old new : Option StringMap) : Prop where
  present : old.isSome = true → new.isSome = true
  has : old.isSome = true → Has updates old → Has updates new

section Calls
variable {updates others : StringMap} {configMap next : Option StringMap} {count : Nat} {call : Program Api (Except Nat Unit)}

theorem At.keeps (place : At updates configMap count call) (keeps : Keeps updates configMap next) :
    At updates next count call := by
  cases place with
  | patching => exact .patching
  | creating => exact .creating
  | again present => exact .again (keeps.present present)
  | returned few present has => exact .returned few (keeps.present present) (keeps.has present has)

theorem has_putAll (data : StringMap) : Has updates (some (Keyed.putAll updates.items data)) := by
  intro key value found
  have merged : (Keyed.putAll updates.items data).find? key = (updates.find? key).or (data.find? key) :=
    Keyed.find?_putAll updates data key
  rw [lookup, Option.getD_some, merged, found, Option.some_or, Option.map_some]

theorem has_self : Has updates (some updates) := by
  intro key value found
  rw [lookup, Option.getD_some, found, Option.map_some]

theorem lookup_putAll {key : String} (unnamed : updates.find? key = none) (data : StringMap) :
    lookup key (some (Keyed.putAll updates.items data)) = lookup key (some data) := by
  have merged : (Keyed.putAll updates.items data).find? key = (updates.find? key).or (data.find? key) :=
    Keyed.find?_putAll updates data key
  rw [lookup, lookup, Option.getD_some, Option.getD_some, merged, unnamed, Option.none_or]

/-- What one request of a call does. -/
structure Served (updates : StringMap) (configMap : Option StringMap) (count : Nat) (request : Request)
    (next : Except Nat Unit → Program Api (Except Nat Unit)) : Prop where
  place : At updates (serve configMap request).2 (count + 1) (next (serve configMap request).1)
  others : ∀ other, Apart updates other → Keeps other configMap (serve configMap request).2
  kept : ∀ key, updates.find? key = none → lookup key (serve configMap request).2 = lookup key configMap

theorem served_patch {next : Except Nat Unit → Program Api (Except Nat Unit)} {data : StringMap} (few : count + 1 ≤ 3)
    (ends : next (.ok ()) = .done (.ok ())) : Served updates (some data) count (.patch updates) next := by
  refine ⟨?_, fun other apart => ⟨fun _ => rfl, fun _ has key value found => ?_⟩, fun key unnamed => lookup_putAll unnamed data⟩
  · rw [serve, ends]
    exact .returned few rfl (has_putAll data)
  · have unnamed : updates.find? key = none := by
      rcases apart key with here | there
      · exact here
      · rw [there] at found
        cases found
    rw [serve, lookup_putAll unnamed]
    exact has key value found

theorem served_missing {next : Except Nat Unit → Program Api (Except Nat Unit)}
    (place : At updates none (count + 1) (next (.error 404))) : Served updates none count (.patch updates) next :=
  ⟨place, fun _ _ => ⟨fun present => present, fun _ has => has⟩, fun _ _ => rfl⟩

theorem served_post (next : Except Nat Unit → Program Api (Except Nat Unit)) (created : next (.ok ()) = .done (.ok ()))
    (lost : next (.error 409) = patchAgain updates) : Served updates configMap 1 (.post updates) next := by
  cases configMap with
  | none =>
    refine ⟨?_, fun other _ => ⟨nofun, nofun⟩, fun key unnamed => ?_⟩
    · rw [serve, created]
      exact .returned (by omega) rfl has_self
    · rw [serve, lookup, Option.getD_some, unnamed]
      rfl
  | some data =>
    refine ⟨?_, fun _ _ => ⟨fun present => present, fun _ has => has⟩, fun _ _ => rfl⟩
    rw [serve, lost]
    exact .again rfl

/-- One more request of a call. -/
theorem At.served {request : Request} {next : Except Nat Unit → Program Api (Except Nat Unit)}
    (place : At updates configMap count (.call request next)) : Served updates configMap count request next := by
  generalize same : @Program.call Api _ request next = call at place
  cases place with
  | patching =>
    obtain ⟨rfl, rest⟩ := Program.call.inj same
    obtain rfl := eq_of_heq rest
    cases configMap with
    | none => exact served_missing .creating
    | some data => exact served_patch (by omega) rfl
  | creating =>
    obtain ⟨rfl, rest⟩ := Program.call.inj same
    obtain rfl := eq_of_heq rest
    exact served_post _ rfl rfl
  | again present =>
    obtain ⟨rfl, rest⟩ := Program.call.inj same
    obtain rfl := eq_of_heq rest
    obtain ⟨data, rfl⟩ := Option.isSome_iff_exists.mp present
    exact served_patch (by omega) rfl
  | returned => cases same

end Calls

/-! All calls. -/

/-- What is known after some requests. -/
structure Going (initial : Option StringMap) (callers : List StringMap) (moves : List Nat) (world : World) : Prop where
  length : world.calls.length = callers.length
  places : ∀ (i : Nat) updates call, callers[i]? = some updates → world.calls[i]? = some call →
    At updates world.configMap (moves.count i) call
  beyond : ∀ i, callers.length ≤ i → moves.count i = 0
  kept : ∀ key, (∀ updates ∈ callers, updates.find? key = none) → lookup key world.configMap = lookup key initial

section Runs
variable {initial : Option StringMap} {callers : List StringMap} {moves : List Nat} {world next : World}

theorem going_start (initial : Option StringMap) (callers : List StringMap) : Going initial callers [] (.start initial callers) := by
  refine ⟨List.length_map _, fun i updates call here there => ?_, fun _ _ => rfl, fun _ _ => rfl⟩
  rw [World.start, List.getElem?_map, here, Option.map_some] at there
  obtain rfl := Option.some.inj there
  exact .patching

theorem step_cases {i : Nat} (moved : world.step i = some next) : ∃ request rest, world.calls[i]? = some (.call request rest) ∧
    next = { configMap := (serve world.configMap request).2
             calls := world.calls.set i (rest (serve world.configMap request).1) } := by
  unfold World.step at moved
  split at moved
  · rename_i request rest found
    exact ⟨request, rest, found, (Option.some.inj moved).symm⟩
  · cases moved

theorem count_append_of_ne {i j : Nat} (different : i ≠ j) (moves : List Nat) : (moves ++ [i]).count j = moves.count j := by
  rw [List.count_append, List.count_singleton, beq_false_of_ne different]
  rfl

/-- The step: the call that is answered goes on, and the others keep their places. -/
theorem Going.step (apart : callers.Pairwise Apart) (going : Going initial callers moves world) {i : Nat}
    (moved : world.step i = some next) : Going initial callers (moves ++ [i]) next := by
  obtain ⟨request, rest, found, rfl⟩ := step_cases moved
  have inside : i < callers.length := going.length ▸ (List.getElem?_eq_some_iff.mp found).1
  have mine : callers[i]? = some callers[i] := List.getElem?_eq_getElem inside
  have served := (going.places i callers[i] _ mine found).served
  refine ⟨(List.length_set ..).trans going.length, fun j updates call here there => ?_, fun j outside => ?_, fun key unnamed => ?_⟩
  · by_cases same : i = j
    · subst same
      obtain rfl := Option.some.inj (mine.symm.trans here)
      rw [List.getElem?_set_self (going.length ▸ inside)] at there
      obtain rfl := Option.some.inj there
      rw [List.count_append, List.count_singleton_self]
      exact served.place
    · rw [List.getElem?_set_ne same] at there
      have place := going.places j updates call here there
      rw [count_append_of_ne same]
      refine place.keeps (served.others updates ?_)
      obtain ⟨within, rfl⟩ := List.getElem?_eq_some_iff.mp here
      rcases Nat.lt_or_gt_of_ne same with below | above
      · exact List.pairwise_iff_getElem.mp apart i j inside within below
      · exact fun key => (List.pairwise_iff_getElem.mp apart j i within inside above key).symm
  · have different : i ≠ j := by omega
    rw [count_append_of_ne different, going.beyond j outside]
  · exact (served.kept key (unnamed _ (List.getElem_mem inside))).trans (going.kept key unnamed)

/-- The run: the induction is on the requests. -/
theorem Going.run (apart : callers.Pairwise Apart) (going : Going initial callers moves world) {more : List Nat}
    (ran : world.run more = some next) : Going initial callers (moves ++ more) next := by
  induction more generalizing moves world with
  | nil =>
    obtain rfl := Option.some.inj ran
    rw [List.append_nil]
    exact going
  | cons i more ih =>
    rw [World.run, List.foldlM_cons] at ran
    obtain ⟨between, moved, later⟩ := Option.bind_eq_some_iff.mp ran
    have after := ih (going.step apart moved) later
    rwa [List.append_assoc, List.singleton_append] at after

theorem At.count_le {updates : StringMap} {configMap : Option StringMap} {count : Nat} {call : Program Api (Except Nat Unit)}
    (place : At updates configMap count call) : count ≤ 3 := by
  cases place with
  | patching => omega
  | creating => omega
  | again => omega
  | returned few => exact few

theorem At.of_done {updates : StringMap} {configMap : Option StringMap} {count : Nat} {result : Except Nat Unit}
    (place : At updates configMap count (.done result)) :
    result = .ok () ∧ configMap.isSome = true ∧ Has updates configMap := by
  generalize same : @Program.done Api _ result = call at place
  cases place with
  | patching => cases same
  | creating => cases same
  | again => cases same
  | returned few present has => exact ⟨Program.done.inj same, present, has⟩

/-- For any callers without a common key, and any order of their requests. -/
theorem no_update_lost (initial : Option StringMap) (callers : List StringMap) (apart : callers.Pairwise Apart)
    (moves : List Nat) (world : World) (ran : (World.start initial callers).run moves = some world) :
    Lossless initial callers moves world := by
  have going : Going initial callers moves world := (going_start initial callers).run apart ran
  refine ⟨fun result member => ?_, fun i updates here there => ?_, going.kept, fun i => ?_, fun i inside => ?_⟩
  · obtain ⟨i, inside, found⟩ := List.getElem_of_mem member
    have there : world.calls[i]? = some (.done result) := List.getElem?_eq_some_iff.mpr ⟨inside, found⟩
    have within : i < callers.length := going.length ▸ inside
    exact (going.places i _ _ (List.getElem?_eq_getElem within) there).of_done.1
  · exact (going.places i updates _ here there).of_done.2
  · by_cases inside : i < callers.length
    · have within : i < world.calls.length := going.length ▸ inside
      exact (going.places i _ _ (List.getElem?_eq_getElem inside) (List.getElem?_eq_getElem within)).count_le
    · rw [going.beyond i (Nat.le_of_not_lt inside)]
      omega
  · have within : i < world.calls.length := going.length ▸ inside
    cases call : world.calls[i] with
    | done result => exact Or.inl ⟨result, List.getElem?_eq_some_iff.mpr ⟨within, call⟩⟩
    | call request rest =>
      right
      have found : world.calls[i]? = some (.call request rest) := List.getElem?_eq_some_iff.mpr ⟨within, call⟩
      rw [World.step, found]
      rfl

end Runs

/-! Two pods that both find no ConfigMap: the second loses the race and patches after all. -/

def firstPod : StringMap := Keyed.ofList [("train-0.dataset.json", "first")]

def secondPod : StringMap := Keyed.ofList [("train-1.dataset.json", "second")]

theorem apart_pods : [firstPod, secondPod].Pairwise Apart := by
  refine List.pairwise_pair.mpr fun key => ?_
  by_cases first : key = "train-0.dataset.json"
  · subst first
    exact Or.inr rfl
  · left
    rw [Keyed.find?_eq_none]
    intro entry member
    obtain rfl := List.mem_singleton.mp member
    exact Ne.symm first

theorem no_update_lost_in_race : ∃ world, (World.start none [firstPod, secondPod]).run [0, 1, 0, 1, 1] = some world ∧
    Lossless none [firstPod, secondPod] [0, 1, 0, 1, 1] world :=
  ⟨_, rfl, no_update_lost none [firstPod, secondPod] apart_pods [0, 1, 0, 1, 1] _ rfl⟩

end AibomWebhook.PatchConfigmap
