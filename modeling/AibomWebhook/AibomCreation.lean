import AibomWebhook.Library.Faults
import AibomWebhook.Library.Sha256
import AibomWebhook.Creation
import AibomWebhook.SafeGet

/-! The end of `postprocess.py`'s `main`: a telemetry object, then the AIBOM that refers to it, then the telemetry
object's owner. The postprocess Job starts the script again when it fails. -/

namespace AibomWebhook.AibomCreation

open PyValue Requests Sha256

structure Owner where
  apiVersion : String := "aibom.io/v1alpha1"
  kind : String := "AIBOM"
  name : String
  uid : String
  blockOwnerDeletion : Bool := true

/-- An `AIBOMTelemetry`. -/
structure Telemetry where
  name : String
  jobName : String
  schemaVersion : Int
  sizeBytes : Nat
  window : Value
  seriesJson : String
  owner : Option Owner := none

/-- An `AIBOM` to be created; the server makes its name of `generateName`. -/
structure Aibom where
  generateName : String
  jobName : String
  modelName : Value
  experimentIntent : Value
  collectedAt : Value
  data : Dict
  signature : Option (String × String) := none

/-- The objects of one namespace that the script writes. -/
structure Store where
  telemetries : Keyed Telemetry.name
  aiboms : List Aibom
  publicKey : Option String

inductive Request where
  | createTelemetry (telemetry : Telemetry)
  | patchConfigMap (publicKey : String)
  | createConfigMap (publicKey : String)
  | createAibom (aibom : Aibom)
  | setOwner (name : String) (owner : Owner)

inductive Answer where
  | created (name uid : String)
  | ok
  | error (code : Option Nat)

abbrev Api : Interface where
  Request := Request
  Response := fun _ => Answer

/-- What becomes of a request: it may be refused, and it may take effect although the client sees an error. A new
object gets its uid, and a generated name its suffix. -/
inductive Outcome where
  | served (suffix uid : String)
  | lost (suffix uid : String) (code : Option Nat)
  | refused (code : Option Nat)

def effect (suffix uid : String) (store : Store) : Request → Answer × Store
  | .createTelemetry telemetry =>
    if (store.telemetries.find? telemetry.name).isSome then (.error (some 409), store)
    else (.created telemetry.name uid, { store with telemetries := store.telemetries.put telemetry })
  | .patchConfigMap publicKey =>
    if store.publicKey.isSome then (.ok, { store with publicKey := some publicKey }) else (.error (some 404), store)
  | .createConfigMap publicKey =>
    if store.publicKey.isSome then (.error (some 409), store) else (.ok, { store with publicKey := some publicKey })
  | .createAibom aibom => (.created (aibom.generateName ++ suffix) uid, { store with aiboms := store.aiboms ++ [aibom] })
  | .setOwner name owner =>
    match store.telemetries.find? name with
    | none => (.error (some 404), store)
    | some telemetry =>
      (.ok, { store with telemetries := store.telemetries.put { telemetry with owner := some owner } })

def serve : Outcome → Store → (request : Request) → Answer × Store
  | .served suffix uid, store, request => effect suffix uid store request
  | .lost suffix uid code, store, request => (.error code, (effect suffix uid store request).2)
  | .refused code, store, _ => (.error code, store)

def Outcome.takesEffect : Outcome → Bool
  | .refused _ => false
  | _ => true

/-! The script. -/

/-- What the script is given, and what it calls that is not its own. -/
structure Config where
  jobName : String
  /-- `json.loads`. -/
  loads : String → Option Value
  /-- `sign_aibom`: no signature also when it raised. -/
  signAibom : Dict → Option (String × String)

/-- What `compile_aibom` returns. -/
structure Compiled where
  data : Dict
  unreferenced : data.get? "telemetry_series_ref" = none

/-- What the phases before leave. -/
inductive Prepared where
  | failed
  | compiled (aibom : Compiled) (seriesEncoded : Option String) (token : String)

def sha256Hex (text : String) : String := encodeToString (sum256 text.toUTF8.toList)

variable (config : Config)

/-- The telemetry object of a series, and the reference to it; the encoded series has a window, or it raises. -/
def telemetryOf (encoded token : String) : Option (Telemetry × Value) := do
  let name := config.jobName ++ "-telemetry-" ++ token
  let window ← (← config.loads encoded).item "window"
  let start ← window.item "start"
  let stop ← window.item "end"
  let step ← window.item "step_seconds"
  let telemetry : Telemetry := {
    name, jobName := config.jobName, schemaVersion := 1, sizeBytes := encoded.utf8ByteSize
    window := .dict [("start", start), ("end", stop), ("stepSeconds", step)], seriesJson := encoded }
  return (telemetry, .dict [
    ("schema_version", .int 1), ("kind", .str "AIBOMTelemetry"), ("name", .str name),
    ("sha256", .str (sha256Hex encoded)), ("size_bytes", .int encoded.utf8ByteSize), ("window", window)])

/-- `publish_series_object`: it raises, or returns the name and the reference, or nothing after an error. -/
def publishSeriesObject (encoded token : String) : Program Api (Option (Option (String × Value))) :=
  match telemetryOf config encoded token with
  | none => .done none
  | some (telemetry, reference) =>
    .call (.createTelemetry telemetry) fun
      | .error _ => .done (some none)
      | _ => .done (some (some (telemetry.name, reference)))

/-- `k8s_api.patch_configmap`, whose exceptions the caller takes. -/
def patchConfigmap (publicKey : String) : Program Api Unit :=
  .call (.patchConfigMap publicKey) fun
    | .error (some 404) =>
      .call (.createConfigMap publicKey) fun
        | .error (some 409) => .call (.patchConfigMap publicKey) fun _ => .done ()
        | _ => .done ()
    | _ => .done ()

/-- The `aibom_cr` of `main`; without a time of generation it raises. -/
def aibomResource (data : Dict) : Option Aibom := do
  let collectedAt ← (← data.get? "_metadata").item "generated_at"
  let intent := data.getD "experiment_intent" .none
  return {
    generateName := config.jobName ++ "-", jobName := config.jobName
    modelName := safeGet (.str "") (.ofDict data) ["model", "name"]
    experimentIntent := if intent.truthy then intent else .str ""
    collectedAt, data
    signature := (config.signAibom data).filter fun pair => pair.1 != "" }

/-- The telemetry object that the AIBOM will own, if there is a series and it can be stored. -/
def publishSeries (seriesEncoded : Option String) (token : String) : Program Api (Option (Option (String × Value))) :=
  match seriesEncoded with
  | none => .done (some none)
  | some encoded => if encoded = "" then .done (some none) else publishSeriesObject config encoded token

/-- The data with the reference, which comes before the signature. -/
def referring (aibom : Compiled) : Option (String × Value) → Dict
  | none => aibom.data
  | some (_, reference) => aibom.data.set "telemetry_series_ref" reference

/-- Of a signed AIBOM the public key is published. -/
def publishKey (resource : Aibom) : Program Api Unit :=
  match resource.signature with
  | none => .done ()
  | some (_, publicKey) => patchConfigmap publicKey

/-- `main` up to the create: the resource and the name of the telemetry object, unless it raised. -/
def prepare (aibom : Compiled) (seriesEncoded : Option String) (token : String) :
    Program Api (Option (Aibom × Option String)) := do
  match ← publishSeries config seriesEncoded token with
  | none => return none
  | some published =>
    match aibomResource config (referring aibom published) with
    | none => return none
    | some resource => do
      publishKey resource
      return some (resource, published.map Prod.fst)

/-- The AIBOM becomes the owner of its telemetry object; a failure is only a warning. -/
def setOwner (seriesObjectName : Option String) (name uid : String) : Program Api Nat :=
  match seriesObjectName with
  | none => .done 0
  | some series => .call (.setOwner series { name, uid }) fun _ => .done 0

/-- `main` from the create on, with its exit code. -/
def createAibom (resource : Aibom) (seriesObjectName : Option String) : Program Api Nat :=
  .call (.createAibom resource) fun
    | .created name uid => setOwner seriesObjectName name uid
    | _ => .done 1

def main (prepared : Prepared) : Program Api Nat :=
  if config.jobName = "" then .done 1
  else
    match prepared with
    | .failed => .done 1
    | .compiled aibom seriesEncoded token => do
      match ← prepare config aibom seriesEncoded token with
      | none => return 1
      | some (resource, seriesObjectName) => createAibom resource seriesObjectName

/-! The Job. -/

/-- One pod of the Job: it is killed when there are no more outcomes, or after the last request. -/
structure Attempt where
  prepared : Prepared
  outcomes : List Outcome
  survives : Bool

/-- What the attempt leaves, and whether its pod succeeded. -/
def Attempt.run (attempt : Attempt) (store : Store) : Store × Bool :=
  let ended := (main config attempt.prepared).under serve attempt.outcomes store
  (ended.1, match ended.2 with
    | some (0, _) => attempt.survives
    | _ => false)

/-- The requests of the attempt that reached the server or did not, with what became of them. -/
def Attempt.met (attempt : Attempt) (store : Store) : List (Outcome × Request) :=
  (main config attempt.prepared).met serve attempt.outcomes store

/-- A Job starts a pod for each failure up to its limit, which is 6 unless it sets one, and one more. -/
def podLimit (job : Objects.Job) : Nat := job.content.backoffLimit.getD 6 + 1

/-- The pods of the Job, at most that many, until one succeeds. -/
def runJob : Nat → List Attempt → Store → Store
  | 0, _, store => store
  | _ + 1, [], store => store
  | left + 1, attempt :: later, store =>
    if (attempt.run config store).2 then (attempt.run config store).1
    else runJob left later (attempt.run config store).1

/-! What every request keeps. -/

/-- The object that a reference names is there, with the content that the reference hashes. -/
def Recorded (store : Store) (reference : Value) : Prop :=
  ∃ name telemetry, reference.item "name" = some (.str name) ∧ store.telemetries.find? name = some telemetry ∧
    reference.item "sha256" = some (.str (sha256Hex telemetry.seriesJson))

/-- No AIBOM goes, and no object that a reference names changes its content. -/
structure Grows (first second : Store) : Prop where
  aiboms : first.aiboms <+: second.aiboms
  recorded : ∀ reference, Recorded first reference → Recorded second reference

theorem Grows.refl (store : Store) : Grows store store := ⟨List.prefix_rfl, fun _ recorded => recorded⟩

theorem Grows.trans (first second third : Store) (early : Grows first second) (late : Grows second third) :
    Grows first third :=
  ⟨early.aiboms.trans late.aiboms, fun reference recorded => late.recorded reference (early.recorded reference recorded)⟩

/-- An object is new, or written with the content that it had. -/
theorem recorded_put {store : Store} {reference : Value} {telemetry : Telemetry} (recorded : Recorded store reference)
    (same : ∀ old, store.telemetries.find? telemetry.name = some old → old.seriesJson = telemetry.seriesJson) :
    Recorded { store with telemetries := store.telemetries.put telemetry } reference := by
  obtain ⟨name, old, named, found, sha⟩ := recorded
  by_cases replaced : telemetry.name = name
  · subst replaced
    exact ⟨telemetry.name, telemetry, named, Keyed.find?_put_self _ _, by rw [sha, same old found]⟩
  · exact ⟨name, old, named, (Keyed.find?_put_of_ne replaced _).trans found, sha⟩

theorem effect_grows (suffix uid : String) (store : Store) (request : Request) :
    Grows store (effect suffix uid store request).2 := by
  cases request with
  | createTelemetry telemetry =>
    simp only [effect]
    split
    · exact .refl store
    · rename_i absent
      refine ⟨List.prefix_rfl, fun reference recorded => recorded_put recorded fun old found => ?_⟩
      exact absurd (Option.isSome_iff_exists.mpr ⟨old, found⟩) absent
  | patchConfigMap publicKey =>
    simp only [effect]
    split
    · exact ⟨List.prefix_rfl, fun _ recorded => recorded⟩
    · exact .refl store
  | createConfigMap publicKey =>
    simp only [effect]
    split
    · exact .refl store
    · exact ⟨List.prefix_rfl, fun _ recorded => recorded⟩
  | createAibom aibom => exact ⟨List.prefix_append _ _, fun _ recorded => recorded⟩
  | setOwner name owner =>
    simp only [effect]
    split
    · exact .refl store
    · rename_i telemetry found
      refine ⟨List.prefix_rfl, fun reference recorded => recorded_put recorded fun old found' => ?_⟩
      change store.telemetries.find? telemetry.name = some old at found'
      rw [Keyed.key_of_find? found, found] at found'
      rw [← Option.some.inj found']

theorem serve_grows (outcome : Outcome) (store : Store) (request : Request) :
    Grows store (serve outcome store request).2 := by
  cases outcome with
  | served suffix uid => exact effect_grows suffix uid store request
  | lost suffix uid code => exact effect_grows suffix uid store request
  | refused code => exact .refl store

/-- Every program only adds. -/
theorem under_grows {α : Type} (program : Program Api α) (outcomes : List Outcome) (store : Store) :
    Grows store (program.under serve outcomes store).1 :=
  program.uses_any.under .refl .trans (fun outcome state request _ => serve_grows outcome state request) outcomes store

/-- The request creates no AIBOM. -/
def sparesAiboms : Request → Prop
  | .createAibom _ => False
  | _ => True

theorem effect_spares {request : Request} (spares : sparesAiboms request) (suffix uid : String) (store : Store) :
    (effect suffix uid store request).2.aiboms = store.aiboms := by
  cases request with
  | createAibom aibom => exact spares.elim
  | createTelemetry telemetry => simp only [effect]; split <;> rfl
  | patchConfigMap publicKey => simp only [effect]; split <;> rfl
  | createConfigMap publicKey => simp only [effect]; split <;> rfl
  | setOwner name owner => simp only [effect]; split <;> rfl

theorem serve_spares {request : Request} (spares : sparesAiboms request) (outcome : Outcome) (store : Store) :
    (serve outcome store request).2.aiboms = store.aiboms := by
  cases outcome with
  | served suffix uid => exact effect_spares spares suffix uid store
  | lost suffix uid code => exact effect_spares spares suffix uid store
  | refused code => rfl

/-- The AIBOMs are the same. -/
structure SameAiboms (first second : Store) : Prop where
  same : second.aiboms = first.aiboms

theorem SameAiboms.trans (first second third : Store) (early : SameAiboms first second)
    (late : SameAiboms second third) : SameAiboms first third := ⟨late.same.trans early.same⟩

theorem under_spares {α : Type} {program : Program Api α} (uses : program.Uses sparesAiboms) (outcomes : List Outcome)
    (store : Store) : (program.under serve outcomes store).1.aiboms = store.aiboms := by
  have kept : SameAiboms store (program.under serve outcomes store).1 :=
    uses.under (fun _ => ⟨rfl⟩) SameAiboms.trans
      (fun outcome state _ spares => ⟨serve_spares spares outcome state⟩) outcomes store
  exact kept.same

/-! What `main` sends before the create. -/

variable {config : Config}

theorem publishSeries_uses (seriesEncoded : Option String) (token : String) :
    (publishSeries config seriesEncoded token).Uses sparesAiboms := by
  unfold publishSeries
  split
  · trivial
  · split
    · trivial
    · unfold publishSeriesObject
      split
      · trivial
      · refine ⟨trivial, fun response => ?_⟩
        cases response <;> trivial

theorem patchConfigmap_uses (publicKey : String) : (patchConfigmap publicKey).Uses sparesAiboms := by
  refine ⟨trivial, fun response => ?_⟩
  dsimp only
  split
  · refine ⟨trivial, fun response => ?_⟩
    dsimp only
    split
    · exact ⟨trivial, fun _ => trivial⟩
    · trivial
  · trivial

theorem publishKey_uses (resource : Aibom) : (publishKey resource).Uses sparesAiboms := by
  unfold publishKey
  split
  · trivial
  · exact patchConfigmap_uses _

theorem prepare_uses (aibom : Compiled) (seriesEncoded : Option String) (token : String) :
    (prepare config aibom seriesEncoded token).Uses sparesAiboms := by
  unfold prepare
  apply (publishSeries_uses seriesEncoded token).bind
  intro published
  split
  · trivial
  · split
    · trivial
    · exact (publishKey_uses _).bind fun _ => trivial

/-! The reference. -/

theorem telemetryOf_reference {encoded token : String} {telemetry : Telemetry} {reference : Value}
    (made : telemetryOf config encoded token = some (telemetry, reference)) :
    reference.item "name" = some (.str telemetry.name) ∧
      reference.item "sha256" = some (.str (sha256Hex telemetry.seriesJson)) := by
  simp only [telemetryOf, Option.bind_eq_bind, Option.bind_eq_some_iff, Option.pure_def, Option.some.injEq,
    Prod.mk.injEq] at made
  obtain ⟨document, _, window, _, start, _, stop, _, step, _, rfl, rfl⟩ := made
  exact ⟨rfl, rfl⟩

/-- A reference is to an object that the server has. -/
theorem publishSeries_recorded {seriesEncoded : Option String} {token name : String} {reference : Value}
    {outcomes left : List Outcome} {store after : Store}
    (published : (publishSeries config seriesEncoded token).under serve outcomes store =
      (after, some (some (some (name, reference)), left))) : Recorded after reference := by
  unfold publishSeries at published
  cases seriesEncoded with
  | none => simp [Program.under] at published
  | some encoded =>
    simp only at published
    split at published
    · simp [Program.under] at published
    · unfold publishSeriesObject at published
      cases made : telemetryOf config encoded token with
      | none => simp [made, Program.under] at published
      | some pair =>
        obtain ⟨telemetry, made'⟩ := pair
        simp only [made] at published
        cases outcomes with
        | nil => simp [Program.under] at published
        | cons outcome outcomes =>
          cases outcome with
          | lost suffix uid code => simp [Program.under, serve] at published
          | refused code => simp [Program.under, serve] at published
          | served suffix uid =>
            simp only [Program.under, serve, effect] at published
            by_cases taken : (store.telemetries.find? telemetry.name).isSome = true
            · simp [taken, Program.under] at published
            · simp only [if_neg taken, Program.under, Prod.mk.injEq, Option.some.injEq] at published
              obtain ⟨rfl, ⟨rfl, rfl⟩, _⟩ := published
              obtain ⟨named, sha⟩ := telemetryOf_reference made
              exact ⟨telemetry.name, telemetry, named, Keyed.find?_put_self _ _, sha⟩

theorem aibomResource_data {data : Dict} {resource : Aibom} (made : aibomResource config data = some resource) :
    resource.data = data := by
  simp only [aibomResource, Option.bind_eq_bind, Option.bind_eq_some_iff, Option.pure_def, Option.some.injEq] at made
  obtain ⟨metadata, _, collectedAt, _, rfl⟩ := made
  rfl

theorem referring_reference {aibom : Compiled} {published : Option (String × Value)} {reference : Value}
    (refers : (referring aibom published).get? "telemetry_series_ref" = some reference) :
    ∃ name, published = some (name, reference) := by
  cases published with
  | none =>
    rw [referring, aibom.unreferenced] at refers
    exact absurd refers (by simp)
  | some pair =>
    obtain ⟨name, made⟩ := pair
    rw [referring, Dict.get?_set_self, Option.some.injEq] at refers
    exact ⟨name, by rw [refers]⟩

/-- What the AIBOM to be created refers to is recorded. -/
theorem prepare_recorded {aibom : Compiled} {seriesEncoded seriesName : Option String} {token : String} {resource : Aibom}
    {outcomes left : List Outcome} {store after : Store}
    (prepared : (prepare config aibom seriesEncoded token).under serve outcomes store =
      (after, some (some (resource, seriesName), left))) :
    ∀ reference, resource.data.get? "telemetry_series_ref" = some reference → Recorded after reference := by
  intro reference refers
  unfold prepare at prepared
  rw [Program.under_bind (publishSeries config seriesEncoded token)] at prepared
  rcases early : (publishSeries config seriesEncoded token).under serve outcomes store with ⟨mid, _ | ⟨published, rest⟩⟩
  · simp [early] at prepared
  · simp only [early] at prepared
    cases published with
    | none => simp [Program.under] at prepared
    | some published =>
      simp only at prepared
      cases made : aibomResource config (referring aibom published) with
      | none => simp [made, Program.under] at prepared
      | some resource' =>
        simp only [made] at prepared
        rw [Program.under_bind (publishKey resource')] at prepared
        rcases late : (publishKey resource').under serve rest mid with ⟨last, _ | ⟨_, more⟩⟩
        · simp [late] at prepared
        · simp only [late, Program.pure_eq, Program.under, Prod.mk.injEq, Option.some.injEq] at prepared
          obtain ⟨rfl, ⟨rfl, _⟩, _⟩ := prepared
          rw [aibomResource_data made] at refers
          obtain ⟨name, rfl⟩ := referring_reference refers
          have grows := under_grows (publishKey resource') rest mid
          rw [late] at grows
          exact grows.recorded reference (publishSeries_recorded early)

/-! One attempt. -/

/-- The create of an AIBOM was served, or served and its answer lost. -/
def Creates (met : List (Outcome × Request)) : Prop :=
  ∃ outcome aibom, (outcome, Request.createAibom aibom) ∈ met ∧ outcome.takesEffect = true

/-- An attempt adds one AIBOM at most, whose reference is recorded, and only if its create took effect. -/
structure Adds (met : List (Outcome × Request)) (before after : Store) (created : List Aibom) : Prop where
  aiboms : after.aiboms = before.aiboms ++ created
  few : created.length ≤ 1
  recorded : ∀ aibom ∈ created, ∀ reference, aibom.data.get? "telemetry_series_ref" = some reference →
    Recorded after reference
  creates : created ≠ [] → Creates met

theorem Adds.nothing {met : List (Outcome × Request)} {before after : Store} (same : after.aiboms = before.aiboms) :
    Adds met before after [] where
  aiboms := by rw [same, List.append_nil]
  few := Nat.zero_le _
  recorded := by simp
  creates := fun some' => absurd rfl some'

theorem setOwner_uses (seriesObjectName : Option String) (name uid : String) :
    (setOwner seriesObjectName name uid).Uses sparesAiboms := by
  cases seriesObjectName with
  | none => trivial
  | some series => exact ⟨trivial, fun _ => trivial⟩

theorem createAibom_adds {resource : Aibom} {seriesObjectName : Option String} {store : Store}
    (recorded : ∀ reference, resource.data.get? "telemetry_series_ref" = some reference → Recorded store reference)
    (outcomes : List Outcome) :
    ∃ created, Adds ((createAibom resource seriesObjectName).met serve outcomes store) store
      ((createAibom resource seriesObjectName).under serve outcomes store).1 created := by
  have grows := under_grows (createAibom resource seriesObjectName) outcomes store
  have kept : ∀ aibom ∈ [resource], ∀ reference, aibom.data.get? "telemetry_series_ref" = some reference →
      Recorded ((createAibom resource seriesObjectName).under serve outcomes store).1 reference := by
    intro aibom mem reference refers
    rw [List.mem_singleton.mp mem] at refers
    exact grows.recorded reference (recorded reference refers)
  cases outcomes with
  | nil => exact ⟨[], .nothing rfl⟩
  | cons outcome outcomes =>
    cases outcome with
    | refused code => exact ⟨[], .nothing rfl⟩
    | lost suffix uid code =>
      exact ⟨[resource], rfl, le_refl 1, kept, fun _ => ⟨_, resource, List.mem_cons_self, rfl⟩⟩
    | served suffix uid =>
      refine ⟨[resource], ?_, le_refl 1, kept, fun _ => ⟨_, resource, List.mem_cons_self, rfl⟩⟩
      exact under_spares (setOwner_uses seriesObjectName (resource.generateName ++ suffix) uid) outcomes _

theorem main_adds (prepared : Prepared) (outcomes : List Outcome) (store : Store) :
    ∃ created, Adds ((main config prepared).met serve outcomes store) store
      ((main config prepared).under serve outcomes store).1 created := by
  unfold main
  split
  · exact ⟨[], .nothing rfl⟩
  · split
    · exact ⟨[], .nothing rfl⟩
    · rename_i aibom seriesEncoded token
      have spares := under_spares (@prepare_uses config aibom seriesEncoded token) outcomes store
      rw [Program.under_bind (prepare config aibom seriesEncoded token),
        Program.met_bind (prepare config aibom seriesEncoded token)]
      rcases early : (prepare config aibom seriesEncoded token).under serve outcomes store with
        ⟨mid, _ | ⟨prepared, left⟩⟩
      · simp only [early] at spares ⊢
        exact ⟨[], .nothing spares⟩
      · simp only [early] at spares ⊢
        cases prepared with
        | none => exact ⟨[], .nothing spares⟩
        | some pair =>
          obtain ⟨resource, seriesObjectName⟩ := pair
          simp only
          obtain ⟨created, adds⟩ := createAibom_adds (prepare_recorded early) left
          refine ⟨created, adds.aiboms.trans (by rw [spares]), adds.few, adds.recorded, fun some' => ?_⟩
          obtain ⟨outcome, aibom, mem, effect⟩ := adds.creates some'
          exact ⟨outcome, aibom, List.mem_append_right _ mem, effect⟩

/-! The Job. -/

/-- No pod is started after one whose create took effect. -/
def Settled (config : Config) : Nat → List Attempt → Store → Prop
  | left + 1, attempt :: next :: later, store =>
    (attempt.run config store).2 = true ∨
      (¬Creates (attempt.met config store) ∧ Settled config left (next :: later) (attempt.run config store).1)
  | _, _, _ => True

/-- Every AIBOM that came since refers to nothing that is not recorded. -/
def AllRecorded (start store : Store) : Prop :=
  ∀ aibom ∈ store.aiboms.drop start.aiboms.length, ∀ reference,
    aibom.data.get? "telemetry_series_ref" = some reference → Recorded store reference

/-- One more attempt keeps all recorded. -/
theorem AllRecorded.attempt {start store : Store} (recorded : AllRecorded start store)
    (grew : start.aiboms <+: store.aiboms) (attempt : Attempt) : AllRecorded start (attempt.run config store).1 := by
  obtain ⟨created, adds⟩ := main_adds attempt.prepared attempt.outcomes store
  have grows : Grows store (attempt.run config store).1 := under_grows _ _ _
  have aiboms : (attempt.run config store).1.aiboms = store.aiboms ++ created := adds.aiboms
  intro aibom mem reference refers
  rw [aiboms, List.drop_append_of_le_length grew.length_le] at mem
  rcases List.mem_append.mp mem with old | new
  · exact grows.recorded reference (recorded aibom old reference refers)
  · exact adds.recorded aibom new reference refers

theorem runJob_recorded (left : Nat) {attempts : List Attempt} {start store : Store} (recorded : AllRecorded start store)
    (grew : start.aiboms <+: store.aiboms) : AllRecorded start (runJob config left attempts store) := by
  induction left generalizing attempts store with
  | zero => exact recorded
  | succ left ih =>
    cases attempts with
    | nil => exact recorded
    | cons attempt later =>
      have first : AllRecorded start (attempt.run config store).1 := recorded.attempt grew attempt
      have grows : Grows store (attempt.run config store).1 := under_grows _ _ _
      unfold runJob
      split
      · exact first
      · exact ih first (grew.trans grows.aiboms)

theorem runJob_few {left : Nat} {attempts : List Attempt} {store : Store} (settled : Settled config left attempts store) :
    (runJob config left attempts store).aiboms.length ≤ store.aiboms.length + 1 := by
  induction left generalizing attempts store with
  | zero => exact Nat.le_succ _
  | succ left ih =>
    rcases attempts with _ | ⟨attempt, later⟩
    · exact Nat.le_succ _
    · obtain ⟨created, adds⟩ := main_adds attempt.prepared attempt.outcomes store
      have aiboms : (attempt.run config store).1.aiboms = store.aiboms ++ created := adds.aiboms
      have few : (attempt.run config store).1.aiboms.length ≤ store.aiboms.length + 1 := by
        rw [aiboms, List.length_append]
        have := adds.few
        omega
      unfold runJob
      split
      · exact few
      · rename_i failed
        rcases later with _ | ⟨next, later⟩
        · cases left <;> exact few
        · rcases settled with succeeded | ⟨spares, settled⟩
          · exact absurd succeeded failed
          · have none' : created = [] := by
              by_contra some'
              exact spares (adds.creates some')
            have same : (attempt.run config store).1.aiboms.length = store.aiboms.length := by
              rw [aiboms, none', List.append_nil]
            have rest := ih settled
            omega

/-- However the pods of a postprocess Job fail, no AIBOM refers to something that is not recorded; and the Job creates
one AIBOM at most, if no pod is started after one whose create took effect. -/
theorem one_aibom (w : Postprocess.Watcher) (ns triggerName triggerKind triggerUID : String) (config : Config)
    (attempts : List Attempt) (store : Store) :
    AllRecorded store
        (runJob config (podLimit (w.postprocessJob ns triggerName triggerKind triggerUID)) attempts store) ∧
      (Settled config (podLimit (w.postprocessJob ns triggerName triggerKind triggerUID)) attempts store →
        (runJob config (podLimit (w.postprocessJob ns triggerName triggerKind triggerUID)) attempts
          store).aiboms.length ≤ store.aiboms.length + 1) := by
  constructor
  · apply runJob_recorded _ _ List.prefix_rfl
    intro aibom mem
    rw [List.drop_length] at mem
    exact absurd mem List.not_mem_nil
  · exact runJob_few

/-! A Job whose first pod sees an error. -/

def exampleConfig : Config where
  jobName := "train"
  loads := fun _ => some (.dict [("window", .dict [("start", .int 0), ("end", .int 60), ("step_seconds", .int 30)])])
  signAibom := fun _ => none

def exampleCompiled : Compiled where
  data := Keyed.ofList [("_metadata", .dict [("generated_at", .str "2026-01-01T00:00:00Z")])]
  unreferenced := rfl

def noObjects : Store where
  telemetries := ∅
  aiboms := []
  publicKey := none

/-- An attempt with a series that meets these outcomes. -/
def exampleAttempt (token : String) (outcomes : List Outcome) : Attempt where
  prepared := .compiled exampleCompiled (some "series") token
  outcomes := outcomes
  survives := true

theorem not_creates_of_refused {met : List (Outcome × Request)}
    (refused : (met.all fun entry => !entry.1.takesEffect) = true) : ¬Creates met := by
  rintro ⟨outcome, aibom, mem, effect⟩
  have none' := List.all_eq_true.mp refused _ mem
  simp [effect] at none'

/-- A pod whose series is refused and whose create is refused is followed by one that succeeds. -/
theorem one_aibom_retried :
    (runJob exampleConfig (podLimit (Creation.exampleWatcher.postprocessJob "team" "train" "Job" "u1"))
      [exampleAttempt "00" [.refused none, .refused (some 500)],
        exampleAttempt "01" [.served "" "u2", .served "abcde" "u3", .served "" ""]] noObjects).aiboms.length ≤ 0 + 1 :=
  (one_aibom Creation.exampleWatcher "team" "train" "Job" "u1" exampleConfig _ noObjects).2
    (Or.inr ⟨not_creates_of_refused (by decide), trivial⟩)

/-- The create of the first pod takes effect, but the pod sees an error. -/
def lostAttempts : List Attempt :=
  [exampleAttempt "00" [.served "" "u2", .lost "abcde" "u3" none],
    exampleAttempt "01" [.served "" "u4", .served "fghij" "u5", .served "" ""]]

theorem created_twice : ¬(runJob exampleConfig (podLimit (Creation.exampleWatcher.postprocessJob "team" "train" "Job" "u1"))
    lostAttempts noObjects).aiboms.length ≤ noObjects.aiboms.length + 1 := by
  decide

/-- The second pod creates another AIBOM. -/
theorem two_aiboms : ¬∀ (w : Postprocess.Watcher) (ns triggerName triggerKind triggerUID : String) (config : Config)
    (attempts : List Attempt) (store : Store),
    (runJob config (podLimit (w.postprocessJob ns triggerName triggerKind triggerUID)) attempts store).aiboms.length ≤
      store.aiboms.length + 1 := by
  intro few
  exact created_twice (few Creation.exampleWatcher "team" "train" "Job" "u1" exampleConfig lostAttempts noObjects)

end AibomWebhook.AibomCreation
