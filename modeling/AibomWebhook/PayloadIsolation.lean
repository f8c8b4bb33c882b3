import AibomWebhook.DatasetFiles
import AibomWebhook.Library.GoExactness

/-! Whether the payloads of the pods are kept apart in `discovery.json` and `storage.json`
of the inputs ConfigMap. All discoveries are written with one call of `json.Marshal`,
which fails for all of them when it refuses one; the storage is written unseen. -/

namespace AibomWebhook.PayloadIsolation
open Aibomdata DatasetFiles GoEncoding JsonText Objects PostprocessData

section Property
variable (codec : GoJson) (inputs : PostprocessInputs) (annotations : StringMap)

def discoveryJson : String := ((aggregateData codec inputs annotations).lookup "discovery.json").getD ""

def storageJson : String := ((aggregateData codec inputs annotations).lookup "storage.json").getD ""

/-- The discoveries that are JSON are written as one array, and the storage is JSON. -/
structure Isolated : Prop where
  discovery : meaning (discoveryJson codec inputs annotations) = some (.array (inputs.discoveries.filterMap meaning))
  storage : (meaning (storageJson codec inputs annotations)).isSome = true

/-- Every payload is accepted by `json.Marshal`, or none is JSON anyway; and so is the storage, if there is one. -/
structure AllOrNone : Prop where
  discovery : (∀ payload ∈ inputs.discoveries, payload ≠ "" → (read payload).isSome = true) ∨
    ∀ payload ∈ inputs.discoveries, meaning payload = none
  storage : inputs.storageJSON = "" ∨ (meaning inputs.storageJSON).isSome = true

end Property

theorem meaning_empty : meaning "" = none := by
  simp [meaning, tree, parse, value, skip]

theorem meaning_brackets : meaning "[]" = some (.array []) := by
  have brackets : "[]" = (Raw.array []).text := by decide
  rw [brackets, meaning_text rfl]
  rfl

theorem meaning_braces : (meaning "{}").isSome = true := by
  have braces : "{}" = (Raw.object []).text := by decide
  rw [braces, meaning_text rfl]
  rfl

/-- One text that is refused makes the whole call fail. -/
theorem mapM_read_none {payloads : List String} : payloads.mapM read = none ↔ ∃ payload ∈ payloads, read payload = none := by
  induction payloads with
  | nil => simp
  | cons payload rest ih =>
    rw [List.mapM_cons, List.exists_mem_cons_iff, ← ih]
    cases read payload with
    | none => exact iff_of_true rfl (Or.inl rfl)
    | some raw =>
      cases rest.mapM read with
      | none => exact iff_of_true rfl (Or.inr rfl)
      | some raws => simp

theorem mapM_read_meaning {payloads : List String} {raws : List Raw} (all : payloads.mapM read = some raws) :
    raws.map Raw.meaning = payloads.filterMap meaning ∧ ∀ raw ∈ raws, raw.legal = true := by
  induction payloads generalizing raws with
  | nil =>
    obtain rfl := Option.some.inj all
    exact ⟨rfl, fun raw member => absurd member List.not_mem_nil⟩
  | cons payload rest ih =>
    rw [List.mapM_cons] at all
    obtain ⟨raw, here, later⟩ := Option.bind_eq_some_iff.mp all
    obtain ⟨others, found, same⟩ := Option.bind_eq_some_iff.mp later
    obtain rfl := Option.some.inj same
    obtain ⟨meanings, legal⟩ := ih found
    refine ⟨?_, List.forall_mem_cons.mpr ⟨(parse_sound here).legal, legal⟩⟩
    rw [List.map_cons, List.filterMap_cons_some (meaning_of_parse here), meanings]

/-- An array of raw messages means what they mean. -/
theorem meaning_marshalRaw {payloads : List String} {text : String} (written : marshalRaw payloads = some text) :
    meaning text = some (.array (payloads.filterMap meaning)) := by
  obtain ⟨raws, all, rfl⟩ := Option.map_eq_some_iff.mp written
  obtain ⟨meanings, legal⟩ := mapM_read_meaning all
  have fine : (Raw.array (raws.map compact)).legal = true := by
    rw [Raw.legal, legalItems_iff, List.forall_mem_map]
    exact fun raw member => compact_legal (legal raw member)
  have same : (raws.map compact).map Raw.meaning = raws.map Raw.meaning := by
    rw [List.map_map]
    exact List.map_congr_left fun raw _ => meaning_compact raw
  rw [meaning_text fine, Raw.meaning, meaningItems_eq_map, same, meanings]

theorem filterMap_meaning_nonempty (payloads : List String) :
    (payloads.filter (· ≠ "")).filterMap meaning = payloads.filterMap meaning := by
  rw [List.filterMap_filter]
  refine congrArg (fun test => List.filterMap test payloads) (funext fun payload => ?_)
  by_cases empty : payload = ""
  · subst empty
    simp [meaning_empty]
  · simp [empty]

section Statement
variable (visit : Visit) (containers : List ContainerInfo → String) (time : Time → String)
  (inputs : PostprocessInputs) (annotations : StringMap)

theorem discoveryJson_eq : discoveryJson (goJson visit containers time) inputs annotations =
    if (inputs.discoveries.filter (· ≠ "")).isEmpty then "[]"
    else (marshalRaw (inputs.discoveries.filter (· ≠ ""))).getD "[]" := rfl

theorem storageJson_eq : storageJson (goJson visit containers time) inputs annotations =
    if inputs.storageJSON = "" then "{}" else inputs.storageJSON := rfl

theorem discovery_isolated_iff :
    meaning (discoveryJson (goJson visit containers time) inputs annotations) =
        some (.array (inputs.discoveries.filterMap meaning)) ↔
      (∀ payload ∈ inputs.discoveries, payload ≠ "" → (read payload).isSome = true) ∨
        ∀ payload ∈ inputs.discoveries, meaning payload = none := by
  have nothing : inputs.discoveries.filterMap meaning = [] ↔ ∀ payload ∈ inputs.discoveries, meaning payload = none :=
    List.filterMap_eq_nil_iff
  have lost : meaning "[]" = some (.array (inputs.discoveries.filterMap meaning)) ↔
      ∀ payload ∈ inputs.discoveries, meaning payload = none := by
    rw [meaning_brackets, ← nothing, Option.some.injEq, Value.array.injEq, eq_comm]
  rw [discoveryJson_eq]
  by_cases empty : (inputs.discoveries.filter (· ≠ "")).isEmpty = true
  · have all : ∀ payload ∈ inputs.discoveries, meaning payload = none := by
      intro payload member
      have blank := List.filter_eq_nil_iff.mp (List.isEmpty_iff.mp empty) payload member
      have same : payload = "" := by simpa using blank
      rw [same, meaning_empty]
    rw [if_pos empty, lost]
    exact ⟨Or.inr, fun _ => all⟩
  · rw [if_neg empty]
    cases written : marshalRaw (inputs.discoveries.filter (· ≠ "")) with
    | some text =>
      rw [Option.getD_some, meaning_marshalRaw written, filterMap_meaning_nonempty]
      refine iff_of_true rfl (Or.inl fun payload member nonempty => ?_)
      obtain ⟨raws, all, _⟩ := Option.map_eq_some_iff.mp written
      rw [Option.isSome_iff_ne_none]
      intro refused
      have inside : payload ∈ inputs.discoveries.filter (· ≠ "") :=
        List.mem_filter.mpr ⟨member, decide_eq_true nonempty⟩
      have failed := mapM_read_none.mpr ⟨payload, inside, refused⟩
      rw [all] at failed
      cases failed
    | none =>
      obtain ⟨payload, member, refused⟩ := mapM_read_none.mp (Option.map_eq_none_iff.mp written)
      obtain ⟨inside, nonempty⟩ := List.mem_filter.mp member
      rw [Option.getD_none, lost]
      refine ⟨Or.inr, fun either => either.resolve_left fun accepted => ?_⟩
      have found := accepted payload inside (by simpa using nonempty)
      rw [refused] at found
      cases found

/-- The payloads are kept apart exactly when all of them are accepted or none is JSON. -/
theorem isolated_iff :
    Isolated (goJson visit containers time) inputs annotations ↔ AllOrNone inputs := by
  have discovery := discovery_isolated_iff visit containers time inputs annotations
  have storage : (meaning (storageJson (goJson visit containers time) inputs annotations)).isSome = true ↔
      inputs.storageJSON = "" ∨ (meaning inputs.storageJSON).isSome = true := by
    rw [storageJson_eq]
    by_cases empty : inputs.storageJSON = ""
    · rw [if_pos empty]
      exact iff_of_true meaning_braces (Or.inl empty)
    · rw [if_neg empty]
      exact ⟨Or.inr, fun either => either.resolve_left empty⟩
  exact ⟨fun isolated => ⟨discovery.mp isolated.discovery, storage.mp isolated.storage⟩,
    fun fine => ⟨discovery.mpr fine.discovery, storage.mpr fine.storage⟩⟩

end Statement

/-! A pod whose discovery Python wrote with a NaN. -/

def exampleVisit : Visit := ⟨id, fun map => List.Perm.refl map.items⟩

def exampleJson : GoJson := goJson exampleVisit (fun _ => "[]") fun _ => ""

def exampleInputs : PostprocessInputs :=
  { discoveries := ["\x7b\"gpu\": 1\x7d", "\x7b\"gpu\": NaN\x7d"], datasets := [], containersJSON := "[]", storageJSON := "" }

theorem nan_costs_other_pod : ¬ Isolated exampleJson exampleInputs ∅ := by
  intro isolated
  have lost : discoveryJson exampleJson exampleInputs ∅ = "[]" := by decide +kernel
  have kept : (tree "\x7b\"gpu\": 1\x7d").isSome = true := by decide +kernel
  have discovery := isolated.discovery
  rw [lost, meaning_brackets, Option.some.injEq, Value.array.injEq, eq_comm, List.filterMap_eq_nil_iff] at discovery
  have nothing := discovery "\x7b\"gpu\": 1\x7d" List.mem_cons_self
  rw [meaning, Option.map_eq_none_iff] at nothing
  rw [nothing] at kept
  cases kept

end AibomWebhook.PayloadIsolation
