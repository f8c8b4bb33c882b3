import AibomWebhook.Checkout
import AibomWebhook.Library.PyNumber

/-! What wins in the model, training, fine-tuning and inference sections of an AIBOM
(postprocess.py, `compile_aibom`): the annotations, what was detected from the commands
and the storage, and what the hooks recorded at run time. -/

namespace AibomWebhook.Precedence
open Checkout Objects PyNumber PyValue

/-! Choosing. -/

/-- `first or second`. -/
def orElse (first second : Value) : Value := if first.truthy then first else second

def firstNotNone (values : List Value) : Value := (values.find? (· ≠ .none)).getD .none

def tryInt : Option String → Value
  | none => .none
  | some text => match intOf text with
    | some n => .int n
    | none => .none

def tryFloat : Option String → Value
  | none => .none
  | some text => match floatOf text with
    | some f => .float f
    | none => .none

/-- `dict.get(key)`. -/
def get (dict : Dict) (key : String) : Value := dict.getD key .none

def vllmExtraKeys : List String :=
  ["served_model_name", "max_num_seqs", "seed", "trust_remote_code", "enforce_eager", "enable_prefix_caching"]

abbrev Section := List (String × Value)

structure Compiled where
  model : Section
  training : Option Section
  fineTuning : Option Section
  inference : Option Section

section Compile
variable (annotations : StringMap) (dm runtimeInfo : Dict)

/-- `annotations.get(name)`. -/
def annotated (name : String) : Value :=
  match annotationOf annotations name with
  | some text => .str text
  | none => .none

def intent : String :=
  match named (annotationOf annotations "experiment-intent") with
  | some declared => declared
  | none =>
    if (get dm "serving_engine").truthy then "inference"
    else if (get dm "training_framework").truthy then if (get dm "adaptation_method").truthy then "sft" else "training"
    else "unknown"

/-- A field that is there only if it was detected. -/
def detected (source target : String) : Section :=
  if (get dm source).truthy then [(target, get dm source)] else []

def modelSection : Section :=
  [("name", orElse (annotated annotations "model-name") (orElse (get dm "model_name") (get runtimeInfo "model_name"))),
    ("version", annotated annotations "model-version"),
    ("architecture", orElse (annotated annotations "model-architecture")
      (orElse (get runtimeInfo "model_architecture") (get dm "architecture"))),
    ("framework", orElse (annotated annotations "model-framework")
      (orElse (get dm "serving_engine") (orElse (get dm "training_framework") (get runtimeInfo "training_framework")))),
    ("quantization", orElse (annotated annotations "quantization")
      (orElse (get dm "quantization") (orElse (get dm "quantization_method") (get runtimeInfo "quantization_method")))),
    ("quantization_bits", orElse (tryInt (annotationOf annotations "quantization-bits"))
      (orElse (get dm "quantization_bits") (get runtimeInfo "quantization_bits"))),
    ("dtype", orElse (annotated annotations "dtype") (orElse (get dm "dtype") (get runtimeInfo "dtype")))] ++
  detected dm "speculative_config" "speculative_decoding" ++
  (if (get dm "model_name_declared_via").truthy then
    [("name_declared_via",
      if (annotated annotations "model-name").truthy then .str "annotation" else get dm "model_name_declared_via")]
  else []) ++
  if (annotated annotations "model-name").isIn [.none, .str "", get dm "model_name"] then
    detected dm "model_revision" "revision" ++ detected dm "base_model" "base_model" ++
      detected dm "model_size_bytes" "size_bytes"
  else []

/-- `value > 1`. -/
def aboveOne (value : Value) : Bool :=
  match value.number with
  | some n => 1 < n
  | none => value = .float (.inf false)

def trainingSection : Section :=
  [("optimizer", orElse (annotated annotations "optimizer") (get runtimeInfo "optimizer")),
    ("learning_rate", firstNotNone
      [tryFloat (annotationOf annotations "learning-rate"), get runtimeInfo "learning_rate", get dm "learning_rate"]),
    ("batch_size", firstNotNone
      [tryInt (annotationOf annotations "batch-size"), get runtimeInfo "batch_size", get dm "batch_size"]),
    ("epochs", firstNotNone [tryInt (annotationOf annotations "epochs"), get runtimeInfo "epochs", get dm "epochs"]),
    ("random_seed", firstNotNone
      [tryInt (annotationOf annotations "random-seed"), get runtimeInfo "random_seed", get dm "random_seed"]),
    ("mixed_precision", get runtimeInfo "mixed_precision"),
    ("parallelization_strategy", orElse (annotated annotations "parallelization-strategy")
      (orElse (get runtimeInfo "parallelization_strategy") (orElse (get dm "parallelization_strategy")
        (if aboveOne (orElse (get runtimeInfo "model_device_count") (.int 0)) then .str "model_parallel" else .none))))]

def runtimeAdaptation : Value :=
  if get runtimeInfo "adaptation_method" = .str "lora" ∧
      ((get runtimeInfo "quantization_method").truthy ∨ (get runtimeInfo "quantization_bits").truthy) then .str "qlora"
  else get runtimeInfo "adaptation_method"

def fineTuningSection : Section :=
  [("adaptation_method", orElse (annotated annotations "adaptation-method")
      (orElse (get dm "adaptation_method") (runtimeAdaptation runtimeInfo))),
    ("lora_rank", orElse (tryInt (annotationOf annotations "lora-rank"))
      (orElse (get dm "lora_rank") (get runtimeInfo "lora_rank"))),
    ("lora_alpha", orElse (tryInt (annotationOf annotations "lora-alpha"))
      (orElse (get dm "lora_alpha") (get runtimeInfo "lora_alpha")))]

def generationOverrides : Dict := (get dm "generation_config_overrides").asDict.getD ∅

/-- The serving role that all pods with one agree on. -/
def servingRole (roles : List String) : Section :=
  match roles.dedup with
  | [role] => [("serving_role", .str role)]
  | _ => []

def inferenceSection (roles : List String) : Section :=
  [("serving_engine", orElse (annotated annotations "serving-engine") (get dm "serving_engine")),
    ("max_model_len", orElse (tryInt (annotationOf annotations "max-model-len")) (get dm "max_model_len")),
    ("tensor_parallel_size", orElse (tryInt (annotationOf annotations "tensor-parallel-size")) (get dm "tensor_parallel_size")),
    ("pipeline_parallel_size",
      orElse (tryInt (annotationOf annotations "pipeline-parallel-size")) (get dm "pipeline_parallel_size")),
    ("enable_expert_parallel", get dm "enable_expert_parallel"),
    ("data_parallel_size", orElse (tryInt (annotationOf annotations "data-parallel-size")) (get dm "data_parallel_size")),
    ("gpu_memory_utilization",
      orElse (tryFloat (annotationOf annotations "gpu-memory-utilization")) (get dm "gpu_memory_utilization")),
    ("temperature", orElse (tryFloat (annotationOf annotations "temperature")) (get (generationOverrides dm) "temperature")),
    ("top_p", orElse (tryFloat (annotationOf annotations "top-p")) (get (generationOverrides dm) "top_p")),
    ("top_k", orElse (tryInt (annotationOf annotations "top-k")) (get (generationOverrides dm) "top_k")),
    ("max_tokens", tryInt (annotationOf annotations "max-tokens"))] ++
  vllmExtraKeys.map (fun key => (key, get dm key)) ++ servingRole roles

def compileSections (roles : List String) : Compiled :=
  { model := modelSection annotations dm runtimeInfo
    training :=
      if intent annotations dm ∈ ["training", "sft"] then some (trainingSection annotations dm runtimeInfo) else none
    fineTuning := if intent annotations dm = "sft" then some (fineTuningSection annotations dm runtimeInfo) else none
    inference := if intent annotations dm = "inference" then some (inferenceSection annotations dm roles) else none }

end Compile

/-! The fields that have an annotation. -/

inductive Place where
  | model
  | training
  | fineTuning
  | inference

def Compiled.at (compiled : Compiled) : Place → Option Section
  | .model => some compiled.model
  | .training => compiled.training
  | .fineTuning => compiled.fineTuning
  | .inference => compiled.inference

inductive Conversion where
  | text
  | int
  | float

def Conversion.convert : Conversion → String → Option Value
  | .text, written => some (.str written)
  | .int, written => (intOf written).map .int
  | .float, written => (floatOf written).map .float

/-- How the annotation is put before the other values. -/
inductive Joining where
  | alone
  | notNone
  | truthy
  deriving DecidableEq

structure AnnotatedField where
  place : Place
  key : String
  name : String
  conversion : Conversion
  joining : Joining
  /-- What the field is without its annotation. -/
  others : Dict → Dict → Value

def either (first second : Dict → Dict → Value) (dm runtimeInfo : Dict) : Value :=
  orElse (first dm runtimeInfo) (second dm runtimeInfo)

def ofModel (key : String) (dm _runtimeInfo : Dict) : Value := get dm key

def ofRuntime (key : String) (_dm runtimeInfo : Dict) : Value := get runtimeInfo key

def ofOverrides (key : String) (dm _runtimeInfo : Dict) : Value := get (generationOverrides dm) key

def runtimeFirst (key : String) (dm runtimeInfo : Dict) : Value := firstNotNone [get runtimeInfo key, get dm key]

def modelFields : List AnnotatedField :=
  [⟨.model, "name", "model-name", .text, .truthy, either (ofModel "model_name") (ofRuntime "model_name")⟩,
    ⟨.model, "version", "model-version", .text, .alone, fun _ _ => .none⟩,
    ⟨.model, "architecture", "model-architecture", .text, .truthy,
      either (ofRuntime "model_architecture") (ofModel "architecture")⟩,
    ⟨.model, "framework", "model-framework", .text, .truthy,
      either (ofModel "serving_engine") (either (ofModel "training_framework") (ofRuntime "training_framework"))⟩,
    ⟨.model, "quantization", "quantization", .text, .truthy,
      either (ofModel "quantization") (either (ofModel "quantization_method") (ofRuntime "quantization_method"))⟩,
    ⟨.model, "quantization_bits", "quantization-bits", .int, .truthy,
      either (ofModel "quantization_bits") (ofRuntime "quantization_bits")⟩,
    ⟨.model, "dtype", "dtype", .text, .truthy, either (ofModel "dtype") (ofRuntime "dtype")⟩]

def trainingFields : List AnnotatedField :=
  [⟨.training, "optimizer", "optimizer", .text, .truthy, ofRuntime "optimizer"⟩,
    ⟨.training, "learning_rate", "learning-rate", .float, .notNone, runtimeFirst "learning_rate"⟩,
    ⟨.training, "batch_size", "batch-size", .int, .notNone, runtimeFirst "batch_size"⟩,
    ⟨.training, "epochs", "epochs", .int, .notNone, runtimeFirst "epochs"⟩,
    ⟨.training, "random_seed", "random-seed", .int, .notNone, runtimeFirst "random_seed"⟩,
    ⟨.training, "parallelization_strategy", "parallelization-strategy", .text, .truthy,
      either (ofRuntime "parallelization_strategy") (either (ofModel "parallelization_strategy") fun _ runtimeInfo =>
        if aboveOne (orElse (get runtimeInfo "model_device_count") (.int 0)) then .str "model_parallel" else .none)⟩]

def fineTuningFields : List AnnotatedField :=
  [⟨.fineTuning, "adaptation_method", "adaptation-method", .text, .truthy,
      either (ofModel "adaptation_method") fun _ runtimeInfo => runtimeAdaptation runtimeInfo⟩,
    ⟨.fineTuning, "lora_rank", "lora-rank", .int, .truthy, either (ofModel "lora_rank") (ofRuntime "lora_rank")⟩,
    ⟨.fineTuning, "lora_alpha", "lora-alpha", .int, .truthy, either (ofModel "lora_alpha") (ofRuntime "lora_alpha")⟩]

def inferenceFields : List AnnotatedField :=
  [⟨.inference, "serving_engine", "serving-engine", .text, .truthy, ofModel "serving_engine"⟩,
    ⟨.inference, "max_model_len", "max-model-len", .int, .truthy, ofModel "max_model_len"⟩,
    ⟨.inference, "tensor_parallel_size", "tensor-parallel-size", .int, .truthy, ofModel "tensor_parallel_size"⟩,
    ⟨.inference, "pipeline_parallel_size", "pipeline-parallel-size", .int, .truthy, ofModel "pipeline_parallel_size"⟩,
    ⟨.inference, "data_parallel_size", "data-parallel-size", .int, .truthy, ofModel "data_parallel_size"⟩,
    ⟨.inference, "gpu_memory_utilization", "gpu-memory-utilization", .float, .truthy, ofModel "gpu_memory_utilization"⟩,
    ⟨.inference, "temperature", "temperature", .float, .truthy, ofOverrides "temperature"⟩,
    ⟨.inference, "top_p", "top-p", .float, .truthy, ofOverrides "top_p"⟩,
    ⟨.inference, "top_k", "top-k", .int, .truthy, ofOverrides "top_k"⟩,
    ⟨.inference, "max_tokens", "max-tokens", .int, .alone, fun _ _ => .none⟩]

def annotatedFields : List AnnotatedField := modelFields ++ trainingFields ++ fineTuningFields ++ inferenceFields

section Property
variable (annotations : StringMap) (dm runtimeInfo : Dict)

/-- The value of the annotation, if it is there and its converter accepts it. -/
def AnnotatedField.converted (field : AnnotatedField) : Option Value :=
  (annotationOf annotations field.name).bind field.conversion.convert

def AnnotationsWin (compiled : Compiled) : Prop :=
  ∀ field ∈ annotatedFields, ∀ list value, compiled.at field.place = some list →
    field.converted annotations = some value → list.lookup field.key = some value

/-- Zeros and empty texts count for nothing in a chain of `or`, unless it comes to them anyway. -/
def FalsyElsewhere (compiled : Compiled) : Prop :=
  ∀ field ∈ annotatedFields, field.joining = .truthy → (compiled.at field.place).isSome = true →
    ∀ value, field.converted annotations = some value → value.truthy = false → field.others dm runtimeInfo = value

def Joining.join : Joining → Value → Value → Value
  | .alone, value, _ => value
  | .notNone, value, others => if value ≠ .none then value else others
  | .truthy, value, others => orElse value others

end Property

section Chains
variable {annotations : StringMap} {dm runtimeInfo : Dict}

theorem firstNotNone_cons (first : Value) (rest : List Value) :
    firstNotNone (first :: rest) = if first ≠ .none then first else firstNotNone rest := by
  unfold firstNotNone
  by_cases none_ : first = .none
  · rw [List.find?_cons_of_neg (by simp [none_]), if_neg (not_not.mpr none_)]
  · rw [List.find?_cons_of_pos (by simp [none_]), if_pos none_, Option.getD_some]

theorem annotated_eq (name : String) :
    annotated annotations name = ((annotationOf annotations name).bind Conversion.text.convert).getD .none := by
  rw [annotated]
  cases annotationOf annotations name <;> rfl

theorem tryInt_eq (text : Option String) : tryInt text = (text.bind Conversion.int.convert).getD .none := by
  cases text with
  | none => rfl
  | some written =>
    simp only [tryInt, Option.bind_some, Conversion.convert]
    cases intOf written <;> rfl

theorem tryFloat_eq (text : Option String) : tryFloat text = (text.bind Conversion.float.convert).getD .none := by
  cases text with
  | none => rfl
  | some written =>
    simp only [tryFloat, Option.bind_some, Conversion.convert]
    cases floatOf written <;> rfl

/-- The field is in the section as the table says. -/
def Tabled (annotations : StringMap) (dm runtimeInfo : Dict) (list : Section) (field : AnnotatedField) : Prop :=
  list.lookup field.key =
    some (field.joining.join ((field.converted annotations).getD .none) (field.others dm runtimeInfo))

theorem tabled_model : ∀ field ∈ modelFields, Tabled annotations dm runtimeInfo (modelSection annotations dm runtimeInfo) field := by
  simp only [modelFields, List.forall_mem_cons, Tabled, AnnotatedField.converted, ← annotated_eq, ← tryInt_eq]
  exact ⟨rfl, rfl, rfl, rfl, rfl, rfl, rfl, fun field member => absurd member List.not_mem_nil⟩

theorem join_notNone (value first second : Value) :
    firstNotNone [value, first, second] = Joining.notNone.join value (firstNotNone [first, second]) :=
  firstNotNone_cons value [first, second]

theorem tabled_training :
    ∀ field ∈ trainingFields, Tabled annotations dm runtimeInfo (trainingSection annotations dm runtimeInfo) field := by
  simp only [trainingFields, List.forall_mem_cons, Tabled, AnnotatedField.converted, ← annotated_eq, ← tryInt_eq, ← tryFloat_eq,
    runtimeFirst, ← join_notNone]
  exact ⟨rfl, rfl, rfl, rfl, rfl, rfl, fun field member => absurd member List.not_mem_nil⟩

theorem tabled_fineTuning :
    ∀ field ∈ fineTuningFields, Tabled annotations dm runtimeInfo (fineTuningSection annotations dm runtimeInfo) field := by
  simp only [fineTuningFields, List.forall_mem_cons, Tabled, AnnotatedField.converted, ← annotated_eq, ← tryInt_eq]
  exact ⟨rfl, rfl, rfl, fun field member => absurd member List.not_mem_nil⟩

theorem tabled_inference (roles : List String) :
    ∀ field ∈ inferenceFields, Tabled annotations dm runtimeInfo (inferenceSection annotations dm roles) field := by
  simp only [inferenceFields, List.forall_mem_cons, Tabled, AnnotatedField.converted, ← annotated_eq, ← tryInt_eq, ← tryFloat_eq]
  exact ⟨rfl, rfl, rfl, rfl, rfl, rfl, rfl, rfl, rfl, rfl, fun field member => absurd member List.not_mem_nil⟩

theorem places : (∀ field ∈ modelFields, field.place = .model) ∧ (∀ field ∈ trainingFields, field.place = .training) ∧
    (∀ field ∈ fineTuningFields, field.place = .fineTuning) ∧ ∀ field ∈ inferenceFields, field.place = .inference := by
  simp only [modelFields, trainingFields, fineTuningFields, inferenceFields, List.forall_mem_cons, List.not_mem_nil,
    false_implies, implies_true, and_self]

/-- The sections put the annotations before the other values as the table says. -/
theorem tabled_section {roles : List String} {field : AnnotatedField} (member : field ∈ annotatedFields) {list : Section}
    (present : (compileSections annotations dm runtimeInfo roles).at field.place = some list) :
    Tabled annotations dm runtimeInfo list field := by
  have kept {condition : Prop} [Decidable condition] {found : Section}
      (here : (if condition then some found else none) = some list) : found = list := by
    split at here
    · exact Option.some.inj here
    · cases here
  obtain ⟨inModel, inTraining, inFineTuning, inInference⟩ := places
  simp only [annotatedFields, List.mem_append] at member
  rcases member with ((model | training) | fineTuning) | inference
  · rw [inModel field model] at present
    exact Option.some.inj present ▸ tabled_model field model
  · rw [inTraining field training] at present
    exact kept present ▸ tabled_training field training
  · rw [inFineTuning field fineTuning] at present
    exact kept present ▸ tabled_fineTuning field fineTuning
  · rw [inInference field inference] at present
    exact kept present ▸ tabled_inference roles field inference

theorem converted_ne_none {field : AnnotatedField} {value : Value} (here : field.converted annotations = some value) :
    value ≠ .none := by
  obtain ⟨written, _, accepted⟩ := Option.bind_eq_some_iff.mp here
  cases kind : field.conversion with
  | text =>
    rw [kind] at accepted
    obtain rfl := Option.some.inj accepted
    exact Value.noConfusion
  | int =>
    rw [kind] at accepted
    obtain ⟨n, _, rfl⟩ := Option.map_eq_some_iff.mp accepted
    exact Value.noConfusion
  | float =>
    rw [kind] at accepted
    obtain ⟨f, _, rfl⟩ := Option.map_eq_some_iff.mp accepted
    exact Value.noConfusion

theorem join_eq_iff {joining : Joining} {value others : Value} (some_ : value ≠ .none) :
    joining.join value others = value ↔ (joining = .truthy → value.truthy = false → others = value) := by
  cases joining with
  | alone => exact iff_of_true rfl fun other => nomatch other
  | notNone => exact iff_of_true (if_pos some_) fun other => nomatch other
  | truthy =>
    simp only [Joining.join, orElse, true_implies]
    cases value.truthy with
    | true => exact iff_of_true rfl fun other => nomatch other
    | false => exact ⟨fun same _ => same, fun same => same rfl⟩

/-- The annotations win exactly when those that are zero or empty, in a chain of `or`, are what the chain comes to without
them. -/
theorem annotations_win_iff (annotations : StringMap) (dm runtimeInfo : Dict) (roles : List String) :
    AnnotationsWin annotations (compileSections annotations dm runtimeInfo roles) ↔
      FalsyElsewhere annotations dm runtimeInfo (compileSections annotations dm runtimeInfo roles) := by
  have each {field : AnnotatedField} (member : field ∈ annotatedFields) {list : Section} {value : Value}
      (present : (compileSections annotations dm runtimeInfo roles).at field.place = some list)
      (here : field.converted annotations = some value) :
      list.lookup field.key = some value ↔
        (field.joining = .truthy → value.truthy = false → field.others dm runtimeInfo = value) := by
    have tabled := tabled_section member present
    rw [Tabled, here, Option.getD_some] at tabled
    rw [tabled, Option.some.injEq]
    exact join_eq_iff (converted_ne_none here)
  constructor
  · intro win field member joined some_ value here
    obtain ⟨list, present⟩ := Option.isSome_iff_exists.mp some_
    exact (each member present here).mp (win field member list value present here) joined
  · intro elsewhere field member list value present here
    refine (each member present here).mpr fun joined => ?_
    exact elsewhere field member joined (Option.isSome_iff_exists.mpr ⟨list, present⟩) value here

end Chains

/-! A temperature of zero, against the model's own default. -/

def greedy : StringMap := Keyed.ofList [("experiment-intent", "inference"), ("temperature", "0")]

def warmModel : Dict :=
  Keyed.ofList [("serving_engine", .str "vllm"),
    ("generation_config_overrides", .dict [("temperature", .float (.finite (7 / 10)))])]

theorem zero_temperature_lost : ¬ AnnotationsWin greedy (compileSections greedy warmModel ∅ []) := by
  intro win
  have temperature := win ⟨.inference, "temperature", "temperature", .float, .truthy, ofOverrides "temperature"⟩
    (by simp [annotatedFields, inferenceFields]) (inferenceSection greedy warmModel []) (.float (.finite 0)) (by decide +kernel)
    (by decide)
  revert temperature
  decide +kernel

end AibomWebhook.Precedence
