import AibomWebhook.Debounce
import AibomWebhook.GitProvenance
import AibomWebhook.Library.PyNumber

/-! Whether the periodic flush of the runtime detector comes to rest
(scripts/aibom-scripts/runtime_detector.py, `_capture_training_args`): each flush records
the arguments again, and a change of a value schedules the next one. -/

namespace AibomWebhook.Quiescence
open Debounce DetectionFile GitProvenance PyNumber PyValue

/-! The arguments. -/

inductive Conversion where
  | intOrFloat
  | int
  | float

/-- `_int_or_float(val)`, unless it raises. -/
def intOrFloat (text : String) : Option Value :=
  (floatOf text).bind fun f =>
    match f with
    | .nan => none
    | .inf _ => none
    | .negativeZero => some (.int 0)
    | .finite value => if value.den = 1 then some (.int value.num) else some (.float f)

def Conversion.convert : Conversion → String → Option Value
  | .intOrFloat, text => Quiescence.intOrFloat text
  | .int, text => (intOf text).map .int
  | .float, text => (floatOf text).map .float

def argMap : List (String × String × Conversion) :=
  [("--epochs", "epochs", .intOrFloat), ("--num-epochs", "epochs", .intOrFloat), ("--num_epochs", "epochs", .intOrFloat),
    ("--num-train-epochs", "epochs", .intOrFloat), ("--num_train_epochs", "epochs", .intOrFloat),
    ("--batch-size", "batch_size", .int), ("--batch_size", "batch_size", .int),
    ("--per-device-train-batch-size", "batch_size", .int), ("--per_device_train_batch_size", "batch_size", .int),
    ("--lr", "learning_rate", .float), ("--learning-rate", "learning_rate", .float),
    ("--learning_rate", "learning_rate", .float)]

/-- `arg.partition("=")`, without the separator. -/
def partition (arg : String) : String × String :=
  let key := arg.toList.takeWhile (· ≠ '=')
  (String.ofList key, String.ofList ((arg.toList.drop key.length).drop 1))

/-- The value of an argument, or else the argument after it. -/
def valueOf (val : String) (next : Option String) : String := if val = "" then next.getD "" else val

def argument (arg : String) (next : Option String) : Option (String × Value) :=
  match argMap.lookup (partition arg).1 with
  | none => none
  | some (name, conv) =>
    let val := valueOf (partition arg).2 next
    if val = "" then none else (conv.convert val).map fun value => (name, value)

/-- What `_capture_training_args` writes, in its order. -/
def trainingArgs : List String → List (String × Value)
  | [] => []
  | arg :: rest => (argument arg rest.head?).toList ++ trainingArgs rest

def configFlags : List String := ["--accelerate_config", "--accelerate-config", "--config_file", "--config-file"]

/-- The path of the first flag, or none if it is empty. -/
def configPath : List String → Option String
  | [] => none
  | arg :: rest =>
    if (partition arg).1 ∈ configFlags then
      let val := valueOf (partition arg).2 rest.head?
      if val = "" then none else some val
    else configPath rest

def strategies : List (String × String) :=
  [("fsdp", "fsdp"), ("deepspeed", "deepspeed"), ("multi_gpu", "data_parallel"), ("multi_cpu", "data_parallel")]

/-- Of the accelerate configuration files, `distributedType` tells the distributed type in lower case, if one is a file that
can be read. -/
def strategyOf (argv : List String) (distributedType : String → Option String) : Option String :=
  ((configPath argv).bind distributedType).bind fun kind => strategies.lookup kind

/-- What a flush finds. -/
def findings (argv : List String) (distributedType : String → Option String) (sighting : Option Sighting) : Findings where
  arguments := trainingArgs argv
  strategy := strategyOf argv distributedType
  provenance := sighting.map Sighting.info

/-! Flushes by one thread while all others rest. -/

def after {α : Type} (luck : Debounce.Luck) (program : DebounceProgram α) (state : State) : State :=
  (program.run (Debounce.serve luck) state).2

/-- No thread holds a lock. -/
structure Idle (state : State) : Prop where
  lock : state.lock = none
  flushTimerLock : state.flushTimerLock = none

/-- No change and no timer is made. -/
def Quiet (state next : State) : Prop := next.changes = state.changes ∧ next.created = state.created

instance (state next : State) : Decidable (Quiet state next) := inferInstanceAs (Decidable (_ ∧ _))

/-- All values that the arguments give to one name are equal, each to itself as well. -/
def Repeatable (writes : List (String × Value)) : Prop :=
  ∀ first ∈ writes, ∀ second ∈ writes, first.1 = second.1 → first.2.eq second.2 = true

/-! What the writes leave behind. -/

section Writes

def capture (info : Dict) (writes : List (String × Value)) : Dict :=
  writes.foldl (fun info write => info.set write.1 write.2) info

def strategyWrites (strategy : Option String) : List (String × Value) :=
  (strategy.map fun name => ("parallelization_strategy", .str name)).toList

/-- How many of the writes change a value. -/
def rewrites : Dict → List (String × Value) → Nat
  | _, [] => 0
  | info, (key, value) :: rest =>
    (if differs info (Keyed.ofList [(key, value)]) then 1 else 0) + rewrites (info.set key value) rest

theorem differs_single (info : Dict) (key : String) (value : Value) :
    differs info (Keyed.ofList [(key, value)]) = false ↔ ∃ old, info.get? key = some old ∧ old.eq value = true := by
  have items : (Keyed.ofList [(key, value)] : Dict).items = [(key, value)] := rfl
  rw [differs, items, List.any_cons, List.any_nil, Bool.or_false]
  cases found : info.get? key with
  | none => simp [found]
  | some old => simp [found]

theorem get?_capture (info : Dict) (writes : List (String × Value)) (key : String) :
    (key ∉ writes.map Prod.fst ∧ (capture info writes).get? key = info.get? key) ∨
      ∃ value, (key, value) ∈ writes ∧ (capture info writes).get? key = some value := by
  induction writes generalizing info with
  | nil => exact Or.inl ⟨List.not_mem_nil, rfl⟩
  | cons write rest ih =>
    rcases ih (info.set write.1 write.2) with ⟨fresh, kept⟩ | ⟨value, member, found⟩
    · by_cases here : write.1 = key
      · refine Or.inr ⟨write.2, by rw [← here]; exact List.mem_cons_self, ?_⟩
        rw [capture, List.foldl_cons]
        exact kept.trans (here ▸ Dict.get?_set_self)
      · refine Or.inl ⟨by simp [fresh, Ne.symm here], ?_⟩
        rw [capture, List.foldl_cons]
        exact kept.trans (Dict.get?_set_of_ne here)
    · exact Or.inr ⟨value, List.mem_cons_of_mem _ member, found⟩

/-- What Python compares plain and texts by; not a number is none. -/
def numeral : Value → Option (Rat ⊕ Bool ⊕ String)
  | .float (.inf negative) => some (.inr (.inl negative))
  | .str text => some (.inr (.inr text))
  | value => value.number.map .inl

def IsPlain (value : Value) : Prop := (∃ n, value = .int n) ∨ (∃ f, value = .float f) ∨ ∃ text, value = .str text

theorem eq_iff_numeral {first second : Value} (plain : IsPlain second) :
    first.eq second = true ↔ numeral first = numeral second ∧ numeral first ≠ none := by
  rcases plain with ⟨n, rfl⟩ | ⟨f, rfl⟩ | ⟨text, rfl⟩
  · cases first with
    | float g => cases g <;> simp [Value.eq, numeral, Value.number]
    | _ => simp [Value.eq, numeral, Value.number]
  · cases first with
    | float g => cases g <;> cases f <;> simp [Value.eq, numeral, Value.number]
    | _ => cases f <;> simp [Value.eq, numeral, Value.number]
  · cases first with
    | float g => cases g <;> simp [Value.eq, numeral, Value.number]
    | _ => simp [Value.eq, numeral, Value.number]

theorem rewrites_cons_eq_zero_iff (info : Dict) (key : String) (value : Value) (rest : List (String × Value)) :
    rewrites info ((key, value) :: rest) = 0 ↔
      (∃ old, info.get? key = some old ∧ old.eq value = true) ∧ rewrites (info.set key value) rest = 0 := by
  rw [rewrites, Nat.add_eq_zero_iff, ← differs_single]
  refine and_congr_left fun _ => ?_
  cases differs info (Keyed.ofList [(key, value)]) <;> simp

/-- If no write changes a value, each is equal to the value before all of them. -/
theorem stored_of_steady {writes : List (String × Value)} (plain : ∀ write ∈ writes, IsPlain write.2) {info : Dict}
    (steady : rewrites info writes = 0) :
    ∀ write ∈ writes, ∃ old, info.get? write.1 = some old ∧ old.eq write.2 = true := by
  induction writes generalizing info with
  | nil => exact fun write member => absurd member List.not_mem_nil
  | cons first rest ih =>
    obtain ⟨⟨old, stored, same⟩, later⟩ := (rewrites_cons_eq_zero_iff info first.1 first.2 rest).mp steady
    intro write member
    rcases List.mem_cons.mp member with rfl | inside
    · exact ⟨old, stored, same⟩
    · obtain ⟨found, here, equal⟩ := ih (fun other within => plain other (List.mem_cons_of_mem _ within)) later write inside
      by_cases key : first.1 = write.1
      · rw [← key, Dict.get?_set_self] at here
        obtain rfl := Option.some.inj here
        have one := (eq_iff_numeral (plain first List.mem_cons_self)).mp same
        have two := (eq_iff_numeral (plain write member)).mp equal
        exact ⟨old, key ▸ stored, (eq_iff_numeral (plain write member)).mpr ⟨one.1.trans two.1, one.2⟩⟩
      · rw [Dict.get?_set_of_ne key] at here
        exact ⟨found, here, equal⟩

theorem steady_of_stored {writes : List (String × Value)} (repeatable : Repeatable writes) {info : Dict}
    (stored : ∀ write ∈ writes, ∃ old, info.get? write.1 = some old ∧ ∀ other ∈ writes, other.1 = write.1 →
      old.eq other.2 = true) : rewrites info writes = 0 := by
  induction writes generalizing info with
  | nil => rfl
  | cons first rest ih =>
    refine (rewrites_cons_eq_zero_iff info first.1 first.2 rest).mpr ⟨?_, ih ?_ fun write member => ?_⟩
    · obtain ⟨old, here, same⟩ := stored first List.mem_cons_self
      exact ⟨old, here, same first List.mem_cons_self rfl⟩
    · exact fun one inOne other inOther =>
        repeatable one (List.mem_cons_of_mem _ inOne) other (List.mem_cons_of_mem _ inOther)
    · by_cases key : first.1 = write.1
      · refine ⟨first.2, by rw [← key]; exact Dict.get?_set_self, fun other within same => ?_⟩
        exact repeatable first List.mem_cons_self other (List.mem_cons_of_mem _ within) (key.trans same.symm)
      · obtain ⟨old, here, equal⟩ := stored write (List.mem_cons_of_mem _ member)
        refine ⟨old, by rw [Dict.get?_set_of_ne key]; exact here, fun other within same => ?_⟩
        exact equal other (List.mem_cons_of_mem _ within) same

/-- A second pass changes no value exactly when all that go to one key are equal. -/
theorem rewrites_capture_iff {writes : List (String × Value)} (plain : ∀ write ∈ writes, IsPlain write.2) {info later : Dict}
    (kept : ∀ key ∈ writes.map Prod.fst, later.get? key = (capture info writes).get? key) :
    rewrites later writes = 0 ↔ Repeatable writes := by
  have last (write : String × Value) (member : write ∈ writes) :
      ∃ value, (write.1, value) ∈ writes ∧ later.get? write.1 = some value := by
    rcases get?_capture info writes write.1 with ⟨fresh, _⟩ | ⟨value, inside, found⟩
    · exact absurd (List.mem_map_of_mem member) fresh
    · exact ⟨value, inside, (kept write.1 (List.mem_map_of_mem member)).trans found⟩
  constructor
  · intro steady first inFirst second inSecond same
    obtain ⟨old, stored, one⟩ := stored_of_steady plain steady first inFirst
    obtain ⟨other, here, two⟩ := stored_of_steady plain steady second inSecond
    obtain rfl : old = other := Option.some.inj (stored.symm.trans (same ▸ here))
    have left := (eq_iff_numeral (plain first inFirst)).mp one
    have right := (eq_iff_numeral (plain second inSecond)).mp two
    exact (eq_iff_numeral (plain second inSecond)).mpr ⟨left.1.symm.trans right.1, left.1 ▸ left.2⟩
  · intro repeatable
    refine steady_of_stored repeatable fun write member => ?_
    obtain ⟨value, inside, found⟩ := last write member
    exact ⟨value, found, fun other within same => repeatable _ inside other within same.symm⟩

end Writes

/-! What the programs do to the process. -/

section Runs
variable {state : State}

/-- What a program leaves: `count` changes were recorded, and a timer is made for a change only. -/
structure Recorded (state next : State) (info : Dict) (count : Nat) (captured : Bool) : Prop where
  info : next.info = info
  changes : next.changes = state.changes + count
  created : count = 0 → next.created = state.created
  datasets : next.datasets = state.datasets
  gitCaptured : next.gitCaptured = captured
  lock : next.lock = state.lock
  flushTimerLock : next.flushTimerLock = none

theorem Recorded.trans {middle next : State} {info later : Dict} {n m : Nat} {once captured : Bool}
    (first : Recorded state middle info n once) (second : Recorded middle next later m captured) :
    Recorded state next later (n + m) captured where
  info := second.info
  changes := by
    rw [second.changes, first.changes]
    omega
  created := by
    intro nothing
    rw [second.created (by omega), first.created (by omega)]
  datasets := second.datasets.trans first.datasets
  gitCaptured := second.gitCaptured
  lock := second.lock.trans first.lock
  flushTimerLock := second.flushTimerLock

theorem after_bind {α : Type} (luck : Debounce.Luck) (program : DebounceProgram Unit) (rest : Unit → DebounceProgram α)
    (state : State) : after luck (program >>= rest) state = after luck (rest ()) (after luck program state) := by
  rw [after, Requests.Program.run_bind]
  rfl

theorem changed_cons (key : String) (value : Value) (rest : List (String × Value)) : changed ((key, value) :: rest) =
    .call (.stored key) fun
      | none => .done true
      | some old => if old.eq value then changed rest else .done true := rfl

theorem changed_run (luck : Debounce.Luck) (items : List (String × Value)) (state : State) :
    (changed items).run (Debounce.serve luck) state =
      (items.any fun (key, value) =>
        match state.info.get? key with
        | none => true
        | some old => !old.eq value, state) := by
  induction items with
  | nil => rfl
  | cons item rest ih =>
    obtain ⟨key, value⟩ := item
    rw [changed_cons, Requests.Program.run_call, List.any_cons]
    simp only [Debounce.serve]
    cases found : state.info.get? key with
    | none => rfl
    | some old =>
      cases same : old.eq value with
      | true => simpa [same] using ih
      | false => simp [same]

/-- A notification leaves everything but the timers. -/
theorem notifyChange_after (luck : Debounce.Luck) (me : Nat) (free : state.flushTimerLock = none) :
    let next := after luck (notifyChange me) state
    next.info = state.info ∧ next.changes = state.changes ∧ next.datasets = state.datasets ∧
      next.gitCaptured = state.gitCaptured ∧ next.lock = state.lock ∧ next.flushTimerLock = none := by
  obtain ⟨starts⟩ := luck
  cases state with
  | mk lock flushTimerLock timer datasets info gitCaptured enabled created started cleared changes covered =>
    dsimp only at free
    subst free
    cases enabled <;> cases timer <;> cases starts <;> exact ⟨rfl, rfl, rfl, rfl, rfl, rfl⟩

theorem updateInfo_after (luck : Debounce.Luck) (me : Nat) (incoming : Dict) (free : state.flushTimerLock = none) :
    Recorded state (after luck (updateInfo me incoming) state) (state.info.update incoming)
      (if differs state.info incoming then 1 else 0) state.gitCaptured := by
  let updated : State :=
    { state with info := state.info.update incoming
                 changes := if differs state.info incoming then state.changes + 1 else state.changes }
  have reads : after luck (updateInfo me incoming) state =
      after luck (if differs state.info incoming then notifyChange me else .done ()) updated := by
    rw [after, updateInfo, Requests.Program.run_bind, changed_run]
    rfl
  rw [reads]
  cases change : differs state.info incoming with
  | false =>
    simp only [Bool.false_eq_true, if_false]
    exact ⟨rfl, by simp [updated, after, change], fun _ => rfl, rfl, rfl, rfl, free⟩
  | true =>
    simp only [if_true]
    have clear : updated.flushTimerLock = none := free
    have rest := notifyChange_after luck me clear
    obtain ⟨info, changes, datasets, gitCaptured, lock, timerLock⟩ := rest
    exact ⟨info, by rw [changes]; simp [updated, change], by simp, datasets, gitCaptured, lock, timerLock⟩

theorem setItem_after (luck : Debounce.Luck) (me : Nat) (key : String) (value : Value) (free : state.flushTimerLock = none) :
    Recorded state (after luck (setItem me key value) state) (state.info.set key value)
      (if differs state.info (Keyed.ofList [(key, value)]) then 1 else 0) state.gitCaptured :=
  updateInfo_after luck me (Keyed.ofList [(key, value)]) free

theorem captureTrainingArgs_after (luck : Debounce.Luck) (me : Nat) (writes : List (String × Value))
    (free : state.flushTimerLock = none) :
    Recorded state (after luck (captureTrainingArgs me writes) state) (capture state.info writes)
      (rewrites state.info writes) state.gitCaptured := by
  induction writes generalizing state with
  | nil => exact ⟨rfl, rfl, fun _ => rfl, rfl, rfl, rfl, free⟩
  | cons write rest ih =>
    obtain ⟨key, value⟩ := write
    have first := setItem_after luck me key value free
    have later := ih first.flushTimerLock
    rw [first.info, first.gitCaptured] at later
    rw [captureTrainingArgs, after_bind]
    exact first.trans later

theorem captureAccelerateConfig_after (luck : Debounce.Luck) (me : Nat) (strategy : Option String)
    (free : state.flushTimerLock = none) :
    Recorded state (after luck (captureAccelerateConfig me strategy) state) (capture state.info (strategyWrites strategy))
      (rewrites state.info (strategyWrites strategy)) state.gitCaptured := by
  cases strategy with
  | none => exact ⟨rfl, rfl, fun _ => rfl, rfl, rfl, rfl, free⟩
  | some strategy => exact setItem_after luck me "parallelization_strategy" (.str strategy) free

theorem takeSnapshot_after (luck : Debounce.Luck) (me : Nat) (idle : Idle state) :
    Recorded state (after luck (takeSnapshot me) state) state.info 0 state.gitCaptured := by
  obtain ⟨lock, timerLock⟩ := idle
  cases state with
  | mk first second timer datasets info gitCaptured enabled created started cleared changes covered =>
    dsimp only at lock timerLock
    subst lock timerLock
    exact ⟨rfl, rfl, fun _ => rfl, rfl, rfl, rfl, rfl⟩

theorem captureGitProvenance_after (luck : Debounce.Luck) (me : Nat) (provenance : Option Dict) (idle : Idle state) :
    Recorded state (after luck (Debounce.captureGitProvenance me provenance) state) (state.info.update (provenance.getD ∅))
      (if differs state.info (provenance.getD ∅) then 1 else 0) state.gitCaptured := by
  cases provenance with
  | none => exact ⟨rfl, rfl, fun _ => rfl, rfl, rfl, rfl, idle.flushTimerLock⟩
  | some info =>
    let locked : State := { state with lock := some me }
    have clear : locked.flushTimerLock = none := idle.flushTimerLock
    have inside := updateInfo_after luck me info clear
    have acquired : (Debounce.serve luck state (.acquire .lock me)).2 = locked := by
      simp [Debounce.serve, State.holder, State.hold, idle.lock, locked]
    have reads : after luck (Debounce.captureGitProvenance me (some info)) state =
        after luck (updateAll me [info] >>= fun _ => send (.release .lock me)) locked := by
      rw [← acquired]
      rfl
    have release (reached : State) : after luck (send (.release .lock me)) reached = { reached with lock := none } := rfl
    have all : after luck (updateAll me [info]) locked = after luck (updateInfo me info) locked :=
      after_bind luck (updateInfo me info) _ _
    rw [reads, after_bind, release, all]
    exact { inside with lock := idle.lock.symm }

/-- What the first part of a flush writes. -/
def Findings.writes (found : Findings) : List (String × Value) := found.arguments ++ strategyWrites found.strategy

theorem capture_append (info : Dict) (first second : List (String × Value)) :
    capture info (first ++ second) = capture (capture info first) second := List.foldl_append

theorem rewrites_append (info : Dict) (first second : List (String × Value)) :
    rewrites info (first ++ second) = rewrites info first + rewrites (capture info first) second := by
  induction first generalizing info with
  | nil => simp [rewrites, capture]
  | cons write rest ih =>
    obtain ⟨key, value⟩ := write
    have later := ih (info.set key value)
    simp only [List.cons_append, rewrites, later]
    rw [← Nat.add_assoc]
    rfl

def detected (state : State) (found : Findings) : Bool :=
  !(state.datasets.isEmpty && (capture state.info (Findings.writes found)).items.isEmpty)

/-- What a flush adds from the checkout. -/
def learned (state : State) (final : Bool) (found : Findings) : Dict :=
  if detected state found && (final || !state.gitCaptured) then found.provenance.getD ∅ else ∅

theorem update_empty (info : Dict) : info.update ∅ = info := rfl

theorem differs_empty (info : Dict) : differs info ∅ = false := rfl

theorem captureOnce_after (luck : Debounce.Luck) (me : Nat) (provenance : Option Dict) (idle : Idle state) :
    Recorded state (after luck (Debounce.captureOnce me provenance) state) (state.info.update (provenance.getD ∅))
      (if differs state.info (provenance.getD ∅) then 1 else 0) true := by
  have first := captureGitProvenance_after luck me provenance idle
  let marked : State := { after luck (Debounce.captureGitProvenance me provenance) state with gitCaptured := true }
  have rest : Recorded marked (after luck (takeSnapshot me) marked) marked.info 0 true :=
    takeSnapshot_after luck me ⟨first.lock.trans idle.lock, first.flushTimerLock⟩
  have reads : after luck (Debounce.captureOnce me provenance) state = after luck (takeSnapshot me) marked := by
    rw [Debounce.captureOnce, after_bind]
    rfl
  rw [reads]
  exact { rest with
    info := rest.info.trans first.info
    changes := rest.changes.trans first.changes
    created := fun nothing => (rest.created rfl).trans (first.created nothing)
    datasets := rest.datasets.trans first.datasets
    lock := rest.lock.trans first.lock }

theorem flushDetected_after (luck : Debounce.Luck) (me : Nat) (final : Bool) (provenance : Option Dict) (idle : Idle state) :
    let found := if final || !state.gitCaptured then provenance.getD ∅ else ∅
    Recorded state (after luck (flushDetected me final provenance) state) (state.info.update found)
      (if differs state.info found then 1 else 0) true := by
  cases final with
  | true => exact captureOnce_after luck me provenance idle
  | false =>
    have reads : after luck (flushDetected me false provenance) state =
        after luck (if state.gitCaptured then takeSnapshot me else Debounce.captureOnce me provenance) state := rfl
    rw [reads]
    cases captured : state.gitCaptured with
    | true => simpa [captured, update_empty, differs_empty] using takeSnapshot_after luck me idle
    | false => exact captureOnce_after luck me provenance idle

/-- `_flush` between its captures and its write. -/
def flushFrom (me : Nat) (final : Bool) (provenance : Option Dict) : DebounceProgram Unit := do
  let _ ← send (.acquire .lock me)
  let any ← send .detected
  send (.release .lock me)
  if any then flushDetected me final provenance else return ()

theorem flushFrom_after (luck : Debounce.Luck) (me : Nat) (final : Bool) (provenance : Option Dict) (idle : Idle state) :
    after luck (flushFrom me final provenance) state =
      if state.nothingDetected then state else after luck (flushDetected me final provenance) state := by
  obtain ⟨lock, timerLock⟩ := idle
  cases state with
  | mk first second timer datasets info gitCaptured enabled created started cleared changes covered =>
    dsimp only at lock timerLock
    subst lock timerLock
    generalize same : (State.mk none none timer datasets info gitCaptured enabled created started cleared changes covered) = state
    have reads : after luck (flushFrom me final provenance) state =
        after luck (if !state.nothingDetected then flushDetected me final provenance else .done ()) state := by
      subst same
      rfl
    rw [reads]
    cases state.nothingDetected <;> rfl

theorem flush_after (luck : Debounce.Luck) (me : Nat) (final : Bool) (found : Findings) (idle : Idle state) :
    let info := capture state.info (Findings.writes found)
    Recorded state (after luck (Debounce.flush me final found) state) (info.update (learned state final found))
      (rewrites state.info (Findings.writes found) + if differs info (learned state final found) then 1 else 0)
      (detected state found || state.gitCaptured) := by
  intro info
  have first := captureTrainingArgs_after luck me found.arguments idle.flushTimerLock
  have second := captureAccelerateConfig_after luck me found.strategy first.flushTimerLock
  rw [first.info, first.gitCaptured, ← capture_append] at second
  have parts := first.trans second
  rw [← rewrites_append] at parts
  generalize written : after luck (captureAccelerateConfig me found.strategy)
    (after luck (captureTrainingArgs me found.arguments) state) = reached at parts
  have both : Recorded state reached info (rewrites state.info (Findings.writes found)) state.gitCaptured := parts
  have calm : Idle reached := ⟨both.lock.trans idle.lock, both.flushTimerLock⟩
  have reads : after luck (Debounce.flush me final found) state = after luck (flushFrom me final found.provenance) reached := by
    have parts : Debounce.flush me final found = (captureTrainingArgs me found.arguments >>= fun _ =>
      captureAccelerateConfig me found.strategy >>= fun _ => flushFrom me final found.provenance) := rfl
    rw [parts, after_bind, after_bind, written]
  have nothing : reached.nothingDetected = !detected state found := by
    rw [State.nothingDetected, both.datasets, both.info, detected, Bool.not_not]
  rw [reads, flushFrom_after luck me final found.provenance calm, nothing]
  cases any : detected state found with
  | false => simpa [learned, any, update_empty, differs_empty] using both
  | true =>
    have third := flushDetected_after luck me final found.provenance calm
    rw [both.info, both.gitCaptured] at third
    have whole := both.trans third
    simpa [learned, any] using whole

end Runs

/-! The second flush. -/

theorem intOrFloat_plain {text : String} {value : Value} (converted : Quiescence.intOrFloat text = some value) :
    IsPlain value := by
  obtain ⟨f, -, made⟩ := Option.bind_eq_some_iff.mp converted
  cases f with
  | nan => cases made
  | inf negative => cases made
  | negativeZero => exact Or.inl ⟨0, (Option.some.inj made).symm⟩
  | finite number =>
    dsimp only at made
    split at made
    · exact Or.inl ⟨number.num, (Option.some.inj made).symm⟩
    · exact Or.inr (Or.inl ⟨.finite number, (Option.some.inj made).symm⟩)

theorem convert_plain {conv : Conversion} {text : String} {value : Value} (converted : conv.convert text = some value) :
    IsPlain value := by
  cases conv with
  | intOrFloat => exact intOrFloat_plain converted
  | int =>
    obtain ⟨n, -, made⟩ := Option.map_eq_some_iff.mp converted
    exact Or.inl ⟨n, made.symm⟩
  | float =>
    obtain ⟨f, -, made⟩ := Option.map_eq_some_iff.mp converted
    exact Or.inr (Or.inl ⟨f, made.symm⟩)

theorem argument_plain {arg : String} {next : Option String} {write : String × Value} (found : argument arg next = some write) :
    write.1 ∈ argMap.map (fun entry => entry.2.1) ∧ IsPlain write.2 := by
  rw [argument] at found
  cases entry : argMap.lookup (partition arg).1 with
  | none => simp [entry] at found
  | some known =>
    obtain ⟨name, conv⟩ := known
    simp only [entry] at found
    split at found
    · cases found
    · obtain ⟨value, converted, rfl⟩ := Option.map_eq_some_iff.mp found
      obtain ⟨before, rest, known, -⟩ := List.lookup_eq_some_iff.mp entry
      constructor
      · rw [known]
        simp
      · exact convert_plain converted

theorem trainingArgs_plain {argv : List String} {write : String × Value} (member : write ∈ trainingArgs argv) :
    write.1 ∈ argMap.map (fun entry => entry.2.1) ∧ IsPlain write.2 := by
  induction argv with
  | nil => cases member
  | cons arg rest ih =>
    rcases List.mem_append.mp member with here | later
    · exact argument_plain (Option.mem_toList.mp here)
    · exact ih later

/-- What every flush writes. -/
def written (argv : List String) (distributedType : String → Option String) : List (String × Value) :=
  trainingArgs argv ++ strategyWrites (strategyOf argv distributedType)

/-- The keys that the captures of a flush write. -/
def capturedKeys : List String := "parallelization_strategy" :: argMap.map fun entry => entry.2.1

theorem mem_strategyWrites {strategy : Option String} {write : String × Value} : write ∈ strategyWrites strategy ↔
    ∃ name, strategy = some name ∧ write = ("parallelization_strategy", .str name) := by
  cases strategy <;> simp [strategyWrites]

theorem writes_plain {argv : List String} {distributedType : String → Option String} {write : String × Value}
    (member : write ∈ written argv distributedType) : write.1 ∈ capturedKeys ∧ IsPlain write.2 := by
  rcases List.mem_append.mp member with args | config
  · exact ⟨List.mem_cons_of_mem _ (trainingArgs_plain args).1, (trainingArgs_plain args).2⟩
  · obtain ⟨name, -, rfl⟩ := mem_strategyWrites.mp config
    exact ⟨List.mem_cons_self, Or.inr (Or.inr ⟨name, rfl⟩)⟩

theorem repeatable_written_iff (argv : List String) (distributedType : String → Option String) :
    Repeatable (written argv distributedType) ↔ Repeatable (trainingArgs argv) := by
  refine ⟨fun all first one second two => all first (List.mem_append_left _ one) second (List.mem_append_left _ two), ?_⟩
  intro args first one second two same
  have apart : "parallelization_strategy" ∉ argMap.map fun entry => entry.2.1 := by decide
  rcases List.mem_append.mp one with left | left <;> rcases List.mem_append.mp two with right | right
  · exact args first left second right same
  · obtain ⟨name, -, rfl⟩ := mem_strategyWrites.mp right
    have clash := (trainingArgs_plain left).1
    rw [same] at clash
    exact absurd clash apart
  · obtain ⟨name, -, rfl⟩ := mem_strategyWrites.mp left
    have clash := (trainingArgs_plain right).1
    rw [← same] at clash
    exact absurd clash apart
  · obtain ⟨name, given, rfl⟩ := mem_strategyWrites.mp left
    obtain ⟨other, givenToo, rfl⟩ := mem_strategyWrites.mp right
    obtain rfl := Option.some.inj (given.symm.trans givenToo)
    simp [Value.eq]

/-- What a checkout shows goes to keys of its own. -/
theorem sighting_apart (seen : Sighting) {key : String} (written : key ∈ capturedKeys) : seen.info.get? key = none := by
  have apart : ∀ key ∈ capturedKeys, key ∉ ["git_commit", "git_branch", "git_repository", "git_dirty"] := by decide
  have other := apart key written
  simp only [List.mem_cons, not_or, List.not_mem_nil] at other
  obtain ⟨commit, branch, repository, dirty, _⟩ := other
  have kept {dict : Dict} {name : String} {value : Value} (different : ¬key = name) (absent : dict.get? key = none) :
      (dict.set name value).get? key = none := (Dict.get?_set_of_ne (Ne.symm different)).trans absent
  unfold Sighting.info
  extract_lets started branched located
  have first : started.get? key = none := @Dict.get?_set_of_ne ∅ _ _ _ (Ne.symm commit)
  have second : branched.get? key = none := by
    unfold branched
    split
    · exact kept branch first
    · exact first
  have third : located.get? key = none := by
    unfold located
    split
    · split
      · exact second
      · exact kept repository second
    · exact second
  split
  · exact kept dirty third
  · exact third

theorem get?_learned {state : State} {final : Bool} {argv : List String} {distributedType : String → Option String}
    {sighting : Option Sighting} {key : String} (written : key ∈ capturedKeys) :
    (learned state final (findings argv distributedType sighting)).get? key = none := by
  have nothing : Dict.get? key ∅ = none := rfl
  rw [learned]
  split
  · cases sighting with
    | none => exact nothing
    | some seen => exact sighting_apart seen written
  · exact nothing

/-- The process after a flush of its own. -/
def flushed (luck : Debounce.Luck) (me : Nat) (final : Bool) (argv : List String) (distributedType : String → Option String)
    (sighting : Option Sighting) (state : State) : State :=
  after luck (Debounce.flush me final (findings argv distributedType sighting)) state

theorem flushed_recorded {state : State} (luck : Debounce.Luck) (me : Nat) (final : Bool) (argv : List String)
    (distributedType : String → Option String) (sighting : Option Sighting) (idle : Idle state) :
    let found := findings argv distributedType sighting
    let info := capture state.info (written argv distributedType)
    Recorded state (flushed luck me final argv distributedType sighting state) (info.update (learned state final found))
      (rewrites state.info (written argv distributedType) + if differs info (learned state final found) then 1 else 0)
      (detected state found || state.gitCaptured) :=
  flush_after luck me final (findings argv distributedType sighting) idle

/-- A final flush looks into the checkout again, and finds what the process holds. -/
def NothingNew (again : Bool) (sighting : Option Sighting) (state : State) : Prop :=
  again = true → differs state.info ((sighting.map Sighting.info).getD ∅) = false

section Second
variable {state : State} {argv : List String} {distributedType : String → Option String}

theorem capture_eq_nil {info : Dict} {writes : List (String × Value)} (nothing : (capture info writes).items = []) :
    writes = [] := by
  cases writes with
  | nil => rfl
  | cons write rest =>
    rcases get?_capture info (write :: rest) write.1 with ⟨fresh, -⟩ | ⟨value, -, found⟩
    · exact absurd List.mem_cons_self fresh
    · have empty : capture info (write :: rest) = ∅ := Keyed.ext_items nothing
      rw [empty] at found
      cases found

theorem undetected_iff {sighting : Option Sighting} : detected state (findings argv distributedType sighting) = false ↔
    state.datasets = [] ∧ (capture state.info (written argv distributedType)).items = [] := by
  rw [detected, Bool.not_eq_false', Bool.and_eq_true, List.isEmpty_iff, List.isEmpty_iff]
  rfl

theorem differs_capture {info incoming : Dict} {writes : List (String × Value)}
    (apart : ∀ write ∈ writes, incoming.get? write.1 = none) : differs (capture info writes) incoming = differs info incoming := by
  rw [Bool.eq_iff_iff, differs, differs, List.any_eq_true, List.any_eq_true]
  refine exists_congr fun entry => and_congr_right fun member => ?_
  rcases get?_capture info writes entry.1 with ⟨-, kept⟩ | ⟨value, written, -⟩
  · obtain ⟨key, value⟩ := entry
    simp only [kept]
  · have absent := apart _ written
    rw [Dict.get?, Keyed.find?_of_mem member] at absent
    cases absent

theorem quiesces_iff {luck later : Debounce.Luck} {me other : Nat} {final again : Bool} {first second : Option Sighting}
    (idle : Idle state)
    (nothingNew : NothingNew again second (flushed luck me final argv distributedType first state)) :
    let once := flushed luck me final argv distributedType first state
    Quiet once (flushed later other again argv distributedType second once) ↔ Repeatable (trainingArgs argv) := by
  intro once
  have plain (write : String × Value) (member : write ∈ written argv distributedType) : write.1 ∈ capturedKeys ∧ IsPlain write.2 :=
    writes_plain member
  have one := flushed_recorded luck me final argv distributedType first idle
  have calm : Idle once := ⟨one.lock.trans idle.lock, one.flushTimerLock⟩
  have two := flushed_recorded later other again argv distributedType second calm
  have same : differs (capture once.info (written argv distributedType)) (learned once again (findings argv distributedType second)) = false := by
    rw [differs_capture fun write member => get?_learned (plain write member).1, learned]
    split
    · rename_i looks
      cases again with
      | true => exact nothingNew rfl
      | false =>
        -- A first flush that left the checkout unseen found nothing at all, and neither does the second.
        simp only [Bool.false_or, Bool.and_eq_true, Bool.not_eq_true'] at looks
        have unseen := one.gitCaptured.symm.trans looks.2
        rw [Bool.or_eq_false_iff] at unseen
        obtain ⟨noDatasets, noInfo⟩ := undetected_iff.mp unseen.1
        have noWrites : written argv distributedType = [] := capture_eq_nil noInfo
        have empty : once.info.items = [] := by
          rw [one.info, learned, unseen.1]
          exact noInfo
        have still : detected once (findings argv distributedType second) = false := by
          refine undetected_iff.mpr ⟨one.datasets.trans noDatasets, ?_⟩
          rw [noWrites]
          exact empty
        rw [still] at looks
        cases looks.1
    · rfl
  have changes := two.changes
  have created := two.created
  rw [same] at changes created
  have kept (key : String) (member : key ∈ (written argv distributedType).map Prod.fst) :
      once.info.get? key = (capture state.info (written argv distributedType)).get? key := by
    obtain ⟨write, inside, rfl⟩ := List.mem_map.mp member
    rw [one.info, Dict.get?_update, get?_learned (plain write inside).1]
    rfl
  rw [← repeatable_written_iff argv distributedType, ← rewrites_capture_iff (fun write member => (plain write member).2) kept]
  constructor
  · intro quiet
    have still : (flushed later other again argv distributedType second once).changes = once.changes := quiet.1
    simp only [Bool.false_eq_true, if_false] at changes
    omega
  · intro steady
    simp only [Bool.false_eq_true, if_false] at changes created
    exact ⟨by omega, created (by omega)⟩

end Second

/-- A process whose hooks are installed. -/
def training : State :=
  { Debounce.idle.shared with info := Keyed.ofList [("framework", .str "PyTorch")] }

theorem training_idle : Idle training := ⟨rfl, rfl⟩

def seen : Sighting := { commit := "4f2a", head := "ref: refs/heads/main", remote := none, dirty := some false }

def accelerate : List String := ["train.py", "--config_file=a.yaml", "--epochs", "3", "--num-epochs=3.0", "--lr", "1e-4"]

def fsdp (path : String) : Option String := if path = "a.yaml" then some "fsdp" else none

/-- The second capture shows nothing new. -/
theorem second_capture_quiet : differs (flushed ⟨true⟩ 1 true accelerate fsdp (some seen) training).info
    (((some seen).map Sighting.info).getD ∅) = false := by
  decide +kernel

theorem quiesces_iff_on_example :
    Quiet (flushed ⟨true⟩ 1 true accelerate fsdp (some seen) training)
      (flushed ⟨true⟩ 2 true accelerate fsdp (some seen) (flushed ⟨true⟩ 1 true accelerate fsdp (some seen) training)) ↔
    Repeatable (trainingArgs accelerate) :=
  quiesces_iff training_idle fun _ => second_capture_quiet

/-- Two flags write one key, so that each flush writes both values again, and sets the next timer. -/
def conflicting : List String := ["train.py", "--epochs", "3", "--num-epochs", "5"]

theorem conflicting_never_rests :
    let once := flushed ⟨true⟩ 1 false conflicting fsdp none training
    ¬Quiet once (flushed ⟨true⟩ 2 false conflicting fsdp none once) ∧ once.flushTimer = some 0 ∧
      (after ⟨true⟩ (debouncedFlush 2 0 (findings conflicting fsdp none)) once).flushTimer = some 1 := by
  decide +kernel

end AibomWebhook.Quiescence
