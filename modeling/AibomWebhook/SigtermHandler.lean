import AibomWebhook.Library.Program
import AibomWebhook.Library.PyValue

/-! The SIGTERM handler of the runtime detector (scripts/aibom-scripts/runtime_detector.py,
`_on_sigterm`). It runs on top of whatever the main thread was doing, so it waits for ever
for a lock that the interrupted code holds, unless the wait has a timeout. -/

namespace AibomWebhook.SigtermHandler
open PyValue Requests

/-- `_lock`, `_flush_timer_lock` and the lock on the output file. -/
inductive Lock where
  | lock
  | flushTimerLock
  | outputLock
  deriving DecidableEq

/-- What changes `_runtime_info`: an argument, the accelerate configuration, the checkout. -/
inductive Cause where
  | argument (index : Nat)
  | accelerate
  | checkout
  deriving DecidableEq

/-- Where the handler asks for a lock. -/
inductive Site where
  | notify (cause : Cause)
  | settle (cause : Cause)
  | detected
  | checkout
  | snapshot
  | output

inductive SignalRequest where
  | acquire (site : Site) (which : Lock) (timeoutMs : Option Nat)
  | release (which : Lock)
  | startTimer (cause : Cause)
  | kill

/-- Whether the lock was got, and whether the timer was started. -/
abbrev SignalAnswer : SignalRequest → Type
  | .acquire .. => Bool
  | .startTimer _ => Bool
  | _ => Unit

abbrev SignalCalls : Interface where
  Request := SignalRequest
  Response := SignalAnswer

abbrev SignalProgram (α : Type) := Program SignalCalls α

def acquire (site : Site) (which : Lock) (timeoutMs : Option Nat) : SignalProgram Bool :=
  Program.send (I := SignalCalls) (.acquire site which timeoutMs)

def release (which : Lock) : SignalProgram Unit := Program.send (I := SignalCalls) (.release which)

def startTimer (cause : Cause) : SignalProgram Bool := Program.send (I := SignalCalls) (.startTimer cause)

/-- Restoring the default handler and sending the signal again. -/
def redeliver : SignalProgram Unit := Program.send (I := SignalCalls) .kill

section
variable {α : Type}

@[simp] theorem acquire_bind (site : Site) (which : Lock) (timeoutMs : Option Nat) (rest : Bool → SignalProgram α) :
    (acquire site which timeoutMs >>= rest) = .call (.acquire site which timeoutMs) rest := rfl

@[simp] theorem release_bind (which : Lock) (rest : Unit → SignalProgram α) :
    (release which >>= rest) = .call (.release which) rest := rfl

@[simp] theorem startTimer_bind (cause : Cause) (rest : Bool → SignalProgram α) :
    (startTimer cause >>= rest) = .call (.startTimer cause) rest := rfl

end

inductive Converter where
  | intOrFloat
  | int
  | float

def argMap : List (String × String × Converter) :=
  [("--epochs", "epochs", .intOrFloat), ("--num-epochs", "epochs", .intOrFloat), ("--num_epochs", "epochs", .intOrFloat),
    ("--num-train-epochs", "epochs", .intOrFloat), ("--num_train_epochs", "epochs", .intOrFloat),
    ("--batch-size", "batch_size", .int), ("--batch_size", "batch_size", .int),
    ("--per-device-train-batch-size", "batch_size", .int), ("--per_device_train_batch_size", "batch_size", .int),
    ("--lr", "learning_rate", .float), ("--learning-rate", "learning_rate", .float),
    ("--learning_rate", "learning_rate", .float)]

def accelerateArguments : List String := ["--accelerate_config", "--accelerate-config", "--config_file", "--config-file"]

def acceleratedStrategies : List (String × String) :=
  [("fsdp", "fsdp"), ("deepspeed", "deepspeed"), ("multi_gpu", "data_parallel"), ("multi_cpu", "data_parallel")]

/-- What the files of a checkout say. -/
structure Checkout where
  commit : Option String
  branch : Option String
  remote : Option String

/-- The process when the signal comes. `owns` tells what the interrupted code holds. Of the
other threads, `taken` tells where the handler finds its lock in their hands, and `inTime`
where they give it back before a timeout. The converters answer as Python's do. -/
structure Process where
  owns : Lock → Bool
  taken : Site → Bool
  inTime : Site → Bool
  starts : Cause → Bool
  durableFlushEnabled : Bool
  detectedDatasets : List Dict
  runtimeInfo : Dict
  flushTimer : Bool
  argv : List String
  convert : Converter → String → Option Value
  distributedType : String → Option String
  checkout : Option Checkout

/-- What the handler changes. -/
structure Memory where
  runtimeInfo : Dict
  flushTimer : Bool

def Process.memory (p : Process) : Memory where
  runtimeInfo := p.runtimeInfo
  flushTimer := p.flushTimer

/-! `_runtime_info` and the timer. -/

def notifyChange (p : Process) (cause : Cause) (m : Memory) : SignalProgram Memory := do
  if !p.durableFlushEnabled then return m
  else
    let got ← acquire (.notify cause) .flushTimerLock (some 200)
    if !got then return m
    else do
      release .flushTimerLock
      if m.flushTimer then return m
      else do
        let started ← startTimer cause
        if started then return { m with flushTimer := true }
        else do
          let _ ← acquire (.settle cause) .flushTimerLock none
          release .flushTimerLock
          return { m with flushTimer := false }

def differs (info : Dict) (entry : String × Value) : Bool :=
  match info.get? entry.1 with
  | none => true
  | some value => !value.eq entry.2

/-- `_NotifyingDict.update`; setting one item is an update by one. -/
def updateInfo (p : Process) (cause : Cause) (changes : Dict) (m : Memory) : SignalProgram Memory :=
  let updated := { m with runtimeInfo := m.runtimeInfo.update changes }
  if changes.items.any (differs m.runtimeInfo) then notifyChange p cause updated else return updated

/-! What the handler captures. -/

/-- `arg.partition("=")`, without the separator. -/
def partition (arg : String) : String × String :=
  (String.ofList (arg.toList.takeWhile (· ≠ '=')), String.ofList ((arg.toList.dropWhile (· ≠ '=')).drop 1))

/-- The value after the sign, else the next argument. -/
def valueAt (argv : List String) (index : Nat) (val : String) : String :=
  if val = "" then argv[index + 1]?.getD "" else val

def trainingArgument (p : Process) (index : Nat) (arg : String) : Option (Cause × Dict) :=
  let (key, val) := partition arg
  match argMap.lookup key with
  | none => none
  | some (name, conv) =>
    let val := valueAt p.argv index val
    if val = "" then none
    else (p.convert conv val).map fun value => (.argument index, Keyed.ofList [(name, value)])

def trainingArguments (p : Process) : List (Cause × Dict) :=
  p.argv.zipIdx.filterMap fun (arg, index) => trainingArgument p index arg

def acceleratePath (argv : List String) : Option String :=
  (argv.zipIdx.find? fun (arg, _) => accelerateArguments.contains (partition arg).1).bind fun (arg, index) =>
    let path := valueAt argv index (partition arg).2
    if path = "" then none else some path

def accelerateConfig (p : Process) : List (Cause × Dict) :=
  match ((acceleratePath p.argv).bind p.distributedType).bind fun type => acceleratedStrategies.lookup type with
  | none => []
  | some strategy => [(.accelerate, Keyed.ofList [("parallelization_strategy", .str strategy)])]

def captures (p : Process) : List (Cause × Dict) := trainingArguments p ++ accelerateConfig p

def capture (p : Process) : List (Cause × Dict) → Memory → SignalProgram Memory
  | [], m => return m
  | (cause, changes) :: rest, m => do
    let m ← updateInfo p cause changes m
    capture p rest m

def gitInfo (checkout : Checkout) (commit : String) : Dict :=
  Keyed.ofList ([("git_commit", .str commit)] ++ (checkout.branch.map fun branch => ("git_branch", Value.str branch)).toList ++
    (checkout.remote.map fun remote => ("git_repository", Value.str remote)).toList)

/-- Without `git status`, which the handler skips. -/
def captureGitProvenance (p : Process) (m : Memory) : SignalProgram Memory :=
  match p.checkout with
  | none => return m
  | some checkout =>
    match checkout.commit with
    | none => return m
    | some commit => do
      let _ ← acquire .checkout .lock none
      let m ← updateInfo p .checkout (gitInfo checkout commit) m
      release .lock
      return m

/-- A lock that is tried for some time and given back if it was got. -/
def underTimeout (site : Site) (which : Lock) (timeoutMs : Nat) : SignalProgram Unit := do
  let got ← acquire site which (some timeoutMs)
  if got then release which else return ()

/-- `_flush(final=True, in_signal=True)`. -/
def flush (p : Process) : SignalProgram Unit := do
  let m ← capture p (captures p) p.memory
  underTimeout .detected .lock 500
  if p.detectedDatasets.isEmpty && m.runtimeInfo.items.isEmpty then return ()
  else do
    let _ ← captureGitProvenance p m
    underTimeout .snapshot .lock 500
    underTimeout .output .outputLock 1000

def onSigterm (p : Process) : SignalProgram Unit := do
  flush p
  redeliver

/-! The locks. -/

/-- A lock that nobody holds: not the interrupted code, not the handler, not another thread. -/
def Process.free (p : Process) (mine : List Lock) (site : Site) (which : Lock) : Bool :=
  !p.owns which && !mine.contains which && !p.taken site

/-- Whether a lock is got before the timeout. -/
def Process.obtains (p : Process) (mine : List Lock) (site : Site) (which : Lock) : Bool :=
  !p.owns which && !mine.contains which && (!p.taken site || p.inTime site)

/-- The service keeps what the handler holds. A plain wait is over when the lock was got. -/
def Process.serve (p : Process) (mine : List Lock) : (request : SignalRequest) → SignalAnswer request × List Lock
  | .acquire site which (some _) => if p.obtains mine site which then (true, which :: mine) else (false, mine)
  | .acquire _ which none => (true, which :: mine)
  | .release which => ((), mine.erase which)
  | .startTimer cause => (p.starts cause, mine)
  | .kill => ((), mine)

def Process.handled (p : Process) : List (Served SignalCalls (List Lock)) := (onSigterm p).served p.serve []

/-- Every acquisition has a timeout or finds the lock free. -/
def BoundedWaits (p : Process) : Prop :=
  ∀ entry ∈ p.handled, ∀ site which, entry.request = .acquire site which none → p.free entry.before site which = true

/-- No acquisition waits for a lock that is given back only after the handler, and the signal is sent again. -/
def Redelivers (p : Process) : Prop :=
  (∀ entry ∈ p.handled, ∀ site which, entry.request = .acquire site which none →
    p.owns which = false ∧ which ∉ entry.before) ∧ ∃ entry ∈ p.handled, entry.request = .kill

/-! The acquisitions without a timeout. -/

structure PlainWait where
  mine : List Lock
  site : Site
  which : Lock

def plainWait (entry : Served SignalCalls (List Lock)) : Option PlainWait :=
  match entry with
  | ⟨mine, .acquire site which none, _⟩ => some ⟨mine, site, which⟩
  | _ => none

def plainWaits (entries : List (Served SignalCalls (List Lock))) : List PlainWait := entries.filterMap plainWait

theorem plainWait_eq_some {entry : Served SignalCalls (List Lock)} {wait : PlainWait} :
    plainWait entry = some wait ↔
      entry.before = wait.mine ∧ entry.request = .acquire wait.site wait.which none := by
  obtain ⟨mine, request, answer⟩ := entry
  obtain ⟨held, site, which⟩ := wait
  cases request with
  | acquire asked wanted timeout =>
    cases timeout with
    | none => simp [plainWait]
    | some limit => simp [plainWait]
  | _ => simp [plainWait]

theorem forall_plain {entries : List (Served SignalCalls (List Lock))} (holds : List Lock → Site → Lock → Prop) :
    (∀ entry ∈ entries, ∀ site which, entry.request = .acquire site which none → holds entry.before site which) ↔
      ∀ wait ∈ plainWaits entries, holds wait.mine wait.site wait.which := by
  constructor
  · intro each wait member
    obtain ⟨entry, here, same⟩ := List.mem_filterMap.mp member
    obtain ⟨before, request⟩ := plainWait_eq_some.mp same
    rw [← before]
    exact each entry here wait.site wait.which request
  · intro each entry here site which request
    exact each ⟨entry.before, site, which⟩ (List.mem_filterMap.mpr ⟨entry, here, plainWait_eq_some.mpr ⟨rfl, request⟩⟩)

@[simp] theorem plainWaits_nil : plainWaits [] = [] := rfl

@[simp] theorem plainWaits_cons (entry : Served SignalCalls (List Lock)) (rest : List (Served SignalCalls (List Lock))) :
    plainWaits (entry :: rest) = (plainWait entry).toList ++ plainWaits rest := by
  rw [plainWaits, List.filterMap_cons, plainWaits]
  cases plainWait entry <;> rfl

@[simp] theorem plainWaits_append (first second : List (Served SignalCalls (List Lock))) :
    plainWaits (first ++ second) = plainWaits first ++ plainWaits second := List.filterMap_append

/-! What each part of the handler does. -/

/-- Whether a change of `_runtime_info` comes to start a timer. -/
def Process.attempts (p : Process) (mine : List Lock) (cause : Cause) (changes : Dict) (m : Memory) : Bool :=
  p.durableFlushEnabled && changes.items.any (differs m.runtimeInfo) &&
    p.obtains mine (.notify cause) .flushTimerLock && !m.flushTimer

def Process.updated (p : Process) (mine : List Lock) (cause : Cause) (changes : Dict) (m : Memory) : Memory where
  runtimeInfo := m.runtimeInfo.update changes
  flushTimer := m.flushTimer || (p.attempts mine cause changes m && p.starts cause)

/-- Whether it has to take the lock again, since the timer did not start. -/
def Process.fails (p : Process) (mine : List Lock) (cause : Cause) (changes : Dict) (m : Memory) : Bool :=
  p.attempts mine cause changes m && !p.starts cause

section
variable (p : Process) (mine : List Lock)

theorem notifyChange_served (cause : Cause) (m : Memory) (allowed : p.durableFlushEnabled = true) :
    (notifyChange p cause m).run p.serve mine =
      ({ m with flushTimer := m.flushTimer || (p.obtains mine (.notify cause) .flushTimerLock && p.starts cause) }, mine) ∧
    plainWaits ((notifyChange p cause m).served p.serve mine) =
      if p.obtains mine (.notify cause) .flushTimerLock && !m.flushTimer && !p.starts cause
        then [⟨mine, .settle cause, .flushTimerLock⟩] else [] := by
  obtain ⟨info, timer⟩ := m
  cases got : p.obtains mine (.notify cause) .flushTimerLock with
  | false => simp [notifyChange, allowed, Process.serve, got, plainWait]
  | true =>
    cases timer with
    | true => simp [notifyChange, allowed, Process.serve, got, plainWait]
    | false =>
      cases started : p.starts cause with
      | true => simp [notifyChange, allowed, Process.serve, got, started, plainWait]
      | false => simp [notifyChange, allowed, Process.serve, got, started, plainWait]

theorem updateInfo_served (cause : Cause) (changes : Dict) (m : Memory) :
    (updateInfo p cause changes m).run p.serve mine = (p.updated mine cause changes m, mine) ∧
    plainWaits ((updateInfo p cause changes m).served p.serve mine) =
      if p.fails mine cause changes m then [⟨mine, .settle cause, .flushTimerLock⟩] else [] := by
  cases changed : changes.items.any (differs m.runtimeInfo) with
  | false => simp [updateInfo, changed, Process.updated, Process.fails, Process.attempts]
  | true =>
    cases enabled : p.durableFlushEnabled with
    | false => simp [updateInfo, changed, notifyChange, enabled, Process.updated, Process.fails, Process.attempts]
    | true =>
      obtain ⟨ran, waits⟩ :=
        notifyChange_served p mine cause { m with runtimeInfo := m.runtimeInfo.update changes } enabled
      constructor
      · rw [updateInfo, if_pos changed, ran]
        cases timer : m.flushTimer <;> simp [Process.updated, Process.attempts, changed, enabled, timer]
      · rw [updateInfo, if_pos changed, waits]
        simp [Process.fails, Process.attempts, changed, enabled]

/-- A failed start comes after the lock was got once. -/
theorem owns_of_fails {cause : Cause} {changes : Dict} {m : Memory} (fails : p.fails mine cause changes m = true) :
    p.owns .flushTimerLock = false ∧ .flushTimerLock ∉ mine := by
  simp only [Process.fails, Process.attempts, Process.obtains, Bool.and_eq_true, Bool.not_eq_true',
    List.contains_eq_mem, decide_eq_false_iff_not] at fails
  tauto

theorem underTimeout_served (site : Site) (which : Lock) (timeoutMs : Nat) :
    ((underTimeout site which timeoutMs).run p.serve mine).2 = mine ∧
      plainWaits ((underTimeout site which timeoutMs).served p.serve mine) = [] := by
  cases got : p.obtains mine site which with
  | false => simp [underTimeout, Process.serve, got, plainWait]
  | true => simp [underTimeout, release, Program.send, Process.serve, got, plainWait]

end

section
variable (p : Process)

/-- The memory after the captures. -/
def Process.recorded : List (Cause × Dict) → Memory → Memory
  | [], m => m
  | (cause, changes) :: rest, m => Process.recorded rest (p.updated [] cause changes m)

/-- The captures whose timers did not start. -/
def Process.failing : List (Cause × Dict) → Memory → List Cause
  | [], _ => []
  | (cause, changes) :: rest, m =>
    (if p.fails [] cause changes m then [cause] else []) ++ Process.failing rest (p.updated [] cause changes m)

theorem owns_of_failing (list : List (Cause × Dict)) (m : Memory) :
    ∀ cause ∈ p.failing list m, p.owns .flushTimerLock = false := by
  induction list generalizing m with
  | nil => simp [Process.failing]
  | cons entry rest ih =>
    intro cause member
    rcases List.mem_append.mp member with here | later
    · split at here
      · rename_i fails
        exact (owns_of_fails p [] fails).1
      · cases here
    · exact ih _ cause later

theorem capture_served (list : List (Cause × Dict)) (m : Memory) :
    (capture p list m).run p.serve [] = (p.recorded list m, []) ∧
      plainWaits ((capture p list m).served p.serve []) =
        (p.failing list m).map fun cause => ⟨[], .settle cause, .flushTimerLock⟩ := by
  induction list generalizing m with
  | nil => simp [capture, Process.recorded, Process.failing]
  | cons entry rest ih =>
    obtain ⟨cause, changes⟩ := entry
    obtain ⟨ran, waits⟩ := updateInfo_served p [] cause changes m
    obtain ⟨later, laterWaits⟩ := ih (p.updated [] cause changes m)
    constructor
    · rw [capture, Program.run_bind, ran]
      exact later
    · rw [capture, Program.served_bind, plainWaits_append, waits, ran, laterWaits, Process.failing, List.map_append]
      split <;> rfl

/-- What is recorded of the checkout. -/
def Process.checkoutInfo : Option Dict := p.checkout.bind fun checkout => checkout.commit.map (gitInfo checkout)

theorem captureGitProvenance_served (m : Memory) :
    ((captureGitProvenance p m).run p.serve []).2 = [] ∧
      plainWaits ((captureGitProvenance p m).served p.serve []) =
        match p.checkoutInfo with
        | none => []
        | some info => ⟨[], .checkout, .lock⟩ ::
          if p.fails [.lock] .checkout info m then [⟨[.lock], .settle .checkout, .flushTimerLock⟩] else [] := by
  cases found : p.checkout with
  | none => simp [captureGitProvenance, Process.checkoutInfo, found]
  | some checkout =>
    cases resolved : checkout.commit with
    | none => simp [captureGitProvenance, Process.checkoutInfo, found, resolved]
    | some commit =>
      obtain ⟨ran, waits⟩ := updateInfo_served p [.lock] .checkout (gitInfo checkout commit) m
      simp [captureGitProvenance, Process.checkoutInfo, found, resolved, Process.serve, plainWait, Program.run_bind,
        Program.served_bind, ran, waits]

/-- The process has something to write. -/
def Process.detects : Bool :=
  !(p.detectedDatasets.isEmpty && p.runtimeInfo.items.isEmpty && (captures p).isEmpty)

/-- All the timers that did not start. -/
def Process.failedStarts : List Cause :=
  p.failing (captures p) p.memory ++
    match p.checkoutInfo with
    | none => []
    | some info =>
      if p.detects && p.fails [.lock] .checkout info (p.recorded (captures p) p.memory) then [.checkout] else []

theorem isEmpty_update (dict changes : Dict) :
    (dict.update changes).items.isEmpty = (dict.items.isEmpty && changes.items.isEmpty) := by
  rw [Bool.eq_iff_iff, Bool.and_eq_true, List.isEmpty_iff, List.isEmpty_iff, List.isEmpty_iff, Dict.update,
    Keyed.items_putAll_eq_nil, and_comm]

theorem captures_nonempty : ∀ entry ∈ captures p, entry.2.items.isEmpty = false := by
  intro entry member
  rcases List.mem_append.mp member with argument | config
  · obtain ⟨⟨arg, index⟩, _, parsed⟩ := List.mem_filterMap.mp argument
    simp only [trainingArgument] at parsed
    split at parsed
    · cases parsed
    · split at parsed
      · cases parsed
      · obtain ⟨value, _, rfl⟩ := Option.map_eq_some_iff.mp parsed
        rfl
  · rw [accelerateConfig] at config
    split at config
    · cases config
    · obtain rfl := List.mem_singleton.mp config
      rfl

theorem recorded_isEmpty (list : List (Cause × Dict)) (nonempty : ∀ entry ∈ list, entry.2.items.isEmpty = false)
    (m : Memory) : (p.recorded list m).runtimeInfo.items.isEmpty = (m.runtimeInfo.items.isEmpty && list.isEmpty) := by
  induction list generalizing m with
  | nil => simp [Process.recorded]
  | cons entry rest ih =>
    rw [Process.recorded, ih (fun later member => nonempty later (List.mem_cons_of_mem _ member))]
    have changed := nonempty entry List.mem_cons_self
    simp [Process.updated, isEmpty_update, changed]

theorem detects_eq : (p.detectedDatasets.isEmpty && (p.recorded (captures p) p.memory).runtimeInfo.items.isEmpty) =
    !p.detects := by
  rw [recorded_isEmpty p _ (captures_nonempty p), Process.detects, Bool.not_not, Bool.and_assoc]
  rfl

/-- All acquisitions of the handler without a timeout. -/
theorem handled_waits : plainWaits p.handled =
    ((p.failing (captures p) p.memory).map fun cause => ⟨[], .settle cause, .flushTimerLock⟩) ++
      match p.checkoutInfo with
      | none => []
      | some info =>
        if p.detects then ⟨[], .checkout, .lock⟩ ::
          if p.fails [.lock] .checkout info (p.recorded (captures p) p.memory)
            then [⟨[.lock], .settle .checkout, .flushTimerLock⟩] else []
        else [] := by
  obtain ⟨captured, waits⟩ := capture_served p (captures p) p.memory
  obtain ⟨git, gitWaits⟩ := captureGitProvenance_served p (p.recorded (captures p) p.memory)
  have timed := underTimeout_served p []
  -- What comes after the check, when there is something to write.
  have written : plainWaits ((do
      let _ ← captureGitProvenance p (p.recorded (captures p) p.memory)
      underTimeout .snapshot .lock 500
      underTimeout .output .outputLock 1000).served p.serve []) =
        plainWaits ((captureGitProvenance p (p.recorded (captures p) p.memory)).served p.serve []) := by
    rw [Program.served_bind, git, Program.served_bind, (timed .snapshot .lock 500).1, plainWaits_append,
      plainWaits_append, (timed .snapshot .lock 500).2, (timed .output .outputLock 1000).2]
    simp
  rw [Process.handled, onSigterm, Program.served_bind, plainWaits_append]
  have last (mine : List Lock) : plainWaits (redeliver.served p.serve mine) = [] := rfl
  rw [last, List.append_nil, flush, Program.served_bind, captured, plainWaits_append, waits, Program.served_bind,
    (timed .detected .lock 500).1, plainWaits_append, (timed .detected .lock 500).2, List.nil_append, detects_eq]
  congr 1
  cases detected : p.detects with
  | false =>
    simp only [Bool.not_false, if_true, Bool.false_eq_true, if_false]
    cases p.checkoutInfo <;> rfl
  | true =>
    simp only [Bool.not_true, Bool.false_eq_true, if_false, if_true]
    exact written.trans gitWaits

/-- The condition: `_lock` is free when the handler records the checkout, if it comes to that,
and no other thread has `_flush_timer_lock` when the handler needs it after a failed start. -/
structure Unhindered : Prop where
  checkout : p.detects = true → p.checkoutInfo.isSome = true → p.owns .lock = false ∧ p.taken .checkout = false
  timers : ∀ cause ∈ p.failedStarts, p.taken (.settle cause) = false

theorem kill_handled : ∃ entry ∈ p.handled, entry.request = .kill := by
  rw [Process.handled, onSigterm, Program.served_bind]
  exact ⟨_, List.mem_append_right _ (List.mem_singleton_self _), rfl⟩

/-- Free locks are those that an owner does not keep until the handler is done. -/
theorem redelivers_of_boundedWaits (bounded : BoundedWaits p) : Redelivers p := by
  refine ⟨fun entry member site which asked => ?_, kill_handled p⟩
  have free := bounded entry member site which asked
  simp only [Process.free, Bool.and_eq_true, Bool.not_eq_true', List.contains_eq_mem, decide_eq_false_iff_not] at free
  exact free.1

theorem boundedWaits_iff : BoundedWaits p ↔ Unhindered p := by
  refine (forall_plain fun mine site which => p.free mine site which = true).trans ?_
  have settled (mine : List Lock) (cause : Cause) (owned : p.owns .flushTimerLock = false)
      (other : .flushTimerLock ∉ mine) :
      p.free mine (.settle cause) .flushTimerLock = true ↔ p.taken (.settle cause) = false := by
    simp [Process.free, owned, other]
  have recorded : p.free [] .checkout .lock = true ↔ p.owns .lock = false ∧ p.taken .checkout = false := by
    simp [Process.free]
  have failing := owns_of_failing p (captures p) p.memory
  rw [handled_waits]
  constructor
  · intro each
    constructor
    · intro detected found
      obtain ⟨info, found⟩ := Option.isSome_iff_exists.mp found
      refine recorded.mp (each ⟨[], .checkout, .lock⟩ (List.mem_append_right _ ?_))
      simp only [found, detected, if_true]
      exact List.mem_cons_self
    · intro cause member
      rcases List.mem_append.mp member with captured | last
      · exact (settled [] cause (failing cause captured) (by simp)).mp
          (each _ (List.mem_append_left _ (List.mem_map_of_mem captured)))
      · cases found : p.checkoutInfo with
        | none => simp [found] at last
        | some info =>
          simp only [found] at last
          split at last
          · rename_i both
            obtain ⟨detected, fails⟩ := Bool.and_eq_true_iff.mp both
            obtain rfl := List.mem_singleton.mp last
            have owned := owns_of_fails p [.lock] fails
            refine (settled [.lock] .checkout owned.1 owned.2).mp
              (each ⟨[.lock], .settle .checkout, .flushTimerLock⟩ (List.mem_append_right _ ?_))
            simp only [found, detected, fails, if_true]
            exact List.mem_cons_of_mem _ (List.mem_singleton_self _)
          · cases last
  · intro unhindered wait member
    rcases List.mem_append.mp member with captured | last
    · obtain ⟨cause, failed, rfl⟩ := List.mem_map.mp captured
      exact (settled [] cause (failing cause failed) (by simp)).mpr
        (unhindered.timers cause (List.mem_append_left _ failed))
    · cases found : p.checkoutInfo with
      | none => simp [found] at last
      | some info =>
        simp only [found] at last
        split at last
        · rename_i detected
          rcases List.mem_cons.mp last with rfl | final
          · exact recorded.mpr (unhindered.checkout detected (by simp [found]))
          · split at final
            · rename_i fails
              obtain rfl := List.mem_singleton.mp final
              have owned := owns_of_fails p [.lock] fails
              refine (settled [.lock] .checkout owned.1 owned.2).mpr
                (unhindered.timers .checkout (List.mem_append_right _ ?_))
              simp only [found, detected, fails, Bool.and_self, if_true]
              exact List.mem_singleton_self _
            · cases final
        · cases last

/-- Each acquisition is of a free lock or has a timeout, so that the signal is sent again,
exactly if the handler is unhindered. -/
theorem sigterm_handled_iff : (BoundedWaits p ∧ Redelivers p) ↔ Unhindered p := by
  rw [← boundedWaits_iff]
  exact and_iff_left_of_imp (redelivers_of_boundedWaits p)

end

/-- A process in a git checkout that has recorded a dataset. -/
def trainingProcess (owns : Lock → Bool) : Process where
  owns := owns
  taken _ := false
  inTime _ := true
  starts _ := true
  durableFlushEnabled := true
  detectedDatasets := [Keyed.ofList [("dataset_name", .str "imdb")]]
  runtimeInfo := ∅
  flushTimer := true
  argv := ["train.py"]
  convert _ _ := none
  distributedType _ := none
  checkout := some { commit := some "2a1f", branch := some "main", remote := none }

/-- The signal came while the main thread was appending to the datasets. -/
theorem interrupted_under_lock : ¬(BoundedWaits (trainingProcess (· = .lock)) ∧ Redelivers (trainingProcess (· = .lock))) := by
  rintro ⟨bounded, _⟩
  have free := ((boundedWaits_iff _).mp bounded).checkout (by decide) (by decide)
  exact absurd free.1 (by decide)

end AibomWebhook.SigtermHandler
