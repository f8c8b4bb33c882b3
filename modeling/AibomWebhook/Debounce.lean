import AibomWebhook.DetectionFile

/-! The debounced flush of the runtime detector (scripts/aibom-scripts/runtime_detector.py,
`_notify_change` and `_debounced_flush`). Threads record changes under one lock and
schedule a flush under another; the flush clears the pending timer before it takes its
snapshot. -/

namespace AibomWebhook.Debounce
open DetectionFile PyValue Requests

/-- `_lock` and `_flush_timer_lock`. -/
inductive Lock where
  | lock
  | flushTimerLock
  deriving DecidableEq

inductive DebounceRequest where
  | durableFlushEnabled
  | acquire (which : Lock) (thread : Nat)
  | release (which : Lock) (thread : Nat)
  | flushTimer
  | newTimer
  | start (timer : Nat)
  | dropTimer
  | clearTimer (timer : Nat)
  | append (entry : Dict)
  | amend (index : Nat) (changes : Dict)
  | stored (key : String)
  | update (incoming : Dict)
  | detected
  | gitCaptured
  | markCaptured
  | snapshot

abbrev DebounceAnswer : DebounceRequest → Type
  | .durableFlushEnabled => Bool
  | .acquire .. => Bool
  | .flushTimer => Option Nat
  | .newTimer => Nat
  | .start _ => Bool
  | .stored _ => Option Value
  | .detected => Bool
  | .gitCaptured => Bool
  | .snapshot => Memory
  | _ => Unit

abbrev DebounceCalls : Interface where
  Request := DebounceRequest
  Response := DebounceAnswer

abbrev DebounceProgram (α : Type) := Program DebounceCalls α

def send (request : DebounceRequest) : DebounceProgram (DebounceAnswer request) :=
  Program.send (I := DebounceCalls) request

@[simp] theorem send_bind {α : Type} (request : DebounceRequest) (rest : DebounceAnswer request → DebounceProgram α) :
    (send request >>= rest) = .call request rest := rfl

/-- The timer is made and becomes the pending one under the lock. When it cannot be
started the interpreter is shutting down. -/
def notifyChange (me : Nat) : DebounceProgram Unit := do
  let enabled ← send .durableFlushEnabled
  if enabled then
    let got ← send (.acquire .flushTimerLock me)
    if got then
      match ← send .flushTimer with
      | some _ => send (.release .flushTimerLock me)
      | none =>
        let timer ← send .newTimer
        send (.release .flushTimerLock me)
        let started ← send (.start timer)
        if started then return ()
        else
          let _ ← send (.acquire .flushTimerLock me)
          send .dropTimer
          send (.release .flushTimerLock me)
    else return ()
  else return ()

/-! `_NotifyingDict`. -/

/-- Whether a write would change a value, looking at one key after the other. -/
def changed : List (String × Value) → DebounceProgram Bool
  | [] => return false
  | (key, value) :: others => do
    match ← send (.stored key) with
    | none => return true
    | some old => if old.eq value then changed others else return true

def updateInfo (me : Nat) (incoming : Dict) : DebounceProgram Unit := do
  let differs ← changed incoming.items
  send (.update incoming)
  if differs then notifyChange me else return ()

def setItem (me : Nat) (key : String) (value : Value) : DebounceProgram Unit :=
  updateInfo me (Keyed.ofList [(key, value)])

/-! What the hooks record. -/

def recordDataset (me : Nat) (entry : Dict) : DebounceProgram Unit := do
  let _ ← send (.acquire .lock me)
  send (.append entry)
  send (.release .lock me)
  notifyChange me

/-- A loader over a dataset that is already recorded. -/
def amendDataset (me index : Nat) (changes : Dict) : DebounceProgram Unit := do
  send (.amend index changes)
  notifyChange me

def updateAll (me : Nat) : List Dict → DebounceProgram Unit
  | [] => return ()
  | incoming :: others => do
    updateInfo me incoming
    updateAll me others

def recordInfo (me : Nat) (updates : List Dict) : DebounceProgram Unit := do
  let _ ← send (.acquire .lock me)
  updateAll me updates
  send (.release .lock me)

/-! `_flush` up to its snapshot. -/

/-- What a flush finds in the arguments, the accelerate configuration and the checkout. -/
structure Findings where
  arguments : List (String × Value)
  strategy : Option String
  provenance : Option Dict

def captureTrainingArgs (me : Nat) : List (String × Value) → DebounceProgram Unit
  | [] => return ()
  | (name, value) :: others => do
    setItem me name value
    captureTrainingArgs me others

def captureAccelerateConfig (me : Nat) : Option String → DebounceProgram Unit
  | none => return ()
  | some strategy => setItem me "parallelization_strategy" (.str strategy)

def captureGitProvenance (me : Nat) : Option Dict → DebounceProgram Unit
  | none => return ()
  | some info => recordInfo me [info]

def takeSnapshot (me : Nat) : DebounceProgram Unit := do
  let _ ← send (.acquire .lock me)
  let _ ← send .snapshot
  send (.release .lock me)

def captureOnce (me : Nat) (provenance : Option Dict) : DebounceProgram Unit := do
  captureGitProvenance me provenance
  send .markCaptured
  takeSnapshot me

def flushDetected (me : Nat) (final : Bool) (provenance : Option Dict) : DebounceProgram Unit :=
  if final then captureOnce me provenance
  else do
    let captured ← send .gitCaptured
    if captured then takeSnapshot me else captureOnce me provenance

def flush (me : Nat) (final : Bool) (found : Findings) : DebounceProgram Unit := do
  captureTrainingArgs me found.arguments
  captureAccelerateConfig me found.strategy
  let _ ← send (.acquire .lock me)
  let any ← send .detected
  send (.release .lock me)
  if any then flushDetected me final found.provenance else return ()

def debouncedFlush (me timer : Nat) (found : Findings) : DebounceProgram Unit := do
  let _ ← send (.acquire .flushTimerLock me)
  send (.clearTimer timer)
  send (.release .flushTimerLock me)
  flush me false found

/-! The process. -/

/-- `created` numbers the timers. Of what happened, `started` and `cleared` tell which
timers can fire and which were cleared by their own flush, `changes` how many changes were
recorded and `covered` how many of them came before the last snapshot. -/
structure State where
  lock : Option Nat
  flushTimerLock : Option Nat
  flushTimer : Option Nat
  datasets : List Dict
  info : Dict
  gitCaptured : Bool
  durableFlushEnabled : Bool
  created : Nat
  started : List Nat
  cleared : List Nat
  changes : Nat
  covered : Nat

def State.holder (state : State) : Lock → Option Nat
  | .lock => state.lock
  | .flushTimerLock => state.flushTimerLock

def State.hold (state : State) (holder : Option Nat) : Lock → State
  | .lock => { state with lock := holder }
  | .flushTimerLock => { state with flushTimerLock := holder }

/-- Whether a write changes a value. -/
def differs (info incoming : Dict) : Bool :=
  incoming.items.any fun (key, value) =>
    match info.get? key with
    | none => true
    | some old => !old.eq value

def State.nothingDetected (state : State) : Bool := state.datasets.isEmpty && state.info.items.isEmpty

/-- Whether a timer can be started. -/
structure Luck where
  starts : Bool

def serve (luck : Luck) (state : State) : (request : DebounceRequest) → DebounceAnswer request × State
  | .durableFlushEnabled => (state.durableFlushEnabled, state)
  | .acquire which thread =>
    if (state.holder which).isNone then (true, state.hold (some thread) which) else (false, state)
  | .release which _ => ((), state.hold none which)
  | .flushTimer => (state.flushTimer, state)
  | .newTimer => (state.created, { state with flushTimer := some state.created, created := state.created + 1 })
  | .start timer =>
    if luck.starts then (true, { state with started := timer :: state.started }) else (false, state)
  | .dropTimer => ((), { state with flushTimer := none })
  | .clearTimer timer => ((), { state with flushTimer := none, cleared := timer :: state.cleared })
  | .append entry => ((), { state with datasets := state.datasets ++ [entry], changes := state.changes + 1 })
  | .amend index changes =>
    match state.datasets[index]? with
    | none => ((), state)
    | some old =>
      ((), { state with datasets := state.datasets.set index (old.update changes), changes := state.changes + 1 })
  | .stored key => (state.info.get? key, state)
  | .update incoming =>
    ((), { state with info := state.info.update incoming
                      changes := if differs state.info incoming then state.changes + 1 else state.changes })
  | .detected => (!state.nothingDetected, state)
  | .gitCaptured => (state.gitCaptured, state)
  | .markCaptured => ((), { state with gitCaptured := true })
  | .snapshot => ({ datasets := state.datasets, info := state.info }, { state with covered := state.changes })

inductive Task where
  | record (entry : Dict)
  | amend (index : Nat) (changes : Dict)
  | inform (updates : List Dict)
  | flush (final : Bool) (found : Findings)
  | fire (timer : Nat) (found : Findings)

/-- A call of one of the functions, on some thread. -/
structure Actor where
  id : Nat
  task : Task

def program (actor : Actor) : DebounceProgram Unit :=
  match actor.task with
  | .record entry => recordDataset actor.id entry
  | .amend index changes => amendDataset actor.id index changes
  | .inform updates => recordInfo actor.id updates
  | .flush final found => flush actor.id final found
  | .fire timer found => debouncedFlush actor.id timer found

def debouncing : System DebounceCalls State Actor Actor Empty Luck where
  resolve _ actor := some actor
  program := program
  act deed := deed.elim
  serve := serve

abbrev DebounceWorld := World DebounceCalls State Actor
abbrev DebounceMove := Move Actor Empty Luck

def Task.fires (timer : Nat) : Task → Bool
  | .fire other _ => timer = other
  | _ => false

/-- Each timer fires at most once, after its start; a wait for a lock lasts until the lock
is free, and timers can be started. -/
def Permitted (world : DebounceWorld) : DebounceMove → Prop
  | .spawn actor => (∀ thread ∈ world.threads, thread.owner.id ≠ actor.id) ∧
      ∀ timer, actor.task.fires timer = true →
        timer ∈ world.shared.started ∧ ∀ thread ∈ world.threads, thread.owner.task.fires timer = false
  | .act _ => True
  | .serve index luck => luck.starts = true ∧ ∀ thread which me next, world.threads[index]? = some thread →
      thread.rest = .call (.acquire which me) next → world.shared.holder which = none

/-- The timers that were created and not yet cleared by their flush. -/
def State.pending (state : State) : List Nat := (List.range state.created).filter (· ∉ state.cleared)

/-! Where a thread stands. -/

/-- The answers, when no wait times out and timers can be started. -/
def Legal (request : DebounceRequest) (response : DebounceAnswer request) : Prop :=
  match request, response with
  | .durableFlushEnabled, enabled => enabled = true
  | .acquire .., got => got = true
  | .start _, started => started = true
  | _, _ => True

def isChange : DebounceRequest → Bool
  | .append _ => true
  | .amend .. => true
  | .update _ => true
  | _ => false

def isClear : DebounceRequest → Bool
  | .clearTimer _ => true
  | _ => false

/-- A timer was found pending, or was made. -/
def Scheduled (request : DebounceRequest) (response : DebounceAnswer request) : Prop :=
  match request, response with
  | .flushTimer, timer => timer.isSome = true
  | .newTimer, _ => True
  | _, _ => False

/-- A snapshot was taken, or there was nothing to take. -/
def Taken (request : DebounceRequest) (response : DebounceAnswer request) : Prop :=
  match request, response with
  | .snapshot, _ => True
  | .detected, any => any = false
  | _, _ => False

/-- Inside its notification: it has still to find or make a timer, and changes nothing before. -/
def Notifying (rest : DebounceProgram Unit) : Prop :=
  rest.Until Legal (fun request => isChange request = false) Scheduled

/-- Inside a flush that has still to take its snapshot. -/
def FlushAhead (rest : DebounceProgram Unit) : Prop := rest.Until Legal (fun request => isClear request = false) Taken

/-- It does not end before it has cleared the timer. -/
def ClearAhead (timer : Nat) (rest : DebounceProgram Unit) : Prop :=
  rest.Until Legal (fun _ => True) fun request _ => request = DebounceRequest.clearTimer timer

/-! What a thread knows of what its locks protect. -/

/-- The locks that are held, the timer that was made, what was read of `_runtime_info`
under `_lock`, and whether no timer was found pending under the other lock. -/
structure Knowledge where
  lock : Bool
  values : List (String × Value)
  flushTimerLock : Bool
  idle : Bool
  made : Option Nat

def Knowledge.nothing : Knowledge where
  lock := false
  values := []
  flushTimerLock := false
  idle := false
  made := none

def learn (known : Knowledge) (request : DebounceRequest) (response : DebounceAnswer request) : Knowledge :=
  match request, response with
  | .acquire .lock _, _ => { known with lock := true }
  | .acquire .flushTimerLock _, _ => { known with flushTimerLock := true }
  | .release .lock _, _ => { known with lock := false, values := [] }
  | .release .flushTimerLock _, _ => { known with flushTimerLock := false, idle := false }
  | .flushTimer, timer => { known with idle := known.flushTimerLock && timer.isNone }
  | .newTimer, timer => { known with idle := false, made := some timer }
  | .stored key, some old => if known.lock then { known with values := (key, old) :: known.values } else known
  | .update _, _ => { known with values := [] }
  | _, _ => known

/-- All that is written was read before. -/
def Knowledge.Same (known : Knowledge) (incoming : Dict) : Prop :=
  ∀ key value, (key, value) ∈ incoming.items → ∃ old, (key, old) ∈ known.values ∧ old.eq value = true

def Demand (actor : Actor) (known : Knowledge) (request : DebounceRequest)
    (next : DebounceAnswer request → DebounceProgram Unit) : Prop :=
  match request, next with
  | .acquire _ thread, _ => thread = actor.id
  | .release .lock _, _ => known.lock = true
  | .release .flushTimerLock _, _ => known.flushTimerLock = true
  | .newTimer, _ => known.idle = true
  | .start timer, _ => known.made = some timer
  | .dropTimer, _ => False
  | .clearTimer timer, next => known.flushTimerLock = true ∧ actor.task.fires timer = true ∧ FlushAhead (next ()) ∧
      (next ()).Uses fun request => isClear request = false
  | .append _, next => Notifying (next ())
  | .amend .., next => Notifying (next ())
  | .update incoming, next => known.lock = true ∧ (known.Same incoming ∨ Notifying (next ())) ∨ FlushAhead (next ())
  | .detected, _ => known.lock = true ∧ known.values = []
  | .snapshot, _ => known.lock = true ∧ known.values = []
  | _, _ => True

/-- The thread goes by what it knows. -/
def Careful (actor : Actor) (known : Knowledge) (rest : DebounceProgram Unit) : Prop :=
  rest.Tracked Legal learn (Demand actor) known

/-! The programs go by what they know. -/

section Programs
variable {actor : Actor} {values : List (String × Value)} {lock : Bool} {made : Option Nat}
  {rest : DebounceProgram Unit}

abbrev knowing (lock : Bool) (values : List (String × Value)) (made : Option Nat) : Knowledge where
  lock := lock
  values := values
  flushTimerLock := false
  idle := false
  made := made

theorem notifyChange_notifies (me : Nat) (rest : DebounceProgram Unit) :
    Notifying (notifyChange me >>= fun _ => rest) := by
  refine ⟨rfl, fun enabled isEnabled => Or.inr ?_⟩
  obtain rfl : enabled = true := isEnabled
  refine ⟨rfl, fun got isGot => Or.inr ?_⟩
  obtain rfl : got = true := isGot
  refine ⟨rfl, fun timer _ => ?_⟩
  cases timer with
  | some timer => exact Or.inl rfl
  | none => exact Or.inr ⟨rfl, fun _ _ => Or.inl trivial⟩

theorem notifyChange_uses (me : Nat) : (notifyChange me).Uses fun request => isClear request = false := by
  refine ⟨rfl, fun enabled => ?_⟩
  cases enabled with
  | false => trivial
  | true =>
    refine ⟨rfl, fun got => ?_⟩
    cases got with
    | false => trivial
    | true =>
      refine ⟨rfl, fun timer => ?_⟩
      cases timer with
      | some timer => exact ⟨rfl, fun _ => trivial⟩
      | none =>
        refine ⟨rfl, fun timer => ⟨rfl, fun _ => ⟨rfl, fun started => ?_⟩⟩⟩
        cases started with
        | true => trivial
        | false => exact ⟨rfl, fun _ => ⟨rfl, fun _ => ⟨rfl, fun _ => trivial⟩⟩⟩

theorem notifyChange_careful (later : ∀ made, Careful actor (knowing lock values made) rest) :
    Careful actor (knowing lock values made) (notifyChange actor.id >>= fun _ => rest) := by
  refine ⟨trivial, fun enabled isEnabled => ?_⟩
  obtain rfl : enabled = true := isEnabled
  refine ⟨rfl, fun got isGot => ?_⟩
  obtain rfl : got = true := isGot
  refine ⟨trivial, fun timer _ => ?_⟩
  cases timer with
  | some timer => exact ⟨rfl, fun _ _ => later made⟩
  | none =>
    refine ⟨rfl, fun timer _ => ⟨rfl, fun _ _ => ⟨rfl, fun started isStarted => ?_⟩⟩⟩
    obtain rfl : started = true := isStarted
    exact later (some timer)

theorem changed_uses (items : List (String × Value)) : (changed items).Uses fun request => isClear request = false := by
  induction items with
  | nil => trivial
  | cons item others ih =>
    refine ⟨rfl, fun old => ?_⟩
    cases old with
    | none => trivial
    | some old =>
      change Program.Uses _ (if old.eq item.2 = true then changed others else .done true)
      split
      · exact ih
      · trivial

theorem updateInfo_uses (me : Nat) (incoming : Dict) :
    (updateInfo me incoming).Uses fun request => isClear request = false := by
  refine (changed_uses incoming.items).bind fun differs => ⟨rfl, fun _ => ?_⟩
  cases differs with
  | false => trivial
  | true => exact notifyChange_uses me

/-- What is asked of a write that is under way: it is made under `_lock`, or a snapshot is to come. -/
abbrev MayWrite (lock : Bool) (rest : DebounceProgram Unit) : Prop := lock = true ∨ FlushAhead rest

theorem write_ahead (me : Nat) (differs : Bool) (ahead : FlushAhead rest) :
    FlushAhead ((if differs = true then notifyChange me else .done ()) >>= fun _ => rest) := by
  cases differs with
  | false => exact ahead
  | true => exact (notifyChange_uses me).until fun _ => ahead

/-- The keys of `before` were read and found unchanged, those of `items` are still to be read. -/
theorem changed_careful {incoming : Dict} (made : Option Nat) (may : MayWrite lock rest)
    (later : ∀ made, Careful actor (knowing lock [] made) rest) (items : List (String × Value)) :
    ∀ before : List (String × Value), incoming.items = before ++ items → ∀ values,
      (lock = true → ∀ key value, (key, value) ∈ before → ∃ old, (key, old) ∈ values ∧ old.eq value = true) →
      Careful actor (knowing lock values made) (changed items >>= fun differs => send (.update incoming) >>= fun _ =>
        (if differs = true then notifyChange actor.id else .done ()) >>= fun _ => rest) := by
  have writes (differs : Bool) (values : List (String × Value))
      (right : lock = true → (knowing lock values made).Same incoming ∨ differs = true) :
      Careful actor (knowing lock values made) (send (.update incoming) >>= fun _ =>
        (if differs = true then notifyChange actor.id else .done ()) >>= fun _ => rest) := by
    refine ⟨?_, fun _ _ => ?_⟩
    · rcases may with held | ahead
      · refine Or.inl ⟨held, ?_⟩
        rcases right held with same | rfl
        · exact Or.inl same
        · exact Or.inr (notifyChange_notifies actor.id rest)
      · exact Or.inr (write_ahead actor.id differs ahead)
    · cases differs with
      | false => exact later made
      | true => exact notifyChange_careful later
  induction items with
  | nil =>
    intro before whole values known
    rw [List.append_nil] at whole
    refine writes false values fun held => Or.inl fun key value member => ?_
    exact known held key value (whole ▸ member)
  | cons item others ih =>
    intro before whole values known
    refine ⟨trivial, fun found _ => ?_⟩
    cases found with
    | none => exact writes true values fun _ => Or.inr rfl
    | some old =>
      change Careful actor _ ((if old.eq item.2 = true then changed others else .done true) >>= _)
      have learned : learn (knowing lock values made) (.stored item.1) (some old) =
          knowing lock (if lock then (item.1, old) :: values else values) made := by
        cases lock <;> rfl
      rw [learned]
      by_cases same : old.eq item.2 = true
      · rw [if_pos same]
        refine ih (before ++ [item]) (by simp [whole]) _ fun held key value member => ?_
        rw [if_pos held]
        rcases List.mem_append.mp member with early | last
        · obtain ⟨stored, here, equal⟩ := known held key value early
          exact ⟨stored, List.mem_cons_of_mem _ here, equal⟩
        · obtain rfl := List.mem_singleton.mp last
          exact ⟨old, List.mem_cons_self, same⟩
      · rw [if_neg same]
        exact writes true _ fun _ => Or.inr rfl

theorem updateInfo_careful {incoming : Dict} (may : MayWrite lock rest)
    (later : ∀ made, Careful actor (knowing lock [] made) rest) :
    Careful actor (knowing lock values made) (updateInfo actor.id incoming >>= fun _ => rest) := by
  have whole := changed_careful made may later incoming.items [] rfl values (by simp)
  rw [updateInfo]
  simpa using whole

theorem updateAll_careful (updates : List Dict) (later : ∀ made, Careful actor (knowing true [] made) rest) :
    ∀ made, Careful actor (knowing true [] made) (updateAll actor.id updates >>= fun _ => rest) := by
  induction updates with
  | nil => exact later
  | cons incoming others ih =>
    intro made
    have first : Careful actor (knowing true [] made)
        (updateInfo actor.id incoming >>= fun _ => updateAll actor.id others >>= fun _ => rest) :=
      updateInfo_careful (Or.inl rfl) ih
    rw [updateAll, bind_assoc]
    exact first

theorem recordInfo_careful (updates : List Dict) (later : ∀ made, Careful actor (knowing false [] made) rest) :
    Careful actor (knowing false [] made) (recordInfo actor.id updates >>= fun _ => rest) := by
  have inside : ∀ made, Careful actor (knowing true [] made) (.call (.release .lock actor.id) fun _ => rest) :=
    fun made => ⟨rfl, fun _ _ => later made⟩
  refine ⟨rfl, fun _ _ => ?_⟩
  change Careful actor (knowing true [] made)
    ((updateAll actor.id updates >>= fun _ => send (.release .lock actor.id)) >>= fun _ => rest)
  rw [bind_assoc]
  exact updateAll_careful updates inside made

theorem recordDataset_careful (entry : Dict) (later : ∀ made, Careful actor (knowing false [] made) rest) :
    Careful actor (knowing false [] made) (recordDataset actor.id entry >>= fun _ => rest) := by
  refine ⟨rfl, fun _ _ => ⟨⟨rfl, fun _ _ => Or.inr (notifyChange_notifies actor.id rest)⟩, fun _ _ => ?_⟩⟩
  exact ⟨rfl, fun _ _ => notifyChange_careful later⟩

theorem amendDataset_careful (index : Nat) (changes : Dict) (later : ∀ made, Careful actor (knowing false [] made) rest) :
    Careful actor (knowing false [] made) (amendDataset actor.id index changes >>= fun _ => rest) :=
  ⟨notifyChange_notifies actor.id rest, fun _ _ => notifyChange_careful later⟩

/-! A flush up to its snapshot. -/

theorem takeSnapshot_ahead (me : Nat) : FlushAhead (takeSnapshot me) :=
  ⟨rfl, fun _ _ => Or.inr ⟨rfl, fun _ _ => Or.inl trivial⟩⟩

theorem takeSnapshot_careful : Careful actor (knowing false [] made) (takeSnapshot actor.id) :=
  ⟨rfl, fun _ _ => ⟨⟨rfl, rfl⟩, fun _ _ => ⟨rfl, fun _ _ => trivial⟩⟩⟩

theorem updateAll_uses (me : Nat) (updates : List Dict) :
    (updateAll me updates).Uses fun request => isClear request = false := by
  induction updates with
  | nil => trivial
  | cons incoming others ih => exact (updateInfo_uses me incoming).bind fun _ => ih

theorem captureGitProvenance_uses (me : Nat) (provenance : Option Dict) :
    (captureGitProvenance me provenance).Uses fun request => isClear request = false := by
  cases provenance with
  | none => trivial
  | some info => exact ⟨rfl, fun _ => (updateAll_uses me [info]).bind fun _ => ⟨rfl, fun _ => trivial⟩⟩

theorem captureOnce_ahead (me : Nat) (provenance : Option Dict) : FlushAhead (captureOnce me provenance) :=
  (captureGitProvenance_uses me provenance).until fun _ => ⟨rfl, fun _ _ => Or.inr (takeSnapshot_ahead me)⟩

theorem captureOnce_careful (provenance : Option Dict) :
    Careful actor (knowing false [] made) (captureOnce actor.id provenance) := by
  have later : ∀ made, Careful actor (knowing false [] made)
      (.call .markCaptured fun _ => takeSnapshot actor.id) := fun made => ⟨trivial, fun _ _ => takeSnapshot_careful⟩
  rw [captureOnce]
  cases provenance with
  | none => exact later made
  | some info => exact recordInfo_careful [info] later

theorem flushDetected_ahead (me : Nat) (final : Bool) (provenance : Option Dict) :
    FlushAhead (flushDetected me final provenance) := by
  rw [flushDetected]
  split
  · exact captureOnce_ahead me provenance
  · refine ⟨rfl, fun captured _ => Or.inr ?_⟩
    cases captured with
    | true => exact takeSnapshot_ahead me
    | false => exact captureOnce_ahead me provenance

theorem flushDetected_careful (final : Bool) (provenance : Option Dict) :
    Careful actor (knowing false [] made) (flushDetected actor.id final provenance) := by
  rw [flushDetected]
  split
  · exact captureOnce_careful provenance
  · refine ⟨trivial, fun captured _ => ?_⟩
    cases captured with
    | true => exact takeSnapshot_careful
    | false => exact captureOnce_careful provenance

/-- The part of a flush from its first check on. -/
def checkDetected (me : Nat) (final : Bool) (provenance : Option Dict) : DebounceProgram Unit := do
  let _ ← send (.acquire .lock me)
  let any ← send .detected
  send (.release .lock me)
  if any then flushDetected me final provenance else return ()

theorem flush_eq (me : Nat) (final : Bool) (found : Findings) : flush me final found =
    (captureTrainingArgs me found.arguments >>= fun _ => captureAccelerateConfig me found.strategy >>= fun _ =>
      checkDetected me final found.provenance) := rfl

theorem checkDetected_ahead (me : Nat) (final : Bool) (provenance : Option Dict) :
    FlushAhead (checkDetected me final provenance) := by
  refine ⟨rfl, fun _ _ => Or.inr ⟨rfl, fun any _ => ?_⟩⟩
  cases any with
  | false => exact Or.inl rfl
  | true => exact Or.inr ⟨rfl, fun _ _ => Or.inr (flushDetected_ahead me final provenance)⟩

theorem checkDetected_careful (final : Bool) (provenance : Option Dict) :
    Careful actor (knowing false [] made) (checkDetected actor.id final provenance) := by
  refine ⟨rfl, fun _ _ => ⟨⟨rfl, rfl⟩, fun any _ => ⟨rfl, fun _ _ => ?_⟩⟩⟩
  cases any with
  | false => trivial
  | true => exact flushDetected_careful final provenance

theorem captureTrainingArgs_uses (me : Nat) (arguments : List (String × Value)) :
    (captureTrainingArgs me arguments).Uses fun request => isClear request = false := by
  induction arguments with
  | nil => trivial
  | cons argument others ih => exact (updateInfo_uses me _).bind fun _ => ih

theorem captureAccelerateConfig_uses (me : Nat) (strategy : Option String) :
    (captureAccelerateConfig me strategy).Uses fun request => isClear request = false := by
  cases strategy with
  | none => trivial
  | some strategy => exact updateInfo_uses me _

theorem accelerate_ahead (me : Nat) (final : Bool) (strategy : Option String) (provenance : Option Dict) :
    FlushAhead (captureAccelerateConfig me strategy >>= fun _ => checkDetected me final provenance) :=
  (captureAccelerateConfig_uses me strategy).until fun _ => checkDetected_ahead me final provenance

theorem flush_ahead (me : Nat) (final : Bool) (found : Findings) : FlushAhead (flush me final found) := by
  rw [flush_eq]
  exact (captureTrainingArgs_uses me found.arguments).until fun _ =>
    accelerate_ahead me final found.strategy found.provenance

theorem captureTrainingArgs_careful (arguments : List (String × Value)) (ahead : FlushAhead rest)
    (later : ∀ made, Careful actor (knowing false [] made) rest) :
    ∀ made, Careful actor (knowing false [] made) (captureTrainingArgs actor.id arguments >>= fun _ => rest) := by
  induction arguments with
  | nil => exact later
  | cons argument others ih =>
    intro made
    rw [captureTrainingArgs, bind_assoc]
    exact updateInfo_careful (Or.inr ((captureTrainingArgs_uses actor.id others).until fun _ => ahead)) ih

theorem flush_careful (final : Bool) (found : Findings) :
    Careful actor (knowing false [] made) (flush actor.id final found) := by
  rw [flush_eq]
  refine captureTrainingArgs_careful found.arguments (accelerate_ahead actor.id final found.strategy found.provenance)
    (fun made => ?_) made
  cases found.strategy with
  | none => exact checkDetected_careful final found.provenance
  | some strategy =>
    exact updateInfo_careful (Or.inr (checkDetected_ahead actor.id final found.provenance)) fun made =>
      checkDetected_careful final found.provenance

theorem captures_use (me : Nat) (final : Bool) (found : Findings) :
    (flush me final found).Uses fun request => isClear request = false := by
  have snapshot : (takeSnapshot me).Uses fun request => isClear request = false :=
    ⟨rfl, fun _ => ⟨rfl, fun _ => ⟨rfl, fun _ => trivial⟩⟩⟩
  have once : (captureOnce me found.provenance).Uses fun request => isClear request = false :=
    (captureGitProvenance_uses me found.provenance).bind fun _ => ⟨rfl, fun _ => snapshot⟩
  rw [flush_eq]
  refine (captureTrainingArgs_uses me found.arguments).bind fun _ =>
    (captureAccelerateConfig_uses me found.strategy).bind fun _ => ?_
  refine ⟨rfl, fun _ => ⟨rfl, fun any => ⟨rfl, fun _ => ?_⟩⟩⟩
  cases any with
  | false => trivial
  | true =>
    change (flushDetected me final found.provenance).Uses _
    rw [flushDetected]
    split
    · exact once
    · refine ⟨rfl, fun captured => ?_⟩
      cases captured with
      | true => exact snapshot
      | false => exact once

theorem program_careful (actor : Actor) : Careful actor .nothing (program actor) := by
  obtain ⟨id, task⟩ := actor
  have ended {actor : Actor} {program : DebounceProgram Unit}
      (careful : Careful actor .nothing (program >>= fun _ => .done ())) : Careful actor .nothing program := by
    have same : (program >>= fun _ => .done ()) = program := bind_pure program
    rwa [same] at careful
  cases task with
  | record entry => exact ended (recordDataset_careful entry fun _ => trivial)
  | amend index changes => exact ended (amendDataset_careful index changes fun _ => trivial)
  | inform updates => exact ended (recordInfo_careful updates fun _ => trivial)
  | flush final found => exact flush_careful final found
  | fire timer found =>
    refine ⟨rfl, fun _ _ => ⟨⟨rfl, by simp [Task.fires], ?_, ?_⟩, fun _ _ => ⟨rfl, fun _ _ => flush_careful false found⟩⟩⟩
    · exact ⟨rfl, fun _ _ => Or.inr (flush_ahead id false found)⟩
    · exact ⟨rfl, fun _ => captures_use id false found⟩

theorem program_clears (actor : Actor) {timer : Nat} (fires : actor.task.fires timer = true) :
    ClearAhead timer (program actor) := by
  obtain ⟨id, task⟩ := actor
  cases task with
  | fire other found =>
    obtain rfl : timer = other := by simpa [Task.fires] using fires
    exact ⟨trivial, fun _ _ => Or.inr ⟨trivial, fun _ _ => Or.inl rfl⟩⟩
  | _ => cases fires

end Programs

/-! All threads together. -/

/-- Some started flush has still to take its snapshot. -/
def Flushing (threads : List (Thread DebounceCalls State Actor)) : Prop := ∃ thread ∈ threads, FlushAhead thread.rest

/-- What a thread knows is so. A value that it read under `_lock` can only be another one by
now if a flush has still to take its snapshot. -/
structure Aware (state : State) (flushing : Prop) (actor : Actor) (known : Knowledge) : Prop where
  lock : known.lock = true → state.lock = some actor.id
  flushTimerLock : known.flushTimerLock = true → state.flushTimerLock = some actor.id
  idle : known.idle = true → known.flushTimerLock = true ∧ state.flushTimer = none
  made : ∀ timer, known.made = some timer → timer < state.created
  values : ∀ key value, (key, value) ∈ known.values →
    known.lock = true ∧ (state.info.get? key = some value ∨ flushing)

/-- What a step leaves alone. -/
structure Leaves (me : Nat) (state next : State) (flushing : Prop) : Prop where
  lock : next.lock = state.lock ∨ state.lock = none ∨ state.lock = some me
  flushTimerLock : next.flushTimerLock = state.flushTimerLock ∨ state.flushTimerLock = none ∨
    state.flushTimerLock = some me
  flushTimer : next.flushTimer = state.flushTimer ∨ state.flushTimerLock = some me
  created : state.created ≤ next.created
  info : next.info = state.info ∨ state.lock = some me ∨ flushing

section Step
variable {luck : Luck} {state next : State} {flushing later : Prop} {actor other : Actor} {known : Knowledge}
  {request : DebounceRequest} {rest : DebounceAnswer request → DebounceProgram Unit}

/-- Another thread's knowledge outlasts the step. -/
theorem Aware.left (aware : Aware state flushing other known) (leaves : Leaves actor.id state next later)
    (different : other.id ≠ actor.id) (still : flushing → later ∨ state.lock = some actor.id) :
    Aware next later other known := by
  have lock (held : known.lock = true) : state.lock = some other.id := aware.lock held
  have timer (held : known.flushTimerLock = true) : state.flushTimerLock = some other.id := aware.flushTimerLock held
  have apart {holder : Option Nat} (held : holder = some other.id) : holder ≠ some actor.id := by
    rw [held]
    exact fun same => different (Option.some.inj same)
  refine { lock := fun held => ?_, flushTimerLock := fun held => ?_, idle := fun idle => ?_
           made := fun made here => (aware.made made here).trans_le leaves.created, values := fun key value member => ?_ }
  · rcases leaves.lock with same | free | mine
    · exact same.trans (lock held)
    · exact absurd (free.symm.trans (lock held)) (by simp)
    · exact absurd mine (apart (lock held))
  · rcases leaves.flushTimerLock with same | free | mine
    · exact same.trans (timer held)
    · exact absurd (free.symm.trans (timer held)) (by simp)
    · exact absurd mine (apart (timer held))
  · obtain ⟨held, none⟩ := aware.idle idle
    refine ⟨held, ?_⟩
    rcases leaves.flushTimer with same | mine
    · exact same.trans none
    · exact absurd mine (apart (timer held))
  · obtain ⟨held, here⟩ := aware.values key value member
    have others := apart (lock held)
    refine ⟨held, ?_⟩
    rcases here with here | before
    · rcases leaves.info with same | mine | now
      · exact Or.inl (by rw [same]; exact here)
      · exact absurd mine others
      · exact Or.inr now
    · exact Or.inr ((still before).resolve_right others)

/-- A wait for a lock ends when the lock is free. -/
def Free (luck : Luck) (state : State) (request : DebounceRequest) : Prop :=
  luck.starts = true ∧ ∀ which me, request = .acquire which me → state.holder which = none

theorem legal_serve (free : Free luck state request) (enabled : state.durableFlushEnabled = true) :
    Legal request (serve luck state request).1 := by
  cases request with
  | durableFlushEnabled => exact enabled
  | acquire which me =>
    have none := free.2 which me rfl
    simp only [Legal, serve, none]
    rfl
  | start timer =>
    simp only [Legal, serve, free.1]
    rfl
  | _ => trivial

theorem serve_leaves (demand : Demand actor known request rest) (aware : Aware state flushing actor known)
    (free : Free luck state request)
    (ahead : ∀ incoming, request = .update incoming → FlushAhead (rest (serve luck state request).1) → later) :
    Leaves actor.id state (serve luck state request).2 later := by
  have same : Leaves actor.id state state later :=
    ⟨Or.inl rfl, Or.inl rfl, Or.inl rfl, le_rfl, Or.inl rfl⟩
  cases request with
  | acquire which me =>
    have none := free.2 which me rfl
    simp only [serve, none]
    cases which with
    | lock => exact { same with lock := Or.inr (Or.inl none) }
    | flushTimerLock => exact { same with flushTimerLock := Or.inr (Or.inl none) }
  | release which me =>
    cases which with
    | lock => exact { same with lock := Or.inr (Or.inr (aware.lock demand)) }
    | flushTimerLock => exact { same with flushTimerLock := Or.inr (Or.inr (aware.flushTimerLock demand)) }
  | newTimer =>
    exact { same with flushTimer := Or.inr (aware.flushTimerLock (aware.idle demand).1), created := Nat.le_succ _ }
  | start timer =>
    simp only [serve]
    split
    · exact { same with }
    · exact same
  | dropTimer => exact demand.elim
  | clearTimer timer => exact { same with flushTimer := Or.inr (aware.flushTimerLock demand.1) }
  | amend index changes =>
    simp only [serve]
    split
    · exact same
    · exact { same with }
  | update incoming =>
    refine { same with info := ?_ }
    rcases demand with ⟨held, _⟩ | flush
    · exact Or.inr (Or.inl (aware.lock held))
    · exact Or.inr (Or.inr (ahead incoming rfl flush))
  | _ => exact { same with }

/-- The thread's own knowledge after the step. -/
theorem Aware.learned (aware : Aware state flushing actor known) (demand : Demand actor known request rest)
    (free : Free luck state request)
    (still : flushing → later ∨ known.values = []) :
    Aware (serve luck state request).2 later actor (learn known request (serve luck state request).1) := by
  have values (key : String) (value : Value) (member : (key, value) ∈ known.values) :
      known.lock = true ∧ (state.info.get? key = some value ∨ later) := by
    obtain ⟨held, here⟩ := aware.values key value member
    refine ⟨held, here.imp_right fun before => (still before).resolve_right fun empty => ?_⟩
    rw [empty] at member
    cases member
  have same : Aware state later actor known :=
    ⟨aware.lock, aware.flushTimerLock, aware.idle, aware.made, values⟩
  cases request with
  | acquire which me =>
    obtain rfl : me = actor.id := demand
    have none := free.2 which actor.id rfl
    simp only [serve, none, Option.isNone_none, if_true]
    cases which with
    | lock =>
      exact { same with
        lock := fun _ => rfl
        values := fun key value member => ⟨rfl, (values key value member).2⟩ }
    | flushTimerLock =>
      exact { same with
        flushTimerLock := fun _ => rfl
        idle := fun idle => ⟨rfl, (aware.idle idle).2⟩ }
  | release which me =>
    cases which with
    | lock => exact { same with lock := fun held => absurd held (by simp [learn]), values := fun key value member => by cases member }
    | flushTimerLock =>
      exact { same with
        flushTimerLock := fun held => absurd held (by simp [learn])
        idle := fun idle => absurd idle (by simp [learn]) }
  | flushTimer =>
    refine { same with idle := fun idle => ?_ }
    simp only [learn, serve, Bool.and_eq_true, Option.isNone_iff_eq_none] at idle
    exact idle
  | newTimer =>
    refine { same with idle := fun idle => absurd idle (by simp [learn]), made := fun timer here => ?_ }
    obtain rfl : state.created = timer := Option.some.inj here
    exact Nat.lt_succ_self _
  | start timer =>
    simp only [serve]
    split
    · exact { same with }
    · exact same
  | dropTimer => exact demand.elim
  | clearTimer timer => exact { same with idle := fun idle => ⟨(aware.idle idle).1, rfl⟩ }
  | stored key =>
    simp only [serve]
    cases found : state.info.get? key with
    | none => exact same
    | some old =>
      simp only [learn]
      split
      · rename_i held
        refine { same with values := fun other value member => ?_ }
        rcases List.mem_cons.mp member with new | before
        · obtain ⟨rfl, rfl⟩ := Prod.mk.inj new
          exact ⟨held, Or.inl found⟩
        · exact values other value before
      · exact same
  | update incoming => exact { same with values := fun key value member => by cases member }
  | amend index changes =>
    simp only [serve]
    split
    · exact same
    · exact { same with }
  | _ => exact { same with }

/-- Nothing was changed or covered by the step, and the pending timer is as it was. -/
def Calm (state next : State) : Prop :=
  next.changes = state.changes ∧ next.covered = state.covered ∧ next.flushTimer = state.flushTimer

/-- A write that its thread does not notify of changes nothing, unless a flush is under way. -/
theorem update_unnotified {incoming : Dict} (aware : Aware state flushing actor known) (same : known.Same incoming) :
    differs state.info incoming = false ∨ flushing := by
  by_cases now : flushing
  · exact Or.inr now
  · refine Or.inl (List.any_eq_false.mpr fun item member => ?_)
    obtain ⟨key, value⟩ := item
    obtain ⟨old, read, equal⟩ := same key value member
    have stored : state.info.get? key = some old := (aware.values key old read).2.resolve_right now
    simp [stored, equal]

/-- A step is calm, or the thread has to go on to a snapshot or a timer, or it leaves nothing
uncovered or a timer pending, or another flush is under way. -/
theorem serve_calm (luck : Luck) (aware : Aware state flushing actor known) (demand : Demand actor known request rest) :
    Calm state (serve luck state request).2 ∨ FlushAhead (rest (serve luck state request).1) ∨
      Notifying (rest (serve luck state request).1) ∨
      (serve luck state request).2.covered = (serve luck state request).2.changes ∨
      (serve luck state request).2.flushTimer ≠ none ∨ flushing := by
  have calm : Calm state state := ⟨rfl, rfl, rfl⟩
  cases request with
  | acquire which me =>
    left
    simp only [serve]
    split
    · cases which <;> exact calm
    · exact calm
  | release which me => cases which <;> exact Or.inl calm
  | newTimer => exact Or.inr (Or.inr (Or.inr (Or.inr (Or.inl (by simp [serve])))))
  | start timer =>
    left
    simp only [serve]
    split <;> exact calm
  | dropTimer => exact demand.elim
  | clearTimer timer => exact Or.inr (Or.inl demand.2.2.1)
  | append entry => exact Or.inr (Or.inr (Or.inl demand))
  | amend index changes => exact Or.inr (Or.inr (Or.inl demand))
  | update incoming =>
    rcases demand with ⟨_, same | notifies⟩ | ahead
    · rcases update_unnotified aware same with unchanged | now
      · left
        simp only [Calm, serve, unchanged, Bool.false_eq_true, if_false, and_self]
      · exact Or.inr (Or.inr (Or.inr (Or.inr (Or.inr now))))
    · exact Or.inr (Or.inr (Or.inl notifies))
    · exact Or.inr (Or.inl ahead)
  | snapshot => exact Or.inr (Or.inr (Or.inr (Or.inl rfl)))
  | _ => exact Or.inl calm

theorem serve_counted (counted : state.covered ≤ state.changes) :
    (serve luck state request).2.covered ≤ (serve luck state request).2.changes := by
  cases request with
  | acquire which me =>
    simp only [serve]
    split
    · cases which <;> exact counted
    · exact counted
  | release which me => cases which <;> exact counted
  | start timer =>
    simp only [serve]
    split <;> exact counted
  | append entry => exact counted.trans (Nat.le_succ _)
  | amend index changes =>
    simp only [serve]
    split
    · exact counted
    · exact counted.trans (Nat.le_succ _)
  | update incoming =>
    simp only [serve]
    split
    · exact counted.trans (Nat.le_succ _)
    · exact counted
  | snapshot => exact le_rfl
  | _ => exact counted

/-- What was recorded is detected. -/
theorem serve_stocked (stocked : state.changes ≠ 0 → state.nothingDetected = false) :
    (serve luck state request).2.changes ≠ 0 → (serve luck state request).2.nothingDetected = false := by
  cases request with
  | acquire which me =>
    simp only [serve]
    split
    · cases which <;> exact stocked
    · exact stocked
  | release which me => cases which <;> exact stocked
  | start timer =>
    simp only [serve]
    split <;> exact stocked
  | append entry => exact fun _ => by simp [serve, State.nothingDetected]
  | amend index changes =>
    simp only [serve]
    split
    · exact stocked
    · rename_i old found
      obtain ⟨place, _⟩ := List.getElem?_eq_some_iff.mp found
      have present : state.datasets ≠ [] := List.ne_nil_of_length_pos (Nat.zero_lt_of_lt place)
      exact fun _ => by simp [State.nothingDetected, present]
  | update incoming =>
    simp only [serve, State.nothingDetected]
    have items : (state.info.update incoming).items = [] ↔ incoming.items = [] ∧ state.info.items = [] :=
      Keyed.items_putAll_eq_nil
    split
    · rename_i now
      have some : incoming.items ≠ [] := fun empty => by simp [differs, empty] at now
      exact fun _ => by simp [items, some]
    · intro before
      have here := stocked before
      simp only [State.nothingDetected, Bool.and_eq_false_iff, List.isEmpty_eq_false_iff] at here ⊢
      exact here.imp_right fun present => by simp [items, present]
  | _ => exact stocked

end Step

/-! The timers. -/

abbrev Threads := List (Thread DebounceCalls State Actor)

/-- It clears no timer any more. -/
abbrev Cleared (rest : DebounceProgram Unit) : Prop := rest.Uses fun request => isClear request = false

/-- The pending timer is the only one that was made and not cleared by its own flush. -/
structure Timers (state : State) (threads : Threads) : Prop where
  started : ∀ timer ∈ state.started, timer < state.created
  cleared : ∀ timer ∈ state.cleared, timer < state.created ∧
    ∃ thread ∈ threads, thread.owner.task.fires timer = true ∧ Cleared thread.rest
  pending : ∀ timer < state.created, timer ∉ state.cleared → state.flushTimer = some timer
  current : ∀ timer, state.flushTimer = some timer → timer < state.created ∧ timer ∉ state.cleared
  fires : ∀ thread ∈ threads, ∀ timer, thread.owner.task.fires timer = true → timer < state.created
  once : ∀ first ∈ threads, ∀ second ∈ threads, ∀ timer, first.owner.task.fires timer = true →
    second.owner.task.fires timer = true → first.owner.id = second.owner.id

theorem Timers.pending_le {state : State} {threads : Threads} (timers : Timers state threads) :
    state.pending.length ≤ 1 ∧ (state.flushTimer ≠ none → state.pending.length = 1) := by
  have distinct : state.pending.Nodup := List.nodup_range.filter _
  have current (timer : Nat) (member : timer ∈ state.pending) : state.flushTimer = some timer := by
    simp only [State.pending, List.mem_filter, List.mem_range, decide_eq_true_eq] at member
    exact timers.pending timer member.1 member.2
  cases held : state.flushTimer with
  | none =>
    have empty : state.pending = [] := List.eq_nil_iff_forall_not_mem.mpr fun timer member => by
      have same := current timer member
      rw [held] at same
      cases same
    simp [empty]
  | some timer =>
    have all : ∀ other ∈ state.pending, other = timer := fun other member =>
      (Option.some.inj ((current other member).symm.trans held))
    have copies := List.eq_replicate_of_mem all
    rw [copies, List.nodup_replicate] at distinct
    have here : timer ∈ state.pending := by
      have now := timers.current timer held
      simp [State.pending, now.1, now.2]
    have some : 0 < state.pending.length := List.length_pos_of_mem here
    omega

section Serve
variable {world : DebounceWorld} {index : Nat} {thread : Thread DebounceCalls State Actor} {luck : Luck}
  {request : DebounceRequest} {rest : DebounceAnswer request → DebounceProgram Unit} {known : Knowledge}

abbrev advanced (luck : Luck) (world : DebounceWorld) (thread : Thread DebounceCalls State Actor)
    (request : DebounceRequest) (rest : DebounceAnswer request → DebounceProgram Unit) :
    Thread DebounceCalls State Actor :=
  { owner := thread.owner
    past := thread.past ++ [⟨world.shared, request, (serve luck world.shared request).1⟩]
    rest := rest (serve luck world.shared request).1 }

theorem Timers.served (timers : Timers world.shared world.threads) (found : world.threads[index]? = some thread)
    (calls : thread.rest = .call request rest) (apart : (world.threads.map fun thread => thread.owner.id).Nodup)
    (aware : Aware world.shared (Flushing world.threads) thread.owner known)
    (demand : Demand thread.owner known request rest) :
    Timers (serve luck world.shared request).2 (world.threads.set index (advanced luck world thread request rest)) := by
  have here : thread ∈ world.threads := List.mem_of_getElem? found
  obtain ⟨place, _⟩ := List.getElem?_eq_some_iff.mp found
  have owners (other : Thread DebounceCalls State Actor)
      (member : other ∈ world.threads.set index (advanced luck world thread request rest)) :
      ∃ old ∈ world.threads, old.owner = other.owner := by
    rcases mem_set_cases apart found member with rfl | ⟨old, _⟩
    · exact ⟨thread, here, rfl⟩
    · exact ⟨other, old, rfl⟩
  have once : ∀ first ∈ world.threads.set index (advanced luck world thread request rest),
      ∀ second ∈ world.threads.set index (advanced luck world thread request rest), ∀ timer,
      first.owner.task.fires timer = true → second.owner.task.fires timer = true → first.owner.id = second.owner.id := by
    intro first one second two timer fires firesToo
    obtain ⟨old, member, same⟩ := owners first one
    obtain ⟨oldToo, memberToo, sameToo⟩ := owners second two
    rw [← same] at fires ⊢
    rw [← sameToo] at firesToo ⊢
    exact timers.once old member oldToo memberToo timer fires firesToo
  have firing {bound : Nat} (grown : world.shared.created ≤ bound) :
      ∀ other ∈ world.threads.set index (advanced luck world thread request rest), ∀ timer,
        other.owner.task.fires timer = true → timer < bound := by
    intro other member timer fires
    obtain ⟨old, present, same⟩ := owners other member
    rw [← same] at fires
    exact (timers.fires old present timer fires).trans_le grown
  have ended (timer : Nat) (done : timer ∈ world.shared.cleared) :
      ∃ other ∈ world.threads.set index (advanced luck world thread request rest),
        other.owner.task.fires timer = true ∧ Cleared other.rest := by
    obtain ⟨_, other, member, fires, uses⟩ := timers.cleared timer done
    rcases mem_set_of_mem found member (advanced luck world thread request rest) with rfl | kept
    · rw [calls] at uses
      exact ⟨_, List.mem_set place _, fires, uses.2 _⟩
    · exact ⟨other, kept, fires, uses⟩
  have same : Timers world.shared (world.threads.set index (advanced luck world thread request rest)) :=
    { started := timers.started
      cleared := fun timer done => ⟨(timers.cleared timer done).1, ended timer done⟩
      pending := timers.pending
      current := timers.current
      fires := firing le_rfl
      once := once }
  cases request with
  | acquire which me =>
    simp only [serve]
    split
    · cases which <;> exact { same with }
    · exact same
  | release which me => cases which <;> exact { same with }
  | newTimer =>
    have none : world.shared.flushTimer = none := (aware.idle demand).2
    refine { same with started := ?_, cleared := ?_, pending := ?_, current := ?_, fires := firing (Nat.le_succ _) }
    · exact fun timer member => (timers.started timer member).trans (Nat.lt_succ_self _)
    · exact fun timer done => ⟨(timers.cleared timer done).1.trans (Nat.lt_succ_self _), ended timer done⟩
    · intro timer below uncleared
      rcases Nat.lt_succ_iff_lt_or_eq.mp below with old | rfl
      · have held := timers.pending timer old uncleared
        rw [none] at held
        cases held
      · rfl
    · intro timer now
      obtain rfl : world.shared.created = timer := Option.some.inj now
      exact ⟨Nat.lt_succ_self _, fun done => absurd (timers.cleared _ done).1 (lt_irrefl _)⟩
  | start timer =>
    simp only [serve]
    split
    · refine { same with started := fun other member => ?_ }
      rcases List.mem_cons.mp member with rfl | old
      · exact aware.made other demand
      · exact timers.started other old
    · exact same
  | dropTimer => exact demand.elim
  | clearTimer timer =>
    obtain ⟨_, mine, _, uses⟩ := demand
    have below : timer < world.shared.created := timers.fires thread here timer mine
    have uncleared : timer ∉ world.shared.cleared := by
      intro done
      obtain ⟨_, other, member, fires, cleared⟩ := timers.cleared timer done
      obtain rfl : other = thread := List.inj_on_of_nodup_map apart member here
        (timers.once other member thread here timer fires mine)
      rw [calls] at cleared
      cases cleared.1
    have held := timers.pending timer below uncleared
    refine { same with cleared := ?_, pending := ?_, current := fun other now => by cases now }
    · intro other done
      rcases List.mem_cons.mp done with rfl | before
      · exact ⟨below, _, List.mem_set place _, mine, uses⟩
      · exact ⟨(timers.cleared other before).1, ended other before⟩
    · intro other old uncleared
      simp only [serve, List.mem_cons, not_or] at uncleared
      have same := Option.some.inj ((timers.pending other old uncleared.2).symm.trans held)
      exact absurd same uncleared.1
  | amend place changes =>
    simp only [serve]
    split
    · exact same
    · exact { same with }
  | _ => exact { same with }

end Serve

/-- What a timer's thread has done, or has still to do. -/
def Clears (state : State) (threads : Threads) : Prop :=
  ∀ thread ∈ threads, ∀ timer, thread.owner.task.fires timer = true →
    timer ∈ state.cleared ∨ ClearAhead timer thread.rest

theorem serve_cleared (luck : Luck) (state : State) (request : DebounceRequest) {timer : Nat}
    (done : timer ∈ state.cleared) : timer ∈ (serve luck state request).2.cleared := by
  cases request with
  | acquire which me =>
    simp only [serve]
    split
    · cases which <;> exact done
    · exact done
  | release which me => cases which <;> exact done
  | start timer =>
    simp only [serve]
    split <;> exact done
  | clearTimer other => exact List.mem_cons_of_mem other done
  | amend index changes =>
    simp only [serve]
    split <;> exact done
  | _ => exact done

/-- Everything recorded was in a snapshot, or a timer is pending, or a flush is to take its
snapshot, or a thread is inside its notification. -/
def Lively (state : State) (threads : Threads) : Prop :=
  state.covered = state.changes ∨ state.flushTimer ≠ none ∨ Flushing threads ∨
    ∃ thread ∈ threads, Notifying thread.rest

structure Sound (world : DebounceWorld) : Prop where
  enabled : world.shared.durableFlushEnabled = true
  apart : (world.threads.map fun thread => thread.owner.id).Nodup
  aware : ∀ thread ∈ world.threads, ∃ known, Careful thread.owner known thread.rest ∧
    Aware world.shared (Flushing world.threads) thread.owner known
  counted : world.shared.covered ≤ world.shared.changes
  stocked : world.shared.changes ≠ 0 → world.shared.nothingDetected = false
  lively : Lively world.shared world.threads
  timers : Timers world.shared world.threads
  clears : Clears world.shared world.threads

/-- A process that has just enabled its flushes. -/
structure Fresh (start : DebounceWorld) : Prop where
  threads : start.threads = []
  enabled : start.shared.durableFlushEnabled = true
  flushTimer : start.shared.flushTimer = none
  created : start.shared.created = 0
  started : start.shared.started = []
  cleared : start.shared.cleared = []
  changes : start.shared.changes = 0
  covered : start.shared.covered = 0

theorem Sound.start {start : DebounceWorld} (fresh : Fresh start) : Sound start where
  enabled := fresh.enabled
  apart := by simp [fresh.threads]
  aware := by simp [fresh.threads]
  counted := by simp [fresh.covered]
  stocked := by simp [fresh.changes]
  lively := Or.inl (by rw [fresh.covered, fresh.changes])
  timers :=
    { started := by simp [fresh.started]
      cleared := by simp [fresh.cleared]
      pending := by simp [fresh.created]
      current := by simp [fresh.flushTimer]
      fires := by simp [fresh.threads]
      once := by simp [fresh.threads] }
  clears := by simp [Clears, fresh.threads]

theorem Aware.mono {state : State} {flushing later : Prop} {actor : Actor} {known : Knowledge}
    (aware : Aware state flushing actor known) (implies : flushing → later) : Aware state later actor known :=
  { aware with
    values := fun key value member =>
      ⟨(aware.values key value member).1, (aware.values key value member).2.imp_right implies⟩ }

theorem Sound.spawn {world : DebounceWorld} (sound : Sound world) {actor : Actor}
    (allowed : Permitted world (.spawn actor)) :
    Sound { world with threads := world.threads ++ [debouncing.started actor] } := by
  obtain ⟨new, firing⟩ := allowed
  have grown : Flushing world.threads → Flushing (world.threads ++ [debouncing.started actor]) :=
    fun ⟨thread, member, ahead⟩ => ⟨thread, List.mem_append_left _ member, ahead⟩
  refine { enabled := sound.enabled, apart := ?_, aware := ?_, counted := sound.counted, stocked := sound.stocked
           lively := ?_, timers := ?_, clears := ?_ }
  · rw [List.map_append]
    refine List.nodup_append.mpr ⟨sound.apart, List.nodup_singleton _, ?_⟩
    intro id old other last
    obtain ⟨thread, member, rfl⟩ := List.mem_map.mp old
    obtain rfl := List.mem_singleton.mp last
    exact new thread member
  · intro thread member
    rcases List.mem_append.mp member with old | last
    · obtain ⟨known, careful, aware⟩ := sound.aware thread old
      exact ⟨known, careful, aware.mono grown⟩
    · obtain rfl := List.mem_singleton.mp last
      refine ⟨.nothing, program_careful actor, ?_⟩
      constructor <;> simp [Knowledge.nothing]
  · rcases sound.lively with all | pending | flushing | ⟨thread, member, notifying⟩
    · exact Or.inl all
    · exact Or.inr (Or.inl pending)
    · exact Or.inr (Or.inr (Or.inl (grown flushing)))
    · exact Or.inr (Or.inr (Or.inr ⟨thread, List.mem_append_left _ member, notifying⟩))
  · have timers := sound.timers
    have apart (thread : Thread DebounceCalls State Actor) (member : thread ∈ world.threads) (timer : Nat)
        (fires : thread.owner.task.fires timer = true) (mine : actor.task.fires timer = true) : False := by
      have never := (firing timer mine).2 thread member
      rw [fires] at never
      cases never
    refine { timers with cleared := ?_, fires := ?_, once := ?_ }
    · intro timer done
      obtain ⟨below, thread, member, fires, uses⟩ := timers.cleared timer done
      exact ⟨below, thread, List.mem_append_left _ member, fires, uses⟩
    · intro thread member timer fires
      rcases List.mem_append.mp member with old | last
      · exact timers.fires thread old timer fires
      · obtain rfl := List.mem_singleton.mp last
        exact timers.started timer (firing timer fires).1
    · intro first one second two timer fires firesToo
      rcases List.mem_append.mp one with old | last <;> rcases List.mem_append.mp two with oldToo | lastToo
      · exact timers.once first old second oldToo timer fires firesToo
      · obtain rfl := List.mem_singleton.mp lastToo
        exact (apart first old timer fires firesToo).elim
      · obtain rfl := List.mem_singleton.mp last
        exact (apart second oldToo timer firesToo fires).elim
      · rw [List.mem_singleton.mp last, List.mem_singleton.mp lastToo]
  · intro thread member timer fires
    rcases List.mem_append.mp member with old | last
    · exact sound.clears thread old timer fires
    · obtain rfl := List.mem_singleton.mp last
      exact Or.inr (program_clears actor fires)

section Serve
variable {world : DebounceWorld} {index : Nat} {thread : Thread DebounceCalls State Actor} {luck : Luck}
  {request : DebounceRequest} {rest : DebounceAnswer request → DebounceProgram Unit} {known : Knowledge}

/-- A flush that is under way stays so, unless its own snapshot is the step. -/
theorem flushing_after (found : world.threads[index]? = some thread) (calls : thread.rest = .call request rest)
    (legal : Legal request (serve luck world.shared request).1) (flushing : Flushing world.threads) :
    Flushing (world.threads.set index (advanced luck world thread request rest)) ∨
      Taken request (serve luck world.shared request).1 := by
  obtain ⟨place, _⟩ := List.getElem?_eq_some_iff.mp found
  obtain ⟨other, member, ahead⟩ := flushing
  rcases mem_set_of_mem found member (advanced luck world thread request rest) with rfl | kept
  · rw [calls] at ahead
    rcases ahead.2 _ legal with now | later
    · exact Or.inr now
    · exact Or.inl ⟨_, List.mem_set place _, later⟩
  · exact Or.inl ⟨other, kept, ahead⟩

theorem lively_after (sound : Sound world) (found : world.threads[index]? = some thread)
    (calls : thread.rest = .call request rest) (legal : Legal request (serve luck world.shared request).1)
    (aware : Aware world.shared (Flushing world.threads) thread.owner known)
    (demand : Demand thread.owner known request rest) :
    Lively (serve luck world.shared request).2 (world.threads.set index (advanced luck world thread request rest)) := by
  obtain ⟨place, _⟩ := List.getElem?_eq_some_iff.mp found
  have now : advanced luck world thread request rest ∈
      world.threads.set index (advanced luck world thread request rest) := List.mem_set place _
  -- A snapshot covers all, and a flush that finds nothing to take has nothing to cover.
  have taken (done : Taken request (serve luck world.shared request).1) :
      (serve luck world.shared request).2.covered = (serve luck world.shared request).2.changes := by
    cases request with
    | snapshot => rfl
    | detected =>
      have nothing : world.shared.nothingDetected = true := by simpa [Taken, serve] using done
      have none : world.shared.changes = 0 := by
        by_contra some
        rw [sound.stocked some] at nothing
        cases nothing
      have counted := sound.counted
      rw [none, Nat.le_zero] at counted
      exact counted.trans none.symm
    | _ => exact done.elim
  have flushing (before : Flushing world.threads) :
      Lively (serve luck world.shared request).2 (world.threads.set index (advanced luck world thread request rest)) := by
    rcases flushing_after found calls legal before with still | done
    · exact Or.inr (Or.inr (Or.inl still))
    · exact Or.inl (taken done)
  rcases serve_calm luck aware demand with ⟨changes, covered, timer⟩ | ahead | notifies | all | pending | before
  · rcases sound.lively with all | pending | before | ⟨other, member, notifying⟩
    · exact Or.inl (by rw [changes, covered, all])
    · exact Or.inr (Or.inl (by rw [timer]; exact pending))
    · exact flushing before
    · rcases mem_set_of_mem found member (advanced luck world thread request rest) with rfl | kept
      · rw [calls] at notifying
        rcases notifying.2 _ legal with scheduled | later
        · refine Or.inr (Or.inl ?_)
          cases request with
          | flushTimer => exact Option.isSome_iff_ne_none.mp scheduled
          | newTimer => simp [serve]
          | _ => exact scheduled.elim
        · exact Or.inr (Or.inr (Or.inr ⟨_, now, later⟩))
      · exact Or.inr (Or.inr (Or.inr ⟨other, kept, notifying⟩))
  · exact Or.inr (Or.inr (Or.inl ⟨_, now, ahead⟩))
  · exact Or.inr (Or.inr (Or.inr ⟨_, now, notifies⟩))
  · exact Or.inl all
  · exact Or.inr (Or.inl pending)
  · exact flushing before

theorem clears_after (sound : Sound world) (found : world.threads[index]? = some thread)
    (calls : thread.rest = .call request rest) (legal : Legal request (serve luck world.shared request).1) :
    Clears (serve luck world.shared request).2 (world.threads.set index (advanced luck world thread request rest)) := by
  intro other member timer fires
  rcases mem_set_cases sound.apart found member with rfl | ⟨old, _⟩
  · rcases sound.clears thread (List.mem_of_getElem? found) timer fires with done | ahead
    · exact Or.inl (serve_cleared luck world.shared request done)
    · rw [calls] at ahead
      rcases ahead.2 _ legal with rfl | later
      · exact Or.inl List.mem_cons_self
      · exact Or.inr later
  · exact (sound.clears other old timer fires).imp_left (serve_cleared luck world.shared request)

theorem Sound.serve (sound : Sound world) (found : world.threads[index]? = some thread)
    (calls : thread.rest = .call request rest) (free : Free luck world.shared request) :
    Sound { shared := (serve luck world.shared request).2
            history := world.states
            threads := world.threads.set index (advanced luck world thread request rest) } := by
  obtain ⟨place, _⟩ := List.getElem?_eq_some_iff.mp found
  have here : thread ∈ world.threads := List.mem_of_getElem? found
  have legal := legal_serve free sound.enabled
  obtain ⟨known, careful, aware⟩ := sound.aware thread here
  rw [calls] at careful
  obtain ⟨demand, later⟩ := careful
  -- Whoever takes a snapshot holds `_lock`, and relies on no value that it read.
  have taker (done : Taken request (Debounce.serve luck world.shared request).1) :
      known.lock = true ∧ known.values = [] := by
    cases request with
    | snapshot => exact demand
    | detected => exact demand
    | _ => exact done.elim
  refine { enabled := ?_, apart := ?_, aware := ?_, counted := serve_counted sound.counted
           stocked := serve_stocked sound.stocked, lively := lively_after sound found calls legal aware demand
           timers := sound.timers.served found calls sound.apart aware demand
           clears := clears_after sound found calls legal }
  · cases request with
    | acquire which me =>
      simp only [Debounce.serve]
      split
      · cases which <;> exact sound.enabled
      · exact sound.enabled
    | release which me => cases which <;> exact sound.enabled
    | start timer =>
      simp only [Debounce.serve]
      split <;> exact sound.enabled
    | amend index changes =>
      simp only [Debounce.serve]
      split <;> exact sound.enabled
    | _ => exact sound.enabled
  · have same : (world.threads.set index (advanced luck world thread request rest)).map (fun thread => thread.owner.id) =
        world.threads.map fun thread => thread.owner.id := map_set_of_key found rfl
    exact same ▸ sound.apart
  · intro other member
    rcases mem_set_cases sound.apart found member with rfl | ⟨old, different⟩
    · refine ⟨_, later _ legal, aware.learned demand free fun before => ?_⟩
      exact (flushing_after found calls legal before).imp_right fun done => (taker done).2
    · obtain ⟨knownToo, carefulToo, awareToo⟩ := sound.aware other old
      refine ⟨knownToo, carefulToo, awareToo.left (serve_leaves demand aware free fun _ _ ahead => ?_) different
        fun before => ?_⟩
      · exact ⟨_, List.mem_set place _, ahead⟩
      · exact (flushing_after found calls legal before).imp_right fun done => aware.lock (taker done).1

end Serve

theorem Sound.reached {start world : DebounceWorld} (fresh : Fresh start)
    (reached : debouncing.Reaches Permitted start world) : Sound world := by
  refine System.Reaches.invariant (Sound.start fresh) (fun world next move _ sound allowed moved => ?_) reached
  rcases System.step_cases moved with ⟨label, owner, rfl, found, rfl⟩ | ⟨deed, rfl, rfl⟩ |
    ⟨index, luck, thread, request, rest, rfl, found, calls, rfl⟩
  · obtain rfl := Option.some.inj found
    exact sound.spawn allowed
  · exact deed.elim
  · refine sound.serve found calls ⟨allowed.1, fun which me same => ?_⟩
    subst same
    exact allowed.2 thread which me rest found calls

/-- Outside of notifications, a change that is in no snapshot has a timer pending or a flush
on its way to a snapshot; two timers are never pending, and one whose thread has ended has
been cleared. -/
theorem no_lost_wakeup {start world : DebounceWorld} (fresh : Fresh start)
    (reached : debouncing.Reaches Permitted start world) :
    ((∀ thread ∈ world.threads, ¬Notifying thread.rest) → world.shared.covered < world.shared.changes →
      world.shared.pending.length = 1 ∨ ∃ thread ∈ world.threads, FlushAhead thread.rest) ∧
      world.shared.pending.length ≤ 1 ∧
      ∀ thread ∈ world.threads, ∀ timer, thread.owner.task.fires timer = true → thread.rest = .done () →
        timer ∈ world.shared.cleared := by
  have sound := Sound.reached fresh reached
  have pending := sound.timers.pending_le
  refine ⟨fun quiet uncovered => ?_, pending.1, fun thread member timer fires ended => ?_⟩
  · rcases sound.lively with all | held | flushing | ⟨thread, member, notifying⟩
    · exact absurd all uncovered.ne
    · exact Or.inl (pending.2 held)
    · exact Or.inr flushing
    · exact absurd notifying (quiet thread member)
  · refine (sound.clears thread member timer fires).resolve_right fun ahead => ?_
    rw [ended] at ahead
    exact ahead

def idle : DebounceWorld := World.initial Actor
  { lock := none
    flushTimerLock := none
    flushTimer := none
    datasets := []
    info := ∅
    gitCaptured := false
    durableFlushEnabled := true
    created := 0
    started := []
    cleared := []
    changes := 0
    covered := 0 }

theorem idle_fresh : Fresh idle := by constructor <;> rfl

def permits (world : DebounceWorld) : DebounceMove → Bool
  | .spawn actor => (world.threads.all fun thread => thread.owner.id != actor.id) &&
      match actor.task with
      | .fire timer _ => world.shared.started.contains timer &&
        world.threads.all fun thread => !thread.owner.task.fires timer
      | _ => true
  | .act _ => true
  | .serve index luck => luck.starts && world.threads[index]?.all fun thread =>
      match thread.rest with
      | .call (.acquire which _) _ => (world.shared.holder which).isNone
      | _ => true

theorem permitted_of_permits (world : DebounceWorld) (move : DebounceMove) (checked : permits world move = true) :
    Permitted world move := by
  cases move with
  | spawn actor =>
    simp only [permits, Bool.and_eq_true, List.all_eq_true, bne_iff_ne] at checked
    refine ⟨checked.1, fun timer fires => ?_⟩
    obtain ⟨id, task⟩ := actor
    cases task with
    | fire other found =>
      obtain rfl : timer = other := by simpa [Task.fires] using fires
      simpa using checked.2
    | _ => cases fires
  | act deed => trivial
  | serve index luck =>
    simp only [permits, Bool.and_eq_true] at checked
    refine ⟨checked.1, fun thread which me next found calls => ?_⟩
    simpa [found, calls] using checked.2

/-- A dataset is recorded, and the timer that it set has fired and been cleared. -/
def recordedThenFired : List DebounceMove :=
  .spawn ⟨1, .record (Keyed.ofList [("dataset_name", .str "imdb")])⟩ :: List.replicate 9 (.serve 0 ⟨true⟩) ++
    .spawn ⟨2, .fire 0 ⟨[], none, none⟩⟩ :: List.replicate 2 (.serve 1 ⟨true⟩)

theorem no_lost_wakeup_after_clear : ∃ world, debouncing.Reaches Permitted idle world ∧
    world.shared.covered < world.shared.changes ∧ world.shared.pending = [] ∧
    ((∀ thread ∈ world.threads, ¬Notifying thread.rest) → world.shared.covered < world.shared.changes →
      world.shared.pending.length = 1 ∨ ∃ thread ∈ world.threads, FlushAhead thread.rest) ∧
      world.shared.pending.length ≤ 1 ∧
      ∀ thread ∈ world.threads, ∀ timer, thread.owner.task.fires timer = true → thread.rest = .done () →
        timer ∈ world.shared.cleared := by
  have ends : ((debouncing.checkedRun permits idle recordedThenFired).map fun world =>
      (world.shared.covered, world.shared.changes, world.shared.pending)) = some (0, 1, []) := by decide
  obtain ⟨world, ran, result⟩ := Option.map_eq_some_iff.mp ends
  simp only [Prod.mk.injEq] at result
  have reached := System.reaches_of_checkedRun permitted_of_permits ran
  refine ⟨world, reached, ?_, result.2.2, no_lost_wakeup idle_fresh reached⟩
  rw [result.1, result.2.1]
  exact Nat.zero_lt_one

end AibomWebhook.Debounce
