import AibomWebhook.Library.FileLock

/-! The lock around the output of the runtime detector (scripts/aibom-scripts/runtime_detector.py,
`_output_lock`), with threads that flush, forks and deaths. -/

namespace AibomWebhook.OutputLock
open FileLock

/-- One call of `_output_lock`: the sidecar file that it opened, and whether it has got its lock and yielded. -/
structure Frame where
  file : Nat
  yielded : Bool
  deriving DecidableEq

/-- For each process its threads, for each thread its calls, the innermost first: the handler of a signal can flush
in the midst of a flush. A dead process has no threads. -/
structure State where
  files : Files
  threads : List (List (List Frame))

def State.calls (state : State) (process thread : Nat) : Option (List Frame) :=
  (state.threads[process]?).bind fun threads => threads[thread]?

def State.withCalls (state : State) (process thread : Nat) (calls : List Frame) (files : Files) : State where
  files := files
  threads := state.threads.modify process fun threads => threads.set thread calls

/-- What happens next. What a flush does between `yield` and its end changes no descriptor of the sidecar file, and
whether it ends well or not the file is closed. -/
inductive Move where
  | launch
  | spawn (process : Nat)
  | enter (process thread : Nat)
  | flock (process thread : Nat)
  | timeout (process thread : Nat)
  | leave (process thread : Nat)
  | fork (process thread : Nat)
  | die (process : Nat)

/-- Of a fork the child has the descriptors of all threads, but only the thread that made it; what the handler resets
in it are locks of the process. -/
def step (state : State) : Move → Option State
  | .launch => some { files := state.files.launch, threads := state.threads ++ [[[]]] }
  | .spawn process =>
    match state.threads[process]? with
    | some (first :: others) => some { state with threads := state.threads.set process ((first :: others) ++ [[]]) }
    | _ => none
  | .enter process thread => (state.calls process thread).map fun calls =>
    state.withCalls process thread ({ file := state.files.opened, yielded := false } :: calls) (state.files.openFile process)
  | .flock process thread =>
    match state.calls process thread with
    | some ({ file, yielded := false } :: outer) =>
      match state.files.tryLock process file with
      | some files => some (state.withCalls process thread ({ file := file, yielded := true } :: outer) files)
      | none => some state
    | _ => none
  | .timeout process thread =>
    match state.calls process thread with
    | some ({ file, yielded := false } :: outer) =>
      some (state.withCalls process thread outer (state.files.close process file))
    | _ => none
  | .leave process thread =>
    match state.calls process thread with
    | some ({ file, yielded := true } :: outer) =>
      some (state.withCalls process thread outer (state.files.close process file))
    | _ => none
  | .fork process thread => (state.calls process thread).map fun calls =>
    { files := state.files.fork process, threads := state.threads ++ [[calls]] }
  | .die process => some { files := state.files.exit process, threads := state.threads.set process [] }

/-- Any number of processes, before they flush. -/
def start (processes : Nat) : State where
  files := Files.start processes
  threads := List.replicate processes [[]]

/-- No other thread of a process that forks is inside. -/
def Permitted (state : State) : Move → Prop
  | .fork process thread => ∀ other calls, other ≠ thread → state.calls process other = some calls → calls = []
  | _ => True

inductive Reaches (begin : State) : State → Prop where
  | start : Reaches begin begin
  | step {state next : State} {move : Move} (reached : Reaches begin state) (allowed : Permitted state move)
      (moved : step state move = some next) : Reaches begin next

/-- A living thread is inside, by a call that opened this file. -/
def Inside (state : State) (file : Nat) : Prop :=
  ∃ process thread calls, state.calls process thread = some calls ∧ file ∈ calls.map Frame.file

/-- Every descriptor belongs to a call in its own process. -/
structure Sound (state : State) : Prop where
  size : state.files.tables.length = state.threads.length
  covered : ∀ process file, file ∈ state.files.table process →
    ∃ thread calls, state.calls process thread = some calls ∧ file ∈ calls.map Frame.file

section
variable {state : State} {process thread other number : Nat} {calls old : List Frame} {files : Files}

theorem calls_withCalls_self (found : state.calls process thread = some old) :
    (state.withCalls process thread calls files).calls process thread = some calls := by
  obtain ⟨threads, here, there⟩ := Option.bind_eq_some_iff.mp found
  have inside := (List.getElem?_eq_some_iff.mp there).1
  simp [State.calls, State.withCalls, here, inside]

theorem calls_withCalls_of_ne (different : ¬(other = process ∧ number = thread)) :
    (state.withCalls process thread calls files).calls other number = state.calls other number := by
  simp only [State.calls, State.withCalls, List.getElem?_modify]
  by_cases same : process = other
  · subst same
    have apart : thread ≠ number := fun equal => different ⟨rfl, equal.symm⟩
    cases here : state.threads[process]? with
    | none => rfl
    | some threads => simp [List.getElem?_set_ne apart]
  · simp [same]

theorem Sound.withCalls (sound : Sound state) (found : state.calls process thread = some old)
    (size : files.tables.length = state.files.tables.length)
    (kept : ∀ other file, file ∈ files.table other → file ∈ state.files.table other ∧
        (other = process → file ∈ old.map Frame.file → file ∈ calls.map Frame.file) ∨
      other = process ∧ file ∈ calls.map Frame.file) : Sound (state.withCalls process thread calls files) where
  size := by
    rw [State.withCalls, List.length_modify, ← sound.size]
    exact size
  covered := by
    intro other file member
    rcases kept other file member with ⟨before, moved⟩ | ⟨rfl, inside⟩
    · obtain ⟨number, theirs, here, inside⟩ := sound.covered other file before
      by_cases same : other = process ∧ number = thread
      · obtain ⟨rfl, rfl⟩ := same
        obtain rfl := Option.some.inj (here.symm.trans found)
        exact ⟨number, calls, calls_withCalls_self found, moved rfl inside⟩
      · exact ⟨number, theirs, (calls_withCalls_of_ne same).trans here, inside⟩
    · exact ⟨thread, calls, calls_withCalls_self found, inside⟩

theorem calls_append {added : List (List Frame)} (found : state.calls process thread = some calls) :
    State.calls { files := files, threads := state.threads ++ [added] } process thread = some calls := by
  obtain ⟨threads, here, there⟩ := Option.bind_eq_some_iff.mp found
  have inside := (List.getElem?_eq_some_iff.mp here).1
  simp [State.calls, List.getElem?_append_left inside, here, there]

/-- A process that starts with the descriptors of its only thread. -/
theorem Sound.append (sound : Sound state) {added : List Nat} (own : added ⊆ calls.map Frame.file) :
    Sound { files := state.files.withTables (state.files.tables ++ [added]), threads := state.threads ++ [[calls]] } where
  size := by simp [Files.withTables, sound.size]
  covered := by
    intro other file member
    rcases Files.mem_table_append.mp member with before | ⟨inside, rfl⟩
    · obtain ⟨number, theirs, here, inside⟩ := sound.covered other file before
      exact ⟨number, theirs, calls_append here, inside⟩
    · refine ⟨0, calls, ?_, own inside⟩
      simp [State.calls, sound.size]

/-- A call that ends closes its file. -/
theorem Sound.close (sound : Sound state) {frame : Frame} {outer : List Frame}
    (found : state.calls process thread = some (frame :: outer)) :
    Sound (state.withCalls process thread outer (state.files.close process frame.file)) := by
  refine sound.withCalls found (by simp [Files.close, Files.withTables]) fun other file member => ?_
  obtain ⟨before, open_⟩ := Files.mem_table_close.mp member
  refine Or.inl ⟨before, fun same inside => ?_⟩
  rw [List.map_cons, List.mem_cons] at inside
  exact inside.resolve_left fun equal => open_ ⟨same, equal⟩

theorem Sound.step {next : State} {move : Move} (sound : Sound state) (allowed : Permitted state move)
    (moved : step state move = some next) : Sound next := by
  cases move with
  | launch =>
    obtain rfl := Option.some.inj moved
    exact sound.append (List.nil_subset _)
  | spawn process =>
    simp only [OutputLock.step] at moved
    split at moved
    · rename_i first others living
      obtain rfl := Option.some.inj moved
      refine ⟨sound.size.trans (List.length_set ..).symm, fun other file member => ?_⟩
      obtain ⟨number, theirs, found, inside⟩ := sound.covered other file member
      refine ⟨number, theirs, ?_, inside⟩
      obtain ⟨threads, here, there⟩ := Option.bind_eq_some_iff.mp found
      by_cases same : process = other
      · subst same
        obtain rfl := Option.some.inj (here.symm.trans living)
        have within := (List.getElem?_eq_some_iff.mp here).1
        rw [State.calls, List.getElem?_set_self within, Option.bind_some]
        exact (List.getElem?_append_left (List.getElem?_eq_some_iff.mp there).1).trans there
      · rw [State.calls, List.getElem?_set_ne same]
        exact found
    · cases moved
  | enter process thread =>
    obtain ⟨calls, found, rfl⟩ := Option.map_eq_some_iff.mp moved
    refine sound.withCalls found (by simp [Files.openFile, Files.withTables]) fun other file member => ?_
    rcases Files.mem_table_openFile.mp member with before | ⟨rfl, rfl, -⟩
    · exact Or.inl ⟨before, fun _ inside => List.mem_cons_of_mem _ inside⟩
    · exact Or.inr ⟨rfl, List.mem_cons_self⟩
  | flock process thread =>
    simp only [OutputLock.step] at moved
    split at moved
    · rename_i file outer found
      split at moved
      · rename_i files got
        obtain rfl := Option.some.inj moved
        have same := (Files.tryLock_some got).1
        refine sound.withCalls found (by rw [same]) fun other opened member => ?_
        rw [Files.table, same] at member
        exact Or.inl ⟨member, fun _ inside => inside⟩
      · exact Option.some.inj moved ▸ sound
    · cases moved
  | timeout process thread =>
    simp only [OutputLock.step] at moved
    split at moved
    · rename_i file outer found
      exact Option.some.inj moved ▸ sound.close found
    · cases moved
  | leave process thread =>
    simp only [OutputLock.step] at moved
    split at moved
    · rename_i file outer found
      exact Option.some.inj moved ▸ sound.close found
    · cases moved
  | fork process thread =>
    obtain ⟨calls, found, rfl⟩ := Option.map_eq_some_iff.mp moved
    refine sound.append fun file member => ?_
    obtain ⟨other, theirs, here, inside⟩ := sound.covered process file member
    by_cases same : other = thread
    · subst same
      obtain rfl := Option.some.inj (here.symm.trans found)
      exact inside
    · rw [allowed other theirs same here] at inside
      cases inside
  | die process =>
    obtain rfl := Option.some.inj moved
    refine ⟨by simp [Files.exit, Files.withTables, sound.size], fun other file member => ?_⟩
    obtain ⟨before, different⟩ := Files.mem_table_exit.mp member
    obtain ⟨number, theirs, here, inside⟩ := sound.covered other file before
    refine ⟨number, theirs, ?_, inside⟩
    rw [State.calls, List.getElem?_set_ne different.symm]
    exact here

theorem Sound.start (processes : Nat) : Sound (start processes) where
  size := by simp [OutputLock.start, Files.start]
  covered := by
    intro process file member
    rw [OutputLock.start, Files.table_start] at member
    cases member

theorem Sound.reached {processes : Nat} (reached : Reaches (OutputLock.start processes) state) : Sound state := by
  induction reached with
  | start => exact Sound.start processes
  | step _ allowed moved ih => exact ih.step allowed moved

/-- The lock is held through a call of a living thread only. -/
theorem Sound.inside_of_holder (sound : Sound state) {file : Nat} (holds : state.files.holder = some file) :
    Inside state file := by
  obtain ⟨process, member⟩ := Files.open_of_holder holds
  exact ⟨process, sound.covered process file member⟩

/-- The lock is free when no living thread is inside, and who waits for it waits for a thread that is inside. -/
theorem lock_free {processes : Nat} (reached : Reaches (OutputLock.start processes) state) :
    ((∀ process thread calls, state.calls process thread = some calls → calls = []) → state.files.holder = none) ∧
      ∀ file, state.files.holder = some file → Inside state file := by
  have sound := Sound.reached reached
  refine ⟨fun outside => ?_, fun file holds => sound.inside_of_holder holds⟩
  by_contra some_
  obtain ⟨file, holds⟩ := Option.ne_none_iff_exists'.mp some_
  obtain ⟨process, thread, calls, found, inside⟩ := sound.inside_of_holder holds
  rw [outside process thread calls found] at inside
  cases inside

end

def permits (state : State) : Move → Bool
  | .fork process thread => ((state.threads[process]?).getD []).zipIdx.all fun (calls, other) => other = thread || calls.isEmpty
  | _ => true

theorem permitted_of_permits {state : State} {move : Move} (checked : permits state move = true) : Permitted state move := by
  cases move with
  | fork process thread =>
    intro other calls different found
    obtain ⟨threads, here, there⟩ := Option.bind_eq_some_iff.mp found
    rw [permits, here, Option.getD_some, List.all_eq_true] at checked
    have one := checked (calls, other) (List.mem_zipIdx_iff_getElem?.mpr there)
    simpa [different] using one
  | _ => trivial

/-- A run, as far as it is permitted. -/
def checkedRun (state : State) : List Move → Option State
  | [] => some state
  | move :: rest => if permits state move then (step state move).bind fun next => checkedRun next rest else none

theorem reaches_of_checkedRun {begin state last : State} {moves : List Move} (reached : Reaches begin state)
    (ran : checkedRun state moves = some last) : Reaches begin last := by
  induction moves generalizing state with
  | nil => exact Option.some.inj ran ▸ reached
  | cons move rest ih =>
    rw [checkedRun] at ran
    split at ran
    · rename_i checked
      obtain ⟨next, moved, later⟩ := Option.bind_eq_some_iff.mp ran
      exact ih (reached.step (permitted_of_permits checked) moved) later
    · cases ran

/-- A thread forks in the midst of its own flush, and ends it before its child does. -/
def forkedInside : List Move := [.enter 0 0, .flock 0 0, .fork 0 0, .leave 0 0]

theorem lock_free_when_forked_inside : ∃ state, Reaches (start 2) state ∧ state.files.holder = some 0 ∧ Inside state 0 := by
  have ends : ((checkedRun (start 2) forkedInside).map fun state => state.files.holder) = some (some 0) := by decide
  obtain ⟨state, ran, holds⟩ := Option.map_eq_some_iff.mp ends
  have reached := reaches_of_checkedRun Reaches.start ran
  exact ⟨state, reached, holds, (lock_free reached).2 0 holds⟩

/-- The first thread forks while the second one flushes: the child keeps the lock, though nobody is inside. -/
def forkedBeside : List Move := [.spawn 0, .enter 0 1, .flock 0 1, .fork 0 0, .leave 0 1]

theorem child_keeps_lock : ∃ state, forkedBeside.foldlM step (start 1) = some state ∧
    (∀ process thread calls, state.calls process thread = some calls → calls = []) ∧ state.files.holder = some 0 := by
  have ends : ((forkedBeside.foldlM step (start 1)).map fun state => (state.threads, state.files.holder)) =
      some ([[[], []], [[]]], some 0) := by decide
  obtain ⟨state, ran, result⟩ := Option.map_eq_some_iff.mp ends
  simp only [Prod.mk.injEq] at result
  refine ⟨state, ran, fun process thread calls found => ?_, result.2⟩
  obtain ⟨threads, here, there⟩ := Option.bind_eq_some_iff.mp found
  have all : ∀ threads ∈ state.threads, ∀ calls ∈ threads, calls = [] := by
    rw [result.1]
    decide
  exact all threads (List.mem_of_getElem? here) calls (List.mem_of_getElem? there)

end AibomWebhook.OutputLock
