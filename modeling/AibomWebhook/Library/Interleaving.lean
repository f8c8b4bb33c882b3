import AibomWebhook.Library.Program

/-! Many programs against one service, one request at a time in any order, while
others change the service's state as well. A world keeps all earlier states, so
that a program can be started on something seen long ago. -/

namespace Requests

/-- A program under way: on whose behalf it runs, what it was answered, what is left. -/
structure Thread (I : Interface) (σ ω : Type) where
  owner : ω
  past : List (Served I σ)
  rest : Program I Unit

structure World (I : Interface) (σ ω : Type) where
  shared : σ
  history : List σ
  threads : List (Thread I σ ω)

/-- All states so far, oldest first. -/
def World.states {I : Interface} {σ ω : Type} (world : World I σ ω) : List σ := world.history ++ [world.shared]

def World.initial {I : Interface} {σ : Type} (ω : Type) (shared : σ) : World I σ ω where
  shared := shared
  history := []
  threads := []

inductive Move (α δ κ : Type) where
  | spawn (label : α)
  | act (deed : δ)
  | serve (thread : Nat) (circumstance : κ)

/-- What may be started after a history of states, what others do, and how the
service answers under given circumstances. -/
structure System (I : Interface) (σ ω α δ κ : Type) where
  resolve : List σ → α → Option ω
  program : ω → Program I Unit
  act : δ → σ → σ
  serve : κ → σ → (request : I.Request) → I.Response request × σ

/-- What is found in a list after one place was overwritten: the new value, or another of
the old ones, where no two are of one key. -/
theorem mem_set_cases {α β : Type} {key : α → β} {list : List α} {index : Nat} {old new other : α}
    (apart : (list.map key).Nodup) (found : list[index]? = some old) (member : other ∈ list.set index new) :
    other = new ∨ (other ∈ list ∧ key other ≠ key old) := by
  obtain ⟨place, here⟩ := List.mem_iff_getElem?.mp member
  have inside := (List.getElem?_eq_some_iff.mp found).1
  by_cases same : index = place
  · subst same
    rw [List.getElem?_set_self inside] at here
    exact Or.inl (Option.some.inj here).symm
  · rw [List.getElem?_set_ne same] at here
    obtain ⟨within, rfl⟩ := List.getElem?_eq_some_iff.mp here
    refine Or.inr ⟨List.getElem_mem within, fun clash => same ?_⟩
    refine (List.getElem?_inj (by simpa using inside) apart).mp ?_
    rw [List.getElem?_map, List.getElem?_map, found, List.getElem?_eq_getElem within]
    exact congrArg some clash.symm

theorem mem_set_of_mem {α : Type} {list : List α} {index : Nat} {old other : α} (found : list[index]? = some old)
    (member : other ∈ list) (new : α) : other = old ∨ other ∈ list.set index new := by
  obtain ⟨place, here⟩ := List.mem_iff_getElem?.mp member
  by_cases same : index = place
  · subst same
    exact Or.inl (Option.some.inj (here.symm.trans found))
  · refine Or.inr (List.mem_iff_getElem?.mpr ⟨place, ?_⟩)
    rw [List.getElem?_set_ne same, here]

theorem map_set_of_key {α β : Type} {key : α → β} {list : List α} {index : Nat} {old new : α}
    (found : list[index]? = some old) (same : key new = key old) : (list.set index new).map key = list.map key := by
  have here : (list.map key)[index]? = some (key old) := by rw [List.getElem?_map, found, Option.map_some]
  obtain ⟨inside, value⟩ := List.getElem?_eq_some_iff.mp here
  rw [List.map_set, same, ← value, List.set_getElem_self]

namespace System
variable {I : Interface} {σ ω α δ κ : Type} (sys : System I σ ω α δ κ)

def started (owner : ω) : Thread I σ ω := { owner := owner, past := [], rest := sys.program owner }

/-- A thread whose next request is answered. -/
def advance (circumstance : κ) (world : World I σ ω) (thread : Thread I σ ω) : Option (Thread I σ ω × σ) :=
  match thread.rest with
  | .done _ => none
  | .call request next =>
    let answer := sys.serve circumstance world.shared request
    some ({ owner := thread.owner
            past := thread.past ++ [{ before := world.shared, request := request, response := answer.1 }]
            rest := next answer.1 }, answer.2)

def step (world : World I σ ω) : Move α δ κ → Option (World I σ ω)
  | .spawn label => (sys.resolve world.states label).map fun owner =>
    { world with threads := world.threads ++ [sys.started owner] }
  | .act deed => some { world with shared := sys.act deed world.shared, history := world.states }
  | .serve index circumstance =>
    (world.threads[index]?).bind fun thread =>
      (sys.advance circumstance world thread).map fun (advanced, shared) =>
        { shared := shared, history := world.states, threads := world.threads.set index advanced }

/-- A run of checked moves, as far as they can be made. -/
def checkedRun (check : World I σ ω → Move α δ κ → Bool) (world : World I σ ω) :
    List (Move α δ κ) → Option (World I σ ω)
  | [] => some world
  | move :: rest =>
    if check world move then (sys.step world move).bind fun next => checkedRun check next rest else none

/-- A law of every move of a run, between the world it is made in and the one it leads
to. A move that cannot be made is passed over. -/
def Throughout (law : World I σ ω → Move α δ κ → World I σ ω → Prop) (world : World I σ ω) :
    List (Move α δ κ) → Prop
  | [] => True
  | move :: rest =>
    match sys.step world move with
    | none => Throughout law world rest
    | some next => law world move next ∧ Throughout law next rest

instance decidableThroughout (law : World I σ ω → Move α δ κ → World I σ ω → Prop)
    [∀ world move next, Decidable (law world move next)] (world : World I σ ω) :
    (moves : List (Move α δ κ)) → Decidable (sys.Throughout law world moves)
  | [] => inferInstanceAs (Decidable True)
  | move :: rest =>
    match moved : sys.step world move with
    | none =>
      have later := decidableThroughout law world rest
      decidable_of_iff (sys.Throughout law world rest) (by simp only [Throughout, moved])
    | some next =>
      have later := decidableThroughout law next rest
      decidable_of_iff (law world move next ∧ sys.Throughout law next rest) (by simp only [Throughout, moved])

/-- The worlds that permitted moves lead to. -/
inductive Reaches (permitted : World I σ ω → Move α δ κ → Prop) (start : World I σ ω) : World I σ ω → Prop where
  | start : Reaches permitted start start
  | step {world next : World I σ ω} {move : Move α δ κ} (reached : Reaches permitted start world)
      (allowed : permitted world move) (moved : sys.step world move = some next) : Reaches permitted start next

variable {sys}

/-- All that a move can do. -/
theorem step_cases {world next : World I σ ω} {move : Move α δ κ} (moved : sys.step world move = some next) :
    (∃ label owner, move = .spawn label ∧ sys.resolve world.states label = some owner ∧
      next = { world with threads := world.threads ++ [sys.started owner] }) ∨
    (∃ deed, move = .act deed ∧ next = { world with shared := sys.act deed world.shared, history := world.states }) ∨
    ∃ index circumstance thread request rest, move = .serve index circumstance ∧
      world.threads[index]? = some thread ∧ thread.rest = .call request rest ∧
      next = { shared := (sys.serve circumstance world.shared request).2
               history := world.states
               threads := world.threads.set index
                 { owner := thread.owner
                   past := thread.past ++ [{ before := world.shared, request := request
                                             response := (sys.serve circumstance world.shared request).1 }]
                   rest := rest (sys.serve circumstance world.shared request).1 } } := by
  cases move with
  | spawn label =>
    obtain ⟨owner, found, rfl⟩ := Option.map_eq_some_iff.mp moved
    exact Or.inl ⟨label, owner, rfl, found, rfl⟩
  | act deed => exact Or.inr (Or.inl ⟨deed, rfl, (Option.some.inj moved).symm⟩)
  | serve index circumstance =>
    obtain ⟨thread, found, advanced⟩ := Option.bind_eq_some_iff.mp moved
    obtain ⟨⟨later, shared⟩, answered, rfl⟩ := Option.map_eq_some_iff.mp advanced
    rcases rest : thread.rest with _ | ⟨request, next⟩
    · simp [advance, rest] at answered
    · simp only [advance, rest, Option.some.injEq, Prod.mk.injEq] at answered
      obtain ⟨rfl, rfl⟩ := answered
      exact Or.inr (Or.inr ⟨index, circumstance, thread, request, next, rfl, found, rest, rfl⟩)

theorem Throughout.mono {first second : World I σ ω → Move α δ κ → World I σ ω → Prop}
    (implies : ∀ world move next, first world move next → second world move next) {moves : List (Move α δ κ)}
    {world : World I σ ω} (holds : sys.Throughout first world moves) : sys.Throughout second world moves := by
  induction moves generalizing world with
  | nil => trivial
  | cons move rest ih =>
    cases moved : sys.step world move with
    | none =>
      simp only [Throughout, moved] at holds ⊢
      exact ih holds
    | some next =>
      simp only [Throughout, moved] at holds ⊢
      exact ⟨implies world move next holds.1, ih holds.2⟩

/-- Two laws that say the same of each move, as long as what the first keeps holds. -/
theorem throughout_iff {holds : World I σ ω → Prop} {first second : World I σ ω → Move α δ κ → World I σ ω → Prop}
    (each : ∀ world next move, holds world → sys.step world move = some next →
      (first world move next ↔ second world move next) ∧ (first world move next → holds next))
    (moves : List (Move α δ κ)) {world : World I σ ω} (now : holds world) :
    sys.Throughout first world moves ↔ sys.Throughout second world moves := by
  induction moves generalizing world with
  | nil => rfl
  | cons move rest ih =>
    cases moved : sys.step world move with
    | none =>
      simp only [Throughout, moved]
      exact ih now
    | some next =>
      obtain ⟨same, kept⟩ := each world next move now moved
      simp only [Throughout, moved]
      constructor
      · rintro ⟨here, later⟩
        exact ⟨same.mp here, (ih (kept here)).mp later⟩
      · rintro ⟨here, later⟩
        exact ⟨same.mpr here, (ih (kept (same.mpr here))).mpr later⟩

variable {permitted : World I σ ω → Move α δ κ → Prop} {start world : World I σ ω}

/-- What holds at the start and is kept by permitted moves holds of every world reached. -/
theorem Reaches.invariant {holds : World I σ ω → Prop} (initial : holds start)
    (kept : ∀ world next move, sys.Reaches permitted start world → holds world → permitted world move →
      sys.step world move = some next → holds next)
    (reached : sys.Reaches permitted start world) : holds world := by
  induction reached with
  | start => exact initial
  | step reached allowed moved ih => exact kept _ _ _ reached ih allowed moved

theorem Reaches.mono {weaker : World I σ ω → Move α δ κ → Prop} (reached : sys.Reaches permitted start world)
    (implies : ∀ world move, permitted world move → weaker world move) : sys.Reaches weaker start world := by
  induction reached with
  | start => exact .start
  | step _ allowed moved ih => exact .step ih (implies _ _ allowed) moved

theorem Reaches.trans {middle : World I σ ω} (first : sys.Reaches permitted start middle)
    (second : sys.Reaches permitted middle world) : sys.Reaches permitted start world := by
  induction second with
  | start => exact first
  | step _ allowed moved ih => exact .step ih allowed moved

/-- A checked run, where the check only lets permitted moves through. -/
theorem reaches_of_checkedRun {check : World I σ ω → Move α δ κ → Bool} {moves : List (Move α δ κ)}
    (sound : ∀ world move, check world move = true → permitted world move)
    (ran : sys.checkedRun check start moves = some world) : sys.Reaches permitted start world := by
  induction moves generalizing start with
  | nil =>
    obtain rfl := Option.some.inj ran
    exact .start
  | cons move rest ih =>
    simp only [checkedRun] at ran
    split at ran
    · rename_i checked
      obtain ⟨next, moved, later⟩ := Option.bind_eq_some_iff.mp ran
      exact (Reaches.step .start (sound start move checked) moved).trans (ih later)
    · exact absurd ran (by simp)

theorem serve_step {index : Nat} {thread : Thread I σ ω} {request : I.Request}
    {rest : I.Response request → Program I Unit} (found : world.threads[index]? = some thread)
    (calls : thread.rest = .call request rest) (circumstance : κ) :
    ∃ next, sys.step world (.serve index circumstance) = some next ∧
      next.shared = (sys.serve circumstance world.shared request).2 := by
  simp [step, advance, found, calls]

section Alone
variable (allowed : ∀ world circumstance, permitted world (.serve 0 circumstance))
include allowed

/-- The only thread of a world is served so many times. -/
theorem reaches_after (circumstances : List κ) {thread : Thread I σ ω} (single : world.threads = [thread]) :
    ∃ next past, sys.Reaches permitted world next ∧
      next.threads = [{ owner := thread.owner, past := past
                        rest := (thread.rest.after sys.serve circumstances world.shared).1 }] ∧
      next.shared = (thread.rest.after sys.serve circumstances world.shared).2 := by
  induction circumstances generalizing world thread with
  | nil => exact ⟨world, thread.past, .start, single, rfl⟩
  | cons circumstance later ih =>
    obtain ⟨owner, past, rest⟩ := thread
    cases rest with
    | done value => exact ⟨world, past, .start, single, rfl⟩
    | call request more =>
      let served : World I σ ω := {
        shared := (sys.serve circumstance world.shared request).2
        history := world.states
        threads := [{ owner := owner
                      past := past ++ [{ before := world.shared, request := request
                                         response := (sys.serve circumstance world.shared request).1 }]
                      rest := more (sys.serve circumstance world.shared request).1 }] }
      have moved : sys.step world (.serve 0 circumstance) = some served := by
        simp [step, advance, single, served]
      obtain ⟨next, past, reached, threads, shared⟩ := @ih served _ rfl
      exact ⟨next, past, (Reaches.step .start (allowed world circumstance) moved).trans reached, threads, shared⟩

/-- A program is started on its own and served so many times. -/
theorem reaches_alone (fresh : start.threads = []) {label : α} {owner : ω}
    (resolved : sys.resolve start.states label = some owner) (may : permitted start (.spawn label))
    (circumstances : List κ) : ∃ world past, sys.Reaches permitted start world ∧
      world.threads = [{ owner := owner, past := past
                         rest := ((sys.program owner).after sys.serve circumstances start.shared).1 }] ∧
      world.shared = ((sys.program owner).after sys.serve circumstances start.shared).2 := by
  let begun : World I σ ω := { start with threads := [sys.started owner] }
  have moved : sys.step start (.spawn label) = some begun := by
    simp [step, resolved, fresh, begun]
  have single : begun.threads = [sys.started owner] := rfl
  obtain ⟨world, past, reached, threads, shared⟩ := reaches_after allowed circumstances single
  exact ⟨world, past, (Reaches.step .start may moved).trans reached, threads, shared⟩

end Alone

/-- Every answer that a permitted move gives satisfies the contract. -/
def Answers (sys : System I σ ω α δ κ) (permitted : World I σ ω → Move α δ κ → Prop)
    (answers : σ → (request : I.Request) → I.Response request → Prop) : Prop :=
  ∀ world index circumstance thread request rest, permitted world (.serve index circumstance) →
    world.threads[index]? = some thread → thread.rest = .call request rest →
    answers world.shared request (sys.serve circumstance world.shared request).1

section Threads
variable (fresh : start.threads = [])
include fresh

/-- A property of a thread in a world: it holds of a new thread, and is kept both when
the thread is served and when others move. -/
theorem Reaches.thread_invariant (holds : World I σ ω → Thread I σ ω → Prop)
    (spawned : ∀ world next label owner, sys.Reaches permitted start world → permitted world (.spawn label) →
      sys.resolve world.states label = some owner → sys.step world (.spawn label) = some next →
      holds next (sys.started owner))
    (stable : ∀ world next move thread, sys.Reaches permitted start world → permitted world move →
      sys.step world move = some next → thread ∈ world.threads → holds world thread → holds next thread)
    (served : ∀ world next index circumstance thread request rest, sys.Reaches permitted start world →
      permitted world (.serve index circumstance) → world.threads[index]? = some thread →
      thread.rest = .call request rest → sys.step world (.serve index circumstance) = some next →
      holds world thread → holds next
        { owner := thread.owner
          past := thread.past ++ [{ before := world.shared, request := request
                                    response := (sys.serve circumstance world.shared request).1 }]
          rest := rest (sys.serve circumstance world.shared request).1 })
    (reached : sys.Reaches permitted start world) : ∀ thread ∈ world.threads, holds world thread := by
  induction reached with
  | start => simp [fresh]
  | @step world next move reached allowed moved ih =>
    intro thread member
    have old : thread ∈ world.threads → holds next thread := fun present =>
      stable world next move thread reached allowed moved present (ih thread present)
    rcases step_cases moved with ⟨label, owner, rfl, found, rfl⟩ | ⟨deed, rfl, rfl⟩ |
      ⟨index, circumstance, served, request, rest, rfl, found, calls, rfl⟩
    · rcases List.mem_append.mp member with present | new
      · exact old present
      · obtain rfl := List.mem_singleton.mp new
        exact spawned world _ label owner reached allowed found moved
    · exact old member
    · rcases List.mem_or_eq_of_mem_set member with present | rfl
      · exact old present
      · rename_i advances
        exact advances world _ index circumstance served request rest reached allowed found calls moved
          (ih served (List.mem_of_getElem? found))

/-- What each program guarantees on its own it guarantees among all others. -/
theorem Reaches.meets {answers : σ → (request : I.Request) → I.Response request → Prop}
    {guarantee : ω → List (Served I σ) → I.Request → Prop} (law : sys.Answers permitted answers)
    (each : ∀ owner, (sys.program owner).Meets answers (guarantee owner) (fun _ _ => True) [])
    (reached : sys.Reaches permitted start world) :
    ∀ thread ∈ world.threads,
      thread.rest.Meets answers (guarantee thread.owner) (fun _ _ => True) thread.past := by
  refine Reaches.thread_invariant fresh
    (fun _ thread => thread.rest.Meets answers (guarantee thread.owner) (fun _ _ => True) thread.past)
    (fun _ _ _ owner _ _ _ _ => each owner) (fun _ _ _ _ _ _ _ _ meets => meets) ?_ reached
  intro world _ index circumstance thread request rest _ allowed found calls _ meets
  rw [calls] at meets
  exact meets.2 world.shared _ (law world index circumstance thread request rest allowed found calls)

/-- What is left of a thread is what its answers leave of its owner's program. -/
theorem Reaches.answered (reached : sys.Reaches permitted start world) :
    ∀ thread ∈ world.threads, (sys.program thread.owner).Answered thread.past thread.rest := by
  refine Reaches.thread_invariant fresh (fun _ thread => (sys.program thread.owner).Answered thread.past thread.rest)
    (fun _ _ _ owner _ _ _ _ => .nil _) (fun _ _ _ _ _ _ _ _ answered => answered) ?_ reached
  intro world _ index circumstance thread request rest _ _ _ calls _ answered
  rw [calls] at answered
  exact answered.step world.shared _

/-- The requests that its owner may send are those that a thread has sent and will send. -/
theorem Reaches.uses {allowed : ω → I.Request → Prop} (each : ∀ owner, (sys.program owner).Uses (allowed owner))
    (reached : sys.Reaches permitted start world) :
    ∀ thread ∈ world.threads, (∀ entry ∈ thread.past, allowed thread.owner entry.request) ∧
      thread.rest.Uses (allowed thread.owner) := by
  refine Reaches.thread_invariant fresh (fun _ thread => (∀ entry ∈ thread.past, allowed thread.owner entry.request) ∧
      thread.rest.Uses (allowed thread.owner)) (fun _ _ _ owner _ _ _ _ => ⟨by simp [started], each owner⟩)
    (fun _ _ _ _ _ _ _ _ uses => uses) ?_ reached
  intro world _ index circumstance thread request rest _ _ _ calls _ uses
  rw [calls] at uses
  refine ⟨fun entry member => ?_, uses.2.2 _⟩
  rcases List.mem_append.mp member with earlier | last
  · exact uses.1 entry earlier
  · obtain rfl := List.mem_singleton.mp last
    exact uses.2.1

/-- The same of a service whose answers are legal, and of owners that may be started. -/
theorem Reaches.sends {legal : (request : I.Request) → I.Response request → Prop} {admitted : ω → Prop}
    {allowed : ω → I.Request → Prop}
    (law : ∀ circumstance state request, legal request (sys.serve circumstance state request).1)
    (admits : ∀ world label owner, permitted world (.spawn label) → sys.resolve world.states label = some owner →
      admitted owner)
    (each : ∀ owner, admitted owner → (sys.program owner).Sends legal (allowed owner))
    (reached : sys.Reaches permitted start world) :
    ∀ thread ∈ world.threads, admitted thread.owner ∧ (∀ entry ∈ thread.past, allowed thread.owner entry.request) ∧
      thread.rest.Sends legal (allowed thread.owner) := by
  refine Reaches.thread_invariant fresh (fun _ thread => admitted thread.owner ∧
      (∀ entry ∈ thread.past, allowed thread.owner entry.request) ∧ thread.rest.Sends legal (allowed thread.owner)) ?_
    (fun _ _ _ _ _ _ _ _ sends => sends) ?_ reached
  · intro world _ label owner _ allowed found _
    have may := admits world label owner allowed found
    exact ⟨may, by simp [started], each owner may⟩
  · intro world _ index circumstance thread request rest _ _ _ calls _ ⟨may, past, sends⟩
    rw [calls] at sends
    refine ⟨may, fun entry member => ?_, sends.2 _ (law circumstance world.shared request)⟩
    rcases List.mem_append.mp member with earlier | last
    · exact past entry earlier
    · obtain rfl := List.mem_singleton.mp last
      exact sends.1

end Threads

end System

end Requests
