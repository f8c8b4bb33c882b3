import AibomWebhook.Library.Steps

/-! The hooks that run once a framework has been imported (scripts/aibom-scripts/runtime_detector.py,
`_PostImportHookFinder`), with lookups and executions of modules in any order and in any number of threads. -/

namespace AibomWebhook.PostImportHooks
open Steps

/-- The keys of `_LAZY_TRIGGERS`. -/
structure Triggers (Name : Type) where
  names : List Name
  nodup : names.Nodup

/-- A module under execution by the `exec_module` of a loader: the wrappers around it that have yet to end, the
innermost first, each by its `fullname`, and whether the finder returned its spec. -/
structure Execution (Name Loader : Type) where
  name : Name
  loader : Loader
  wrappers : List Name
  given : Bool
  deriving DecidableEq

/-- Where the innermost of these wrappers is once the method that it wraps has ended. -/
inductive Phase where
  | restoring
  | claiming
  | hooking
  deriving DecidableEq

/-- A call: what `dunder` has is the module's `__name__` at its end. -/
inductive Frame (Name Loader : Type) where
  /-- `install_hooks_lazy`, with the modules that were imported before. -/
  | installing (already : List Name) (phase : Phase)
  | finding (name : Name)
  | wrapping (name : Name) (loader : Loader) (origExec : List Name)
  | executing (execution : Execution Name Loader)
  | leaving (execution : Execution Name Loader) (dunder : Option Name) (raised : Bool) (phase : Phase)
  deriving DecidableEq

/-- Code that is not the finder's runs, which may look up and execute modules. -/
def Frame.calls {Name Loader : Type} : Frame Name Loader → Bool
  | .installing _ .hooking => true
  | .finding _ => true
  | .executing _ => true
  | .leaving _ _ _ .hooking => true
  | _ => false

/-- What all threads share. For each loader the wrappers on it, the outermost first: none if it has the method of its
class. -/
structure Shared (Name Loader : Type) where
  pending : List Name
  installed : Bool
  execModule : Loader → List Name
  specs : List (Name × Loader)
  started : List Name
  finished : List Name
  completed : List Name

/-- For each thread its calls, the innermost first. -/
structure State (Name Loader : Type) where
  shared : Shared Name Loader
  threads : List (List (Frame Name Loader))

inductive Action (Name Loader : Type) where
  /-- `find_spec` is called. -/
  | findSpec (name : Name)
  /-- The other finders have found a loader, or no spec with one. -/
  | resolve (loader : Option Loader)
  | wrap
  | execute (name : Name) (loader : Loader)
  | finish (dunder : Option Name) (raised : Bool)
  | restore
  | claim
  | hooked
  | return

inductive Move (Name Loader : Type) where
  | spawn
  | act (thread : Nat) (action : Action Name Loader)

section
variable {Name Loader : Type}

/-- A wrapper has ended. -/
def Execution.outer (execution : Execution Name Loader) : Execution Name Loader :=
  { execution with wrappers := execution.wrappers.tail }

/-- No hook has run twice, and the finder is gone once all have. -/
structure Once (triggers : Triggers Name) (shared : Shared Name Loader) : Prop where
  once : shared.started.Nodup
  removed : (∀ name ∈ triggers.names, name ∈ shared.started) → shared.installed = false

/-- A module that was executed has its hook. -/
def Hooked (shared : Shared Name Loader) : Prop := ∀ name ∈ shared.completed, name ∈ shared.finished

/-- What `_claim` keeps. -/
structure Ledger (triggers : Triggers Name) (shared : Shared Name Loader) : Prop where
  nodup : shared.pending.Nodup
  known : ∀ name ∈ shared.pending, name ∈ triggers.names
  once : shared.started.Nodup
  apart : ∀ name ∈ shared.started, name ∉ shared.pending
  installed : shared.installed = true → shared.pending ≠ []

variable {triggers : Triggers Name} {shared next : Shared Name Loader}

theorem Ledger.toOnce (ledger : Ledger triggers shared) : Once triggers shared where
  once := ledger.once
  removed := by
    intro all
    have none : shared.pending = [] := by
      rw [List.eq_nil_iff_forall_not_mem]
      intro name pending
      exact ledger.apart name (all name (ledger.known name pending)) pending
    rw [Bool.eq_false_iff]
    intro installed
    exact ledger.installed installed none

theorem Ledger.of_same (ledger : Ledger triggers shared) (pending : next.pending = shared.pending)
    (installed : next.installed = shared.installed) (started : next.started = shared.started) :
    Ledger triggers next where
  nodup := pending ▸ ledger.nodup
  known := pending ▸ ledger.known
  once := started ▸ ledger.once
  apart := by
    rw [pending, started]
    exact ledger.apart
  installed := by
    rw [pending, installed]
    exact ledger.installed

/-- An execution that ends well has run the hook, or has yet to come to its wrapper. -/
def Frame.Owes (finished : List Name) : Frame Name Loader → Prop
  | .executing execution => execution.given = true → execution.name ∈ finished ∨ execution.name ∈ execution.wrappers
  | .leaving execution dunder raised _ => execution.given = true → raised = false →
    execution.name ∈ finished ∨ execution.name ∈ execution.wrappers ∧ dunder = some execution.name
  | _ => True

theorem Frame.Owes.mono {finished later : List Name} (sub : finished ⊆ later) {frame : Frame Name Loader}
    (owes : frame.Owes finished) : frame.Owes later := by
  cases frame with
  | executing execution => exact fun given => (owes given).imp_left fun ran => sub ran
  | leaving execution dunder raised phase => exact fun given well => (owes given well).imp_left fun ran => sub ran
  | _ => trivial

/-- The wrapper that ends is of another module, or its hook has run. -/
theorem Frame.Owes.outer {finished : List Name} {execution : Execution Name Loader} {dunder : Option Name}
    {raised : Bool} {phase next : Phase} {fullname : Name} {outer : List Name} (wraps : execution.wrappers = fullname :: outer)
    (owes : (Frame.leaving execution dunder raised phase).Owes finished)
    (ran : execution.given = true → raised = false → execution.name = fullname → execution.name ∈ finished) :
    (Frame.leaving execution.outer dunder raised next).Owes finished := by
  intro given well
  rcases owes given well with done | ⟨wrapped, named⟩
  · exact Or.inl done
  · rw [wraps] at wrapped
    rcases List.mem_cons.mp wrapped with same | wrapped
    · exact Or.inl (ran given well same)
    · refine Or.inr ⟨?_, named⟩
      simpa [Execution.outer, wraps] using wrapped

end

section
variable {Name Loader : Type} [DecidableEq Name] [DecidableEq Loader]

namespace Shared
variable (shared : Shared Name Loader)

/-- `_claim`: whether the hook is pending, and what is left. -/
def claim (name : Name) : Bool × Shared Name Loader :=
  let pending := shared.pending.erase name
  (name ∈ shared.pending, { shared with
    pending
    installed := shared.installed && pending ≠ []
    started := if name ∈ shared.pending then name :: shared.started else shared.started })

def setExecModule (loader : Loader) (wrappers : List Name) : Shared Name Loader :=
  { shared with execModule := Function.update shared.execModule loader wrappers }

def giveSpec (name : Name) (loader : Loader) : Shared Name Loader := { shared with specs := (name, loader) :: shared.specs }

def finishHook (name : Name) : Shared Name Loader := { shared with finished := name :: shared.finished }

def complete (name : Name) : Shared Name Loader := { shared with completed := name :: shared.completed }

end Shared

/-- Whether a thread runs code that may look up or execute a module. -/
def ready (calls : List (Frame Name Loader)) : Bool := (calls.head?.map Frame.calls).getD true

-- whether `exec_module` of a loader can be set
variable (wrappable : Loader → Bool)

def advance (shared : Shared Name Loader) : List (Frame Name Loader) → Action Name Loader →
    Option (Shared Name Loader × List (Frame Name Loader))
  | calls, .findSpec name =>
    if ready calls then
      some (shared, if name ∈ shared.pending ∧ .finding name ∉ calls then .finding name :: calls else calls)
    else none
  | .finding _ :: below, .resolve none => some (shared, below)
  | .finding name :: below, .resolve (some loader) =>
    if wrappable loader then some (shared, .wrapping name loader (shared.execModule loader) :: below)
    else some (shared.giveSpec name loader, below)
  | .wrapping name loader origExec :: below, .wrap =>
    some ((shared.setExecModule loader (name :: origExec)).giveSpec name loader, below)
  | calls, .execute name loader =>
    if ready calls then
      some (shared, .executing {
        name, loader, wrappers := (shared.execModule loader).reverse, given := (name, loader) ∈ shared.specs } :: calls)
    else none
  | .executing execution :: below, .finish dunder raised =>
    some (shared, .leaving execution dunder raised .restoring :: below)
  | .leaving execution dunder raised .restoring :: below, .restore =>
    match execution.wrappers with
    | [] => none
    | fullname :: _ =>
      let shared := if dunder = some fullname then shared.setExecModule execution.loader [] else shared
      if dunder = some fullname ∧ ¬raised then some (shared, .leaving execution dunder raised .claiming :: below)
      else some (shared, .leaving execution.outer dunder raised .restoring :: below)
  | .leaving execution dunder raised .claiming :: below, .claim =>
    match execution.wrappers with
    | [] => none
    | fullname :: _ =>
      let (claimed, shared) := shared.claim fullname
      if claimed then some (shared, .leaving execution dunder raised .hooking :: below)
      else some (shared, .leaving execution.outer dunder raised .restoring :: below)
  | .leaving execution dunder raised .hooking :: below, .hooked =>
    match execution.wrappers with
    | [] => none
    | fullname :: _ => some (shared.finishHook fullname, .leaving execution.outer dunder raised .restoring :: below)
  | .leaving execution _ raised .restoring :: below, .return =>
    match execution.wrappers with
    | [] => some (if execution.given ∧ ¬raised then shared.complete execution.name else shared, below)
    | _ :: _ => none
  | .installing (name :: already) .claiming :: below, .claim =>
    let (claimed, shared) := shared.claim name
    if claimed then some (shared, .installing (name :: already) .hooking :: below)
    else some (shared, .installing already .claiming :: below)
  | .installing (name :: already) .hooking :: below, .hooked =>
    some (shared.finishHook name, .installing already .claiming :: below)
  | .installing [] .claiming :: below, .return => some (shared, below)
  | _, _ => none

def step (state : State Name Loader) : Move Name Loader → Option (State Name Loader)
  | .spawn => some { state with threads := state.threads ++ [[]] }
  | .act thread action => (state.threads[thread]?).bind fun calls =>
    (advance wrappable state.shared calls action).map fun (shared, calls) =>
      { shared, threads := state.threads.set thread calls }

/-- `install_hooks_lazy` begins. -/
def start (triggers : Triggers Name) (already : Name → Bool) : State Name Loader where
  shared :=
    { pending := triggers.names
      installed := (triggers.names.filter already).length < triggers.names.length
      execModule := fun _ => []
      specs := []
      started := []
      finished := []
      completed := [] }
  threads := [[.installing (triggers.names.filter already) .claiming]]

/-! The property. -/

/-- An execution through a spec of the finder begins while the loader has the wrapper for its module, a module that
ends well still has its name, and its hook is not under way for another execution of it. -/
def Attached (shared : Shared Name Loader) : List (Frame Name Loader) → Action Name Loader → Prop
  | _, .execute name loader => (name, loader) ∈ shared.specs → name ∈ shared.finished ∨ name ∈ shared.execModule loader
  | .executing execution :: _, .finish dunder raised =>
    execution.given = true → raised = false → dunder = some execution.name
  | .leaving execution _ _ .claiming :: _, .claim =>
    execution.wrappers.head? = some execution.name → execution.name ∈ shared.pending ∨ execution.name ∈ shared.finished
  | _, _ => True

instance decidableAttached (shared : Shared Name Loader) (calls : List (Frame Name Loader))
    (action : Action Name Loader) : Decidable (Attached shared calls action) := by
  unfold Attached
  split <;> infer_instance

def Permitted (state : State Name Loader) : Move Name Loader → Prop
  | .spawn => True
  | .act thread action =>
    match state.threads[thread]? with
    | some calls => Attached state.shared calls action
    | none => True

instance decidablePermitted (state : State Name Loader) (move : Move Name Loader) : Decidable (Permitted state move) := by
  unfold Permitted
  split
  · infer_instance
  · split <;> infer_instance

/-! The hooks that are left. -/

variable {wrappable} {shared next : Shared Name Loader} {calls left : List (Frame Name Loader)}
  {action : Action Name Loader} {triggers : Triggers Name}

omit [DecidableEq Loader] in
theorem Ledger.claim (ledger : Ledger triggers shared) (name : Name) : Ledger triggers (shared.claim name).2 where
  nodup := ledger.nodup.erase name
  known := fun other pending => ledger.known other (List.mem_of_mem_erase pending)
  once := by
    simp only [Shared.claim]
    split
    · rename_i pending
      exact List.nodup_cons.mpr ⟨fun started => ledger.apart name started pending, ledger.once⟩
    · exact ledger.once
  apart := by
    intro other started pending
    simp only [Shared.claim] at started pending
    have before := List.mem_of_mem_erase pending
    split at started
    · rcases List.mem_cons.mp started with rfl | started
      · exact ledger.nodup.not_mem_erase pending
      · exact ledger.apart other started before
    · exact ledger.apart other started before
  installed := by
    intro installed
    simp only [Shared.claim, Bool.and_eq_true, decide_eq_true_eq] at installed
    exact installed.2

/-- Only `_claim` changes the ledger. -/
theorem advance_ledger (ledger : Ledger triggers shared) (moved : advance wrappable shared calls action = some (next, left)) :
    Ledger triggers next := by
  have claims {name : Name} {claimed : Bool} (claim : shared.claim name = (claimed, next)) : Ledger triggers next := by
    have kept := ledger.claim name
    rwa [claim] at kept
  revert moved
  fun_cases advance <;> intro moved <;> simp only [reduceCtorEq, Option.some.injEq, Prod.mk.injEq] at moved
  all_goals obtain ⟨rfl, -⟩ := moved
  -- `_claim`, of a wrapper and of `install_hooks_lazy`
  case case14 | case15 | case20 | case21 => exact claims ‹_›
  -- a wrapper takes itself off, or leaves it
  case case11 | case12 =>
    rename_i after _
    unfold after
    split <;> exact ledger.of_same rfl rfl rfl
  -- the execution counts or it does not
  case case18 => split <;> exact ledger.of_same rfl rfl rfl
  all_goals exact ledger.of_same rfl rfl rfl

omit [DecidableEq Name] [DecidableEq Loader] in
theorem start_ledger (triggers : Triggers Name) (already : Name → Bool) :
    Ledger triggers (start triggers already : State Name Loader).shared where
  nodup := triggers.nodup
  known := fun _ pending => pending
  once := List.nodup_nil
  apart := by simp [start]
  installed := by
    intro installed none
    simp only [start, decide_eq_true_eq] at installed none
    rw [none] at installed
    exact absurd installed (by simp)

/-! The executions that are under way. -/

omit [DecidableEq Loader] in
theorem claim_kept {name : Name} {claimed : Bool} (claim : shared.claim name = (claimed, next)) :
    next.finished = shared.finished ∧ next.completed = shared.completed ∧ (claimed = true ↔ name ∈ shared.pending) := by
  obtain ⟨rfl, rfl⟩ := Prod.mk.inj claim
  exact ⟨rfl, rfl, decide_eq_true_iff⟩

/-- What is owed stays owed, or is paid. -/
theorem advance_settled (owes : ∀ frame ∈ calls, frame.Owes shared.finished) (hooked : Hooked shared)
    (attached : Attached shared calls action) (moved : advance wrappable shared calls action = some (next, left)) :
    (∀ frame ∈ left, frame.Owes next.finished) ∧ Hooked next ∧ shared.finished ⊆ next.finished := by
  have below {top : Frame Name Loader} {rest : List (Frame Name Loader)} {finished : List Name}
      (new : top.Owes finished) (old : ∀ frame ∈ rest, frame.Owes finished) :
      ∀ frame ∈ top :: rest, frame.Owes finished := List.forall_mem_cons.mpr ⟨new, old⟩
  revert moved owes attached
  fun_cases advance <;> intro owes attached moved <;>
    simp only [reduceCtorEq, Option.some.injEq, Prod.mk.injEq] at moved
  all_goals obtain ⟨rfl, rfl⟩ := moved
  case case1 =>
    refine ⟨?_, hooked, List.Subset.refl _⟩
    split
    · exact below trivial owes
    · exact owes
  case case3 | case5 | case6 | case23 => exact ⟨(List.forall_mem_cons.mp owes).2, hooked, List.Subset.refl _⟩
  case case4 => exact ⟨below trivial (List.forall_mem_cons.mp owes).2, hooked, List.Subset.refl _⟩
  case case7 =>
    refine ⟨below ?_ owes, hooked, List.Subset.refl _⟩
    intro given
    simp only [List.mem_reverse]
    exact attached (by simpa using given)
  case case9 =>
    refine ⟨below ?_ (List.forall_mem_cons.mp owes).2, hooked, List.Subset.refl _⟩
    intro given well
    have owed := (List.forall_mem_cons.mp owes).1 given
    exact owed.imp_right fun wrapped => ⟨wrapped, attached given well⟩
  case case11 execution dunder raised rest fullname _ wraps after ends =>
    have same : after.finished = shared.finished ∧ after.completed = shared.completed := by
      unfold after
      split <;> exact ⟨rfl, rfl⟩
    obtain ⟨top, rest⟩ := List.forall_mem_cons.mp owes
    rw [Hooked, same.1, same.2]
    exact ⟨below top rest, hooked, List.Subset.refl _⟩
  case case12 execution dunder raised rest fullname _ wraps after ends =>
    have same : after.finished = shared.finished ∧ after.completed = shared.completed := by
      unfold after
      split <;> exact ⟨rfl, rfl⟩
    obtain ⟨top, rest⟩ := List.forall_mem_cons.mp owes
    rw [Hooked, same.1, same.2]
    refine ⟨below (top.outer wraps fun given well match' => ?_) rest, hooked, List.Subset.refl _⟩
    rcases top given well with ran | ⟨-, named⟩
    · exact ran
    · exact absurd ⟨match' ▸ named, by simp [well]⟩ ends
  case case14 execution dunder raised rest fullname _ wraps after claim =>
    obtain ⟨finished, completed, -⟩ := claim_kept claim
    obtain ⟨top, rest⟩ := List.forall_mem_cons.mp owes
    rw [Hooked, finished, completed]
    exact ⟨below top rest, hooked, List.Subset.refl _⟩
  case case15 execution dunder raised rest fullname _ wraps claimed after claim unclaimed =>
    obtain ⟨finished, completed, pending⟩ := claim_kept claim
    obtain ⟨top, rest⟩ := List.forall_mem_cons.mp owes
    rw [Hooked, finished, completed]
    refine ⟨below (top.outer wraps fun _ _ same => ?_) rest, hooked, List.Subset.refl _⟩
    rcases attached (by rw [wraps, same]; rfl) with waits | ran
    · exact absurd (pending.mpr (same ▸ waits)) unclaimed
    · exact ran
  case case17 execution dunder raised rest fullname _ wraps =>
    obtain ⟨top, rest⟩ := List.forall_mem_cons.mp owes
    have more : shared.finished ⊆ (shared.finishHook fullname).finished := List.subset_cons_self _ _
    refine ⟨below ((top.mono more).outer wraps fun _ _ same => ?_) fun frame inside => (rest frame inside).mono more,
      fun name done => more (hooked name done), more⟩
    rw [same]
    exact List.mem_cons_self
  case case18 execution dunder raised rest wraps =>
    obtain ⟨top, rest⟩ := List.forall_mem_cons.mp owes
    split
    · rename_i ends
      refine ⟨rest, ?_, List.Subset.refl _⟩
      intro name done
      rcases List.mem_cons.mp done with rfl | done
      · rcases top ends.1 (by simpa using ends.2) with ran | ⟨wrapped, -⟩
        · exact ran
        · rw [wraps] at wrapped
          exact absurd wrapped List.not_mem_nil
      · exact hooked name done
    · exact ⟨rest, hooked, List.Subset.refl _⟩
  case case20 name already rest after claim =>
    obtain ⟨finished, completed, -⟩ := claim_kept claim
    rw [Hooked, finished, completed]
    exact ⟨below trivial (List.forall_mem_cons.mp owes).2, hooked, List.Subset.refl _⟩
  case case21 name already rest claimed after claim unclaimed =>
    obtain ⟨finished, completed, -⟩ := claim_kept claim
    rw [Hooked, finished, completed]
    exact ⟨below trivial (List.forall_mem_cons.mp owes).2, hooked, List.Subset.refl _⟩
  case case22 name already rest =>
    have more : shared.finished ⊆ (shared.finishHook name).finished := List.subset_cons_self _ _
    exact ⟨below trivial fun frame inside => ((List.forall_mem_cons.mp owes).2 frame inside).mono more,
      fun name done => more (hooked name done), more⟩

/-! All threads together. -/

structure Settled (state : State Name Loader) : Prop where
  owes : ∀ calls ∈ state.threads, ∀ frame ∈ calls, frame.Owes state.shared.finished
  hooked : Hooked state.shared

theorem step_ledger {state next : State Name Loader} {move : Move Name Loader} (ledger : Ledger triggers state.shared)
    (moved : step wrappable state move = some next) : Ledger triggers next.shared := by
  cases move with
  | spawn =>
    obtain rfl := Option.some.inj moved
    exact ledger
  | act thread action =>
    obtain ⟨calls, -, moved⟩ := Option.bind_eq_some_iff.mp moved
    obtain ⟨⟨shared, left⟩, advanced, rfl⟩ := Option.map_eq_some_iff.mp moved
    exact advance_ledger ledger advanced

theorem step_settled {state next : State Name Loader} {move : Move Name Loader} (settled : Settled state)
    (permitted : Permitted state move) (moved : step wrappable state move = some next) : Settled next := by
  cases move with
  | spawn =>
    obtain rfl := Option.some.inj moved
    refine ⟨fun calls inside => ?_, settled.hooked⟩
    rcases List.mem_append.mp inside with old | new
    · exact settled.owes calls old
    · rw [List.mem_singleton.mp new]
      simp
  | act thread action =>
    obtain ⟨calls, found, moved⟩ := Option.bind_eq_some_iff.mp moved
    obtain ⟨⟨shared, left⟩, advanced, rfl⟩ := Option.map_eq_some_iff.mp moved
    rw [Permitted, found] at permitted
    obtain ⟨owes, hooked, more⟩ :=
      advance_settled (settled.owes calls (List.mem_of_getElem? found)) settled.hooked permitted advanced
    refine ⟨fun other inside => ?_, hooked⟩
    rcases List.mem_or_eq_of_mem_set inside with old | rfl
    · exact fun frame present => (settled.owes other old frame present).mono more
    · exact owes

variable (wrappable) (triggers) (already : Name → Bool)

/-- In every run no hook runs twice and the finder goes once all have run. A module that was executed through a spec
of the finder has its hook if each such execution begins with its wrapper on the loader. -/
theorem hooks_fire :
    (∀ state : State Name Loader, Reaches (step wrappable) (fun _ _ => True) (start triggers already) state →
      Once triggers state.shared) ∧
    ∀ state : State Name Loader, Reaches (step wrappable) Permitted (start triggers already) state →
      Once triggers state.shared ∧ Hooked state.shared := by
  have ledger {permitted : State Name Loader → Move Name Loader → Prop} {state : State Name Loader}
      (reached : Reaches (step wrappable) permitted (start triggers already) state) : Ledger triggers state.shared :=
    reached.invariant (fun state => Ledger triggers state.shared) (start_ledger triggers already)
      fun _ _ _ kept _ moved => step_ledger kept moved
  have initial : Settled (start triggers already : State Name Loader) := by
    refine ⟨?_, by simp [Hooked, start]⟩
    simp [start, Frame.Owes]
  refine ⟨fun state reached => (ledger reached).toOnce, fun state reached => ⟨(ledger reached).toOnce, ?_⟩⟩
  have settled : Settled state :=
    reached.invariant Settled initial fun _ _ _ settled permitted moved => step_settled settled permitted moved
  exact settled.hooked

end

/-- Two of the frameworks. -/
def frameworks : Triggers String where
  names := ["peft", "torch"]
  nodup := by decide

/-- `torch` was imported before, `peft` is imported now. -/
def imports : List (Move String Unit) := [.claim, .hooked, .return, .findSpec "peft", .resolve (some ()), .wrap,
  .execute "peft" (), .finish (some "peft") false, .restore, .claim, .hooked, .return].map (.act 0)

theorem hooks_fire_on_import : ∃ state : State String Unit,
    Reaches (step fun _ => true) Permitted (start frameworks (· = "torch")) state ∧
    state.shared.completed = ["peft"] ∧ state.shared.started.Nodup ∧ "peft" ∈ state.shared.finished := by
  have ends : ((checkedRun (step fun _ => true) (fun state move => decide (Permitted state move))
      (start frameworks (· = "torch")) imports).map fun state => state.shared.completed) = some ["peft"] := by
    decide +kernel
  obtain ⟨state, ran, completed⟩ := Option.map_eq_some_iff.mp ends
  have reached := reaches_of_checkedRun (fun _ _ checked => of_decide_eq_true checked) ran
  obtain ⟨once, hooked⟩ := (hooks_fire (fun _ => true) frameworks (· = "torch")).2 state reached
  exact ⟨state, reached, completed, once.once, hooked "peft" (by rw [completed]; simp)⟩

/-- Two specs with one loader: the execution of the first takes the wrapper of the second off. -/
def sharedLoader : List (Move String Unit) := [.return, .findSpec "peft", .resolve (some ()), .wrap,
  .findSpec "torch", .resolve (some ()), .wrap, .execute "peft" (), .finish (some "peft") false, .restore, .claim,
  .hooked, .restore, .return, .execute "torch" (), .finish (some "torch") false, .return].map (.act 0)

theorem torch_missed : ((checkedRun (step fun _ => true) (fun _ _ => true) (start frameworks fun _ => false) sharedLoader).map
    fun state => (state.shared.completed, state.shared.finished)) = some (["torch", "peft"], ["peft"]) := by
  decide

theorem hook_missed : ¬∀ (wrappable : Unit → Bool) (triggers : Triggers String) (already : String → Bool)
    (state : State String Unit), Reaches (step wrappable) (fun _ _ => True) (start triggers already) state →
      Once triggers state.shared ∧ Hooked state.shared := by
  intro all
  obtain ⟨state, ran, result⟩ := Option.map_eq_some_iff.mp torch_missed
  obtain ⟨completed, finished⟩ := Prod.mk.inj result
  have reached := reaches_of_checkedRun (fun _ _ _ => trivial) ran
  have hooked := (all (fun _ => true) frameworks (fun _ => false) state reached).2 "torch" (by rw [completed]; simp)
  rw [finished] at hooked
  exact absurd hooked (by decide)

end AibomWebhook.PostImportHooks
