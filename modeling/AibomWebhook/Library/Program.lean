import Mathlib.Tactic.Common

/-! Programs that talk to a service by atomic requests. A program is the tree of
its requests and of what it does with each possible answer, so it can be run
against a service, constrained whatever the answers are, or stopped between two
requests while somebody else acts. -/

namespace Requests

/-- The requests of a service and the type of the answer to each. -/
structure Interface where
  Request : Type
  Response : Request → Type

inductive Program (I : Interface) (α : Type) where
  | done (value : α) : Program I α
  | call (request : I.Request) (next : I.Response request → Program I α) : Program I α

/-- A request that was answered, with the service's state just before it. -/
structure Served (I : Interface) (σ : Type) where
  before : σ
  request : I.Request
  response : I.Response request

namespace Program
variable {I : Interface} {σ α β γ : Type}

protected def bind : Program I α → (α → Program I β) → Program I β
  | .done value, rest => rest value
  | .call request next, rest => .call request (fun response => (next response).bind rest)

instance : Monad (Program I) where
  pure := .done
  bind := Program.bind

/-- Send one request and return its answer. -/
def send (request : I.Request) : Program I (I.Response request) := .call request .done

@[simp] theorem pure_eq (value : α) : (pure value : Program I α) = .done value := rfl

@[simp] theorem done_bind (value : α) (rest : α → Program I β) :
    (Program.done value >>= rest) = rest value := rfl

@[simp] theorem call_bind (request : I.Request) (next : I.Response request → Program I α)
    (rest : α → Program I β) :
    (Program.call request next >>= rest) = .call request (fun response => next response >>= rest) := rfl

@[simp] theorem send_bind (request : I.Request) (rest : I.Response request → Program I β) :
    (send request >>= rest) = .call request rest := rfl

private theorem bind_done (program : Program I α) : program.bind .done = program := by
  induction program with
  | done value => rfl
  | call request next ih => simp only [Program.bind, ih]

private theorem bind_assoc (program : Program I α) (first : α → Program I β) (second : β → Program I γ) :
    (program.bind first).bind second = program.bind (fun value => (first value).bind second) := by
  induction program with
  | done value => rfl
  | call request next ih => simp only [Program.bind, ih]

instance : LawfulMonad (Program I) :=
  LawfulMonad.mk' (Program I) bind_done (fun _ _ => rfl) bind_assoc

/-! Running a program to its end against a deterministic service. -/

def run (serve : σ → (request : I.Request) → I.Response request × σ) : Program I α → σ → α × σ
  | .done value, state => (value, state)
  | .call request next, state => (next (serve state request).1).run serve (serve state request).2

variable (serve : σ → (request : I.Request) → I.Response request × σ)

@[simp] theorem run_done (value : α) (state : σ) : (done (I := I) value).run serve state = (value, state) := rfl

@[simp] theorem run_call (request : I.Request) (next : I.Response request → Program I α) (state : σ) :
    (call request next).run serve state = (next (serve state request).1).run serve (serve state request).2 := rfl

theorem run_bind (program : Program I α) (rest : α → Program I β) (state : σ) :
    (program >>= rest).run serve state =
      (rest (program.run serve state).1).run serve (program.run serve state).2 := by
  induction program generalizing state with
  | done value => rfl
  | call request next ih => exact ih _ _

@[simp] theorem run_send (request : I.Request) (state : σ) :
    (send request).run serve state = serve state request := rfl

/-- The requests of a run, each with the state it met and its answer. -/
def served : Program I α → σ → List (Served I σ)
  | .done _, _ => []
  | .call request next, state =>
    ⟨state, request, (serve state request).1⟩ :: (next (serve state request).1).served (serve state request).2

@[simp] theorem served_done (value : α) (state : σ) : (done (I := I) value).served serve state = [] := rfl

@[simp] theorem served_call (request : I.Request) (next : I.Response request → Program I α) (state : σ) :
    (call request next).served serve state =
      ⟨state, request, (serve state request).1⟩ ::
        (next (serve state request).1).served serve (serve state request).2 := rfl

theorem served_bind (program : Program I α) (rest : α → Program I β) (state : σ) :
    (program >>= rest).served serve state = program.served serve state ++
      (rest (program.run serve state).1).served serve (program.run serve state).2 := by
  induction program generalizing state with
  | done value => rfl
  | call request next ih => exact congrArg (List.cons _) (ih _ _)

/-! The first answers of a run, each given under circumstances of its own. -/

section After
variable {κ : Type} (serve : κ → σ → (request : I.Request) → I.Response request × σ)

/-- What a program has left, and the state, once so many of its requests are answered. -/
def after : List κ → σ → Program I α → Program I α × σ
  | [], state, program => (program, state)
  | _ :: _, state, .done value => (.done value, state)
  | circumstance :: later, state, .call request next =>
    after later (serve circumstance state request).2 (next (serve circumstance state request).1)

theorem after_append (first later : List κ) (state : σ) (program : Program I α) :
    program.after serve (first ++ later) state =
      (program.after serve first state).1.after serve later (program.after serve first state).2 := by
  induction first generalizing state program with
  | nil => rfl
  | cons circumstance rest ih =>
    cases program with
    | done value => cases later <;> rfl
    | call request next => exact ih _ _

end After

/-! What a program may send and return, whatever it is answered. -/

def Uses (allowed : I.Request → Prop) : Program I α → Prop
  | .done _ => True
  | .call request next => allowed request ∧ ∀ response, (next response).Uses allowed

@[simp] theorem uses_call {allowed : I.Request → Prop} {request : I.Request}
    {next : I.Response request → Program I α} :
    (call request next).Uses allowed ↔ allowed request ∧ ∀ response, (next response).Uses allowed := Iff.rfl

def Returns : Program I α → α → Prop
  | .done value, result => value = result
  | .call _ next, result => ∃ response, (next response).Returns result

/-- The program sends no more requests than that. -/
def AtMost : Nat → Program I α → Prop
  | _, .done _ => True
  | 0, .call _ _ => False
  | n + 1, .call _ next => ∀ response, (next response).AtMost n

@[simp] theorem atMost_done (n : Nat) (value : α) : (done (I := I) value).AtMost n := by
  cases n <;> trivial

theorem Uses.bind {allowed : I.Request → Prop} {program : Program I α} {rest : α → Program I β}
    (first : program.Uses allowed) (later : ∀ value, (rest value).Uses allowed) :
    (program >>= rest).Uses allowed := by
  induction program with
  | done value => exact later value
  | call request next ih => exact ⟨first.1, fun response => ih response (first.2 response)⟩

theorem Uses.mono {first second : I.Request → Prop} {program : Program I α} (uses : program.Uses first)
    (weaker : ∀ request, first request → second request) : program.Uses second := by
  induction program with
  | done value => trivial
  | call request next ih => exact ⟨weaker request uses.1, fun response => ih response (uses.2 response)⟩

theorem uses_any (program : Program I α) : program.Uses fun _ => True := by
  induction program with
  | done value => trivial
  | call request next ih => exact ⟨trivial, ih⟩

theorem Uses.send {allowed : I.Request → Prop} {request : I.Request} (permitted : allowed request) :
    (send request).Uses allowed := ⟨permitted, fun _ => trivial⟩

theorem returns_bind {program : Program I α} {rest : α → Program I β} {result : β} :
    (program >>= rest).Returns result ↔ ∃ value, program.Returns value ∧ (rest value).Returns result := by
  induction program with
  | done value => simp [Returns]
  | call request next ih =>
    simp only [call_bind, Returns, ih]
    constructor
    · rintro ⟨response, value, first, last⟩
      exact ⟨value, ⟨response, first⟩, last⟩
    · rintro ⟨value, ⟨response, first⟩, last⟩
      exact ⟨response, value, first, last⟩

theorem bind_ite {c : Prop} [Decidable c] (first second : Program I α) (rest : α → Program I β) :
    (if c then first else second) >>= rest = if c then first >>= rest else second >>= rest := by
  split <;> rfl

theorem uses_ite {c : Prop} [Decidable c] {allowed : I.Request → Prop} {first second : Program I α}
    (yes : c → first.Uses allowed) (no : ¬c → second.Uses allowed) : (if c then first else second).Uses allowed := by
  split
  · exact yes ‹_›
  · exact no ‹_›

theorem returns_ite {c : Prop} [Decidable c] {first second : Program I α} {result : α}
    (returns : (if c then first else second).Returns result) : first.Returns result ∨ second.Returns result := by
  split at returns
  · exact Or.inl returns
  · exact Or.inr returns

theorem run_returns (program : Program I α) (state : σ) : program.Returns (program.run serve state).1 := by
  induction program generalizing state with
  | done value => rfl
  | call request next ih => exact ⟨_, ih _ _⟩

include serve in
/-- A program returns something, since a service answers every request. -/
theorem exists_returns (program : Program I α) (state : σ) : ∃ result, program.Returns result :=
  ⟨_, run_returns serve program state⟩

section
variable {allowed : I.Request → Prop} {program : Program I α}

theorem Uses.served (uses : program.Uses allowed) (state : σ) :
    ∀ entry ∈ program.served serve state, allowed entry.request := by
  induction program generalizing state with
  | done value => simp
  | call request next ih =>
    intro entry member
    rcases List.mem_cons.mp member with rfl | later
    · exact uses.1
    · exact ih _ (uses.2 _) _ entry later

/-- What every allowed request keeps, a run of allowed requests keeps. -/
theorem Uses.run {holds : σ → Prop} (uses : program.Uses allowed)
    (kept : ∀ state request, allowed request → holds state → holds (serve state request).2) {state : σ}
    (now : holds state) : holds (program.run serve state).2 := by
  induction program generalizing state with
  | done value => exact now
  | call request next ih => exact ih _ (uses.2 _) (kept state request uses.1 now)

/-- Two services that answer every allowed request alike, and stay related, lead a
program to one result. -/
theorem Uses.run_related {τ : Type} {related : σ → τ → Prop} (uses : program.Uses allowed)
    (other : τ → (request : I.Request) → I.Response request × τ)
    (step : ∀ state twin request, allowed request → related state twin →
      (serve state request).1 = (other twin request).1 ∧ related (serve state request).2 (other twin request).2)
    {state : σ} {twin : τ} (now : related state twin) :
    (program.run serve state).1 = (program.run other twin).1 ∧
      related (program.run serve state).2 (program.run other twin).2 := by
  induction program generalizing state twin with
  | done value => exact ⟨rfl, now⟩
  | call request next ih =>
    obtain ⟨same, later⟩ := step state twin request uses.1 now
    simp only [run_call, ← same]
    exact ih _ (uses.2 _) later

end

/-! What a program may send as long as the answers are legal. -/

section
variable (legal : (request : I.Request) → I.Response request → Prop)

def Sends (allowed : I.Request → Prop) : Program I α → Prop
  | .done _ => True
  | .call request next => allowed request ∧ ∀ response, legal request response → (next response).Sends allowed

variable {legal}

@[simp] theorem sends_call {allowed : I.Request → Prop} {request : I.Request}
    {next : I.Response request → Program I α} : (call request next).Sends legal allowed ↔
      allowed request ∧ ∀ response, legal request response → (next response).Sends legal allowed := Iff.rfl

theorem Sends.bind {allowed : I.Request → Prop} {program : Program I α} {rest : α → Program I β}
    (first : program.Sends legal allowed) (later : ∀ value, (rest value).Sends legal allowed) :
    (program >>= rest).Sends legal allowed := by
  induction program with
  | done value => exact later value
  | call request next ih => exact ⟨first.1, fun response right => ih response (first.2 response right)⟩

theorem Sends.mono {first second : I.Request → Prop} {program : Program I α} (sends : program.Sends legal first)
    (weaker : ∀ request, first request → second request) : program.Sends legal second := by
  induction program with
  | done value => trivial
  | call request next ih => exact ⟨weaker request sends.1, fun response right => ih response (sends.2 response right)⟩

theorem Uses.sends {allowed : I.Request → Prop} {program : Program I α} (uses : program.Uses allowed) :
    program.Sends legal allowed := by
  induction program with
  | done value => trivial
  | call request next ih => exact ⟨uses.1, fun response _ => ih response (uses.2 response)⟩

end

/-! What a program does before it ends, as long as the answers are legal. -/

section
variable (legal : (request : I.Request) → I.Response request → Prop)

/-- Until an answer settles it, the program sends allowed requests; it does not end before. -/
def Until (allowed : I.Request → Prop) (settled : (request : I.Request) → I.Response request → Prop) :
    Program I α → Prop
  | .done _ => False
  | .call request next => allowed request ∧
      ∀ response, legal request response → settled request response ∨ (next response).Until allowed settled

/-- Every request meets a demand on what is known by then and on what follows it. -/
def Tracked {κ : Type} (learn : κ → (request : I.Request) → I.Response request → κ)
    (demand : κ → (request : I.Request) → (I.Response request → Program I α) → Prop) : κ → Program I α → Prop
  | _, .done _ => True
  | known, .call request next => demand known request next ∧
      ∀ response, legal request response → (next response).Tracked learn demand (learn known request response)

variable {legal}
variable {allowed : I.Request → Prop} {settled : (request : I.Request) → I.Response request → Prop}

theorem Until.bind {program : Program I α} (first : program.Until legal allowed settled) (rest : α → Program I β) :
    (program >>= rest).Until legal allowed settled := by
  induction program with
  | done value => exact first.elim
  | call request next ih =>
    refine ⟨first.1, fun response right => ?_⟩
    rcases first.2 response right with now | later
    · exact Or.inl now
    · exact Or.inr (ih response later)

/-- What comes before an allowed end is allowed. -/
theorem Uses.until {program : Program I α} {rest : α → Program I β} (uses : program.Uses allowed)
    (later : ∀ value, (rest value).Until legal allowed settled) : (program >>= rest).Until legal allowed settled := by
  induction program with
  | done value => exact later value
  | call request next ih => exact ⟨uses.1, fun response _ => Or.inr (ih response (uses.2 response))⟩

end

/-! A program logic over the past of one execution. `answers before request response`
is the service's contract; the guarantee is what the program promises of every
request it sends, given all that it was answered before. -/

variable (answers : σ → (request : I.Request) → I.Response request → Prop)
  (guarantee : List (Served I σ) → I.Request → Prop)

def Meets (post : α → List (Served I σ) → Prop) : List (Served I σ) → Program I α → Prop
  | past, .done value => post value past
  | past, .call request next => guarantee past request ∧
      ∀ before response, answers before request response →
        (next response).Meets post (past ++ [⟨before, request, response⟩])

variable {answers guarantee}

theorem Meets.mono {post weaker : α → List (Served I σ) → Prop} {past : List (Served I σ)}
    {program : Program I α} (meets : program.Meets answers guarantee post past)
    (implies : ∀ value later, post value later → weaker value later) :
    program.Meets answers guarantee weaker past := by
  induction program generalizing past with
  | done value => exact implies value past meets
  | call request next ih =>
    exact ⟨meets.1, fun before response law => ih response (meets.2 before response law)⟩

theorem Meets.bind {post : α → List (Served I σ) → Prop} {final : β → List (Served I σ) → Prop}
    {past : List (Served I σ)} {program : Program I α} {rest : α → Program I β}
    (meets : program.Meets answers guarantee post past)
    (later : ∀ value now, post value now → (rest value).Meets answers guarantee final now) :
    (program >>= rest).Meets answers guarantee final past := by
  induction program generalizing past with
  | done value => exact later value past meets
  | call request next ih =>
    exact ⟨meets.1, fun before response law => ih response (meets.2 before response law)⟩

/-- What the service's contract and the program's guarantee keep, a run of the program
keeps, and its outcome is as promised. -/
theorem Meets.run {post : α → List (Served I σ) → Prop} {holds : List (Served I σ) → σ → Prop}
    (law : ∀ state request, answers state request (serve state request).1)
    (kept : ∀ past state request, holds past state → guarantee past request →
      holds (past ++ [⟨state, request, (serve state request).1⟩]) (serve state request).2)
    {program : Program I α} {past : List (Served I σ)} {state : σ}
    (meets : program.Meets answers guarantee post past) (now : holds past state) :
    post (program.run serve state).1 (past ++ program.served serve state) ∧
      holds (past ++ program.served serve state) (program.run serve state).2 := by
  induction program generalizing past state with
  | done value =>
    rw [served_done, List.append_nil]
    exact ⟨meets, now⟩
  | call request next ih =>
    have later := ih _ (meets.2 state _ (law state request)) (kept past state request now meets.1)
    rw [List.append_assoc] at later
    exact later

/-- What is left of a program once it has been given some answers. -/
inductive Answered : Program I α → List (Served I σ) → Program I α → Prop where
  | nil (program : Program I α) : Answered program [] program
  | cons {request : I.Request} {next : I.Response request → Program I α} {rest : Program I α}
      {past : List (Served I σ)} (before : σ) (response : I.Response request)
      (later : Answered (next response) past rest) :
    Answered (.call request next) (⟨before, request, response⟩ :: past) rest

theorem Answered.step {program : Program I α} {past : List (Served I σ)} {request : I.Request}
    {next : I.Response request → Program I α} (answered : Answered program past (.call request next)) (before : σ)
    (response : I.Response request) : Answered program (past ++ [⟨before, request, response⟩]) (next response) := by
  induction past generalizing program with
  | nil =>
    cases answered
    exact .cons before response (.nil _)
  | cons entry past ih =>
    cases answered with
    | cons first answer later => exact .cons first answer (ih later)

/-- A program whose continuation sends nothing has ended with it. -/
theorem Answered.of_bind {program : Program I α} {rest : α → β} {past : List (Served I σ)} {result : β}
    (ended : Answered (program >>= fun value => (.done (rest value) : Program I β)) past (.done result)) :
    ∃ value, Answered program past (.done value) ∧ rest value = result := by
  induction past generalizing program with
  | nil =>
    cases program with
    | done value =>
      cases ended
      exact ⟨value, .nil _, rfl⟩
    | call request next => cases ended
  | cons entry past ih =>
    cases program with
    | done value => cases ended
    | call request next =>
      cases ended with
      | cons before response later =>
        obtain ⟨value, earlier, same⟩ := ih later
        exact ⟨value, .cons before response earlier, same⟩

/-- A program that has ended keeps its promise. -/
theorem Meets.ended {post : α → List (Served I σ) → Prop} {program : Program I α} {past more : List (Served I σ)}
    {value : α} (meets : program.Meets (fun _ _ _ => True) guarantee post past)
    (ended : Answered program more (.done value)) : post value (past ++ more) := by
  induction more generalizing program past with
  | nil =>
    cases ended
    rw [List.append_nil]
    exact meets
  | cons entry more ih =>
    cases ended with
    | cons before response later =>
      have next := ih (meets.2 before response trivial) later
      rwa [List.append_assoc] at next

/-- A program that only sends requests meeting the guarantee at any time keeps it,
and all that it learns is that its past grew. -/
theorem Uses.meets {allowed : I.Request → Prop} {program : Program I α} (uses : program.Uses allowed)
    (start : List (Served I σ))
    (keeps : ∀ now request, start <+: now → allowed request → guarantee now request) :
    program.Meets answers guarantee (fun _ now => start <+: now) start := by
  suffices general : ∀ past, start <+: past →
      program.Meets answers guarantee (fun _ now => start <+: now) past from
    general start List.prefix_rfl
  induction program with
  | done value => exact fun past grown => grown
  | call request next ih =>
    intro past grown
    exact ⟨keeps past request grown uses.1, fun before response _ =>
      ih response (uses.2 response) _ (grown.trans (List.prefix_append _ _))⟩

/-! A program of one service among the requests of a larger one. -/

/-- The requests of one service as requests of another, and its answers in the other's. -/
structure Part (I J : Interface) where
  request : I.Request → J.Request
  answer (asked : I.Request) : J.Response (request asked) → I.Response asked

def within {J : Interface} (part : Part I J) : Program I α → Program J α
  | .done value => .done value
  | .call request next => .call (part.request request) fun response => (next (part.answer request response)).within part

section
variable {J : Interface} {part : Part I J}

@[simp] theorem within_done (value : α) : (done (I := I) value).within part = .done value := rfl

@[simp] theorem within_call (request : I.Request) (next : I.Response request → Program I α) :
    (call request next).within part =
      .call (part.request request) fun response => (next (part.answer request response)).within part := rfl

end

end Program

end Requests
