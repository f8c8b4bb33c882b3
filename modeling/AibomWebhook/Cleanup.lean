import AibomWebhook.FinalizerLedger

/-! The post-delete cleanup (internal/watcher/cleanup.go), which takes the watcher's
finalizers off every Job and Pod of the cluster, and the API server that it lists the
objects of page by page. -/

namespace AibomWebhook.Cleanup
open Events FinalizerLedger Identity Kubernetes Objects Requests

/-- A part of a list, and where it goes on. -/
structure Page (kind : Kind) where
  items : List (Object kind)
  next : String

inductive CleanupRequest where
  | listPage (kind : Kind) (start : String)
  | get (kind : Kind) (key : Key)
  | patch (kind : Kind) (key : Key) (change : MergePatch)

abbrev Answer : CleanupRequest → Type
  | .listPage kind _ => Except ApiError (Page kind)
  | .get kind _ => Except ApiError (Object kind)
  | .patch kind _ _ => Except ApiError (Object kind)

abbrev CleanupServer : Interface where
  Request := CleanupRequest
  Response := Answer

abbrev CleanupProgram (α : Type) := Program CleanupServer α

def listPage (kind : Kind) (start : String) : CleanupProgram (Except ApiError (Page kind)) :=
  Program.send (I := CleanupServer) (.listPage kind start)

def getObject (kind : Kind) (key : Key) : CleanupProgram (Except ApiError (Object kind)) :=
  Program.send (I := CleanupServer) (.get kind key)

def patchObject (kind : Kind) (key : Key) (change : MergePatch) : CleanupProgram (Except ApiError (Object kind)) :=
  Program.send (I := CleanupServer) (.patch kind key change)

section
variable {α : Type} (kind : Kind)

@[simp] theorem listPage_bind (start : String) (rest : Except ApiError (Page kind) → CleanupProgram α) :
    (listPage kind start >>= rest) = .call (.listPage kind start) rest := rfl

@[simp] theorem getObject_bind (key : Key) (rest : Except ApiError (Object kind) → CleanupProgram α) :
    (getObject kind key >>= rest) = .call (.get kind key) rest := rfl

@[simp] theorem patchObject_bind (key : Key) (change : MergePatch) (rest : Except ApiError (Object kind) → CleanupProgram α) :
    (patchObject kind key change >>= rest) = .call (.patch kind key change) rest := rfl

end

/-- `retry.RetryOnConflict`; `again` counts the attempts after the first. -/
def retryOnConflict {α : Type} (attempt : CleanupProgram (Except ApiError α)) : Nat → CleanupProgram (Except ApiError α)
  | 0 => attempt
  | again + 1 => do
    match ← attempt with
    | .error .conflict => retryOnConflict attempt again
    | .error error => return .error error
    | .ok value => return .ok value

/-- One attempt to take a finalizer off; the value says whether it was there. -/
def attemptStrip (finalizer : String) (kind : Kind) (key : Key) : CleanupProgram (Except ApiError Bool) := do
  match ← getObject kind key with
  | .error .notFound => return .ok false
  | .error error => return .error error
  | .ok object =>
    match finalizerRemovalPatch object.metadata.finalizers finalizer (some object.metadata.resourceVersion) with
    | none => return .ok false
    | some change =>
      match ← patchObject kind key change with
      | .error error => return .error error
      | .ok _ => return .ok true

def stripFinalizer (again : Nat) (finalizer : String) (kind : Kind) (key : Key) : CleanupProgram (Except ApiError Bool) :=
  retryOnConflict (attemptStrip finalizer kind key) again

structure Tally where
  removed : Nat
  failures : Nat

def Tally.count (tally : Tally) : Except ApiError Bool → Tally
  | .error _ => { tally with failures := tally.failures + 1 }
  | .ok true => { tally with removed := tally.removed + 1 }
  | .ok false => tally

def stripItems (again : Nat) (finalizer : String) {kind : Kind} : List (Object kind) → Tally → CleanupProgram Tally
  | [], tally => return tally
  | object :: rest, tally =>
    if !holdsFinalizer finalizer object then stripItems again finalizer rest tally
    else do
      let removed ← stripFinalizer again finalizer kind object.key
      stripItems again finalizer rest (tally.count removed)

/-- The pages of one kind; there is no result when `fuel` is less than the number of pages. -/
def stripPages (again : Nat) (finalizer : String) (kind : Kind) :
    (fuel : Nat) → (start : String) → Tally → CleanupProgram (Option (Tally × Option ApiError))
  | 0, _, _ => return none
  | fuel + 1, start, tally => do
    match ← listPage kind start with
    | .error error => return some (tally, some error)
    | .ok page => do
      let tally ← stripItems again finalizer page.items tally
      if page.next = "" then return some (tally, none)
      else stripPages again finalizer kind fuel page.next tally

inductive CleanupError where
  | list (error : WrappedError)
  | incomplete (message : String)

structure Outcome where
  jobs : Nat
  pods : Nat
  error : Option CleanupError

def stripAllFinalizers (again fuel : Nat) : CleanupProgram (Option Outcome) := do
  match ← stripPages again finalizerName .job fuel "" { removed := 0, failures := 0 } with
  | none => return none
  | some (jobs, some error) =>
    return some { jobs := jobs.removed, pods := 0, error := some (.list { message := "list jobs", cause := error }) }
  | some (jobs, none) =>
    match ← stripPages again podFinalizerName .pod fuel "" { removed := 0, failures := jobs.failures } with
    | none => return none
    | some (pods, some error) =>
      return some { jobs := jobs.removed, pods := pods.removed
                    error := some (.list { message := "list pods", cause := error }) }
    | some (pods, none) =>
      return some { jobs := jobs.removed, pods := pods.removed
                    error := if pods.failures > 0 then
                        some (.incomplete (toString pods.failures ++ " object(s) could not be cleaned up"))
                      else none }

/-! The API server. -/

/-- An error that does not mean that the object is gone. -/
structure Failure where
  error : ApiError
  present : error ≠ .notFound

/-- What happens at one request: what others do just before it, whether it fails, and
how much a page of a list may hold. -/
structure Turn where
  others : List Deed
  failure : Option Failure
  pageSize : Nat

/-- The stored objects, and of every kind what the list that was begun last has yet to return. -/
structure Service where
  ledger : Ledger
  listing : (kind : Kind) → List (Object kind)
  clock : Nat

def failedWith (error : ApiError) : (request : CleanupRequest) → Answer request
  | .listPage _ _ => .error error
  | .get _ _ => .error error
  | .patch _ _ _ => .error error

/-- A failing request has no effect. A list is of the objects as they were at its first page. -/
def answer (turn : Turn) (service : Service) : (request : CleanupRequest) → Answer request × Service
  | .listPage kind start =>
    let items := if start = "" then (service.ledger.cluster.store kind).items else service.listing kind
    let rest := items.drop (turn.pageSize + 1)
    (.ok { items := items.take (turn.pageSize + 1), next := if rest.isEmpty then "" else "more" },
      { service with listing := Function.update service.listing kind rest })
  | .get kind key => ((perform "" 0 service.ledger.cluster (.get kind key)).1, service)
  | .patch kind key change =>
    ((perform "" 0 service.ledger.cluster (.patch kind key change)).1,
      { service with ledger :=
          { service.ledger with cluster := (perform "" 0 service.ledger.cluster (.patch kind key change)).2 } })

/-- The service once the others have acted. -/
def Service.pass (turn : Turn) (service : Service) : Service :=
  { service with ledger := turn.others.foldl (fun ledger deed => ledger.act deed) service.ledger
                 clock := service.clock + 1 }

def serveAt (schedule : Nat → Turn) (service : Service) (request : CleanupRequest) : Answer request × Service :=
  let turn := schedule service.clock
  match turn.failure with
  | some failure => (failedWith failure.error request, service.pass turn)
  | none => answer turn (service.pass turn) request

end AibomWebhook.Cleanup
