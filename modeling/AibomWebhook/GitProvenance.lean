import AibomWebhook.Library.PyText
import AibomWebhook.SnapshotOrder
import AibomWebhook.Library.Checked

/-! The git provenance of the runtime detector (scripts/aibom-scripts/runtime_detector.py,
`_capture_git_provenance` and `_flush`). Each capture reports the keys that it found, and
they are folded into what the process holds. -/

namespace AibomWebhook.GitProvenance
open DetectionMerge DetectionFile SnapshotOrder PyValue Requests

/-- What one capture found in a checkout. -/
structure Sighting where
  commit : String
  head : String
  remote : Option String
  dirty : Option Bool

/-- The whole name after `refs/heads/`, when HEAD is no commit. -/
def branchOf (head : String) : Option String :=
  (PyText.afterStart "ref:" head).map fun rest =>
    (PyText.afterStart "refs/heads/" (PyText.strip rest)).getD (PyText.strip rest)

def Sighting.info (seen : Sighting) : Dict :=
  let commit : Dict := Keyed.ofList [("git_commit", .str seen.commit)]
  let branched := match branchOf seen.head with
    | some branch => commit.set "git_branch" (.str branch)
    | none => commit
  let located := match seen.remote with
    | some url => if url.isEmpty then branched else branched.set "git_repository" (.str url)
    | none => branched
  match seen.dirty with
  | some dirty => located.set "git_dirty" (.bool dirty)
  | none => located

/-- Where a capture finds nothing, or an exception, there is no answer. -/
inductive GitRequest where
  | file (request : OsRequest)
  | gitCaptured (process : Nat)
  | markCaptured (process : Nat)
  | findRepo (process : Nat)
  | gitCommonDir (gitDir : String)
  | head (gitDir : String)
  | resolveGitRef (commonDir head : String)
  | gitRemoteUrl (commonDir : String)
  | gitDirty (worktree : String)
  | update (process : Nat) (seen : Sighting)

abbrev GitAnswer : GitRequest → Type
  | .file request => OsAnswer request
  | .gitCaptured _ => Bool
  | .findRepo _ => Option (String × String)
  | .gitCommonDir _ => Option String
  | .head _ => Option String
  | .resolveGitRef .. => Option String
  | .gitRemoteUrl _ => Option String
  | .gitDirty _ => Option Bool
  | _ => Unit

abbrev GitCalls : Interface where
  Request := GitRequest
  Response := GitAnswer

abbrev GitProgram := Program GitCalls Unit

/-- The calls that go to the file, the lock and the process's memory. -/
def filePart : Program.Part OsCalls GitCalls where
  request := .file
  answer _ response := response

/-! `_capture_git_provenance`, from its end to its beginning. -/

def record (process : Nat) (commit head : String) (remote : Option String) (dirty : Option Bool) : GitProgram :=
  .call (.update process { commit := commit, head := head, remote := remote, dirty := dirty }) fun _ => .done ()

def lookAround (process : Nat) (checkDirty : Bool) (worktree commonDir head commit : String) : GitProgram :=
  .call (.gitRemoteUrl commonDir) fun remote =>
    if checkDirty then .call (.gitDirty worktree) fun dirty => record process commit head remote dirty
    else record process commit head remote none

def resolve (process : Nat) (checkDirty : Bool) (worktree commonDir head : String) : GitProgram :=
  .call (.resolveGitRef commonDir head) fun
    | none => .done ()
    | some commit => if commit.isEmpty then .done () else lookAround process checkDirty worktree commonDir head commit

def readHead (process : Nat) (checkDirty : Bool) (worktree gitDir commonDir : String) : GitProgram :=
  .call (.head gitDir) fun
    | none => .done ()
    | some head => resolve process checkDirty worktree commonDir head

def enter (process : Nat) (checkDirty : Bool) (worktree gitDir : String) : GitProgram :=
  .call (.gitCommonDir gitDir) fun
    | none => .done ()
    | some commonDir => readHead process checkDirty worktree gitDir commonDir

def captureGitProvenance (process : Nat) (checkDirty : Bool) : GitProgram :=
  .call (.findRepo process) fun
    | none => .done ()
    | some (worktree, gitDir) => enter process checkDirty worktree gitDir

/-! `_flush`. -/

/-- One call of `_flush`, with its two arguments. -/
structure GitFlush where
  flush : Flush
  final : Bool
  inSignal : Bool

def rest (f : GitFlush) : GitProgram := (DetectionFile.snapshot f.flush).within filePart

def captureOnce (f : GitFlush) : GitProgram :=
  captureGitProvenance f.flush.process (!f.inSignal) >>= fun _ => .call (.markCaptured f.flush.process) fun _ => rest f

def flush (f : GitFlush) : GitProgram :=
  .call (.file (.detected f.flush.process)) fun any =>
    if any then
      if f.final then captureOnce f
      else .call (.gitCaptured f.flush.process) fun captured => if captured then rest f else captureOnce f
    else .done ()

/-! The processes and their checkouts. -/

structure GitOs where
  file : Os
  gitCaptured : Nat → Bool

/-- What the checkouts show at the time of a request. -/
structure View where
  luck : Luck
  repo : Option (String × String)
  commonDir : Option String
  head : Option String
  commit : Option String
  remote : Option String
  dirty : Option Bool

def learn (seen : Sighting) (memory : Memory) : Memory := { memory with info := memory.info.update seen.info }

def remembering (process : Nat) (memory : Memory) (os : GitOs) : GitOs :=
  { os with file := { os.file with memory := Function.update os.file.memory process memory } }

def serve (view : View) (os : GitOs) : (request : GitRequest) → GitAnswer request × GitOs
  | .file request => ((perform view.luck os.file request).1, { os with file := (perform view.luck os.file request).2 })
  | .gitCaptured process => (os.gitCaptured process, os)
  | .markCaptured process => ((), { os with gitCaptured := Function.update os.gitCaptured process true })
  | .findRepo _ => (view.repo, os)
  | .gitCommonDir _ => (view.commonDir, os)
  | .head _ => (view.head, os)
  | .resolveGitRef .. => (view.commit, os)
  | .gitRemoteUrl _ => (view.remote, os)
  | .gitDirty _ => (view.dirty, os)
  | .update process seen => ((), remembering process (learn seen (os.file.memory process)) os)

/-- A forked child starts with its parent's memory, and has captured nothing. -/
inductive GitDeed where
  | file (deed : Deed)
  | fork (parent child : Nat)

def GitOs.act (deed : GitDeed) (os : GitOs) : GitOs :=
  match deed with
  | .file deed => { os with file := os.file.act deed }
  | .fork parent child =>
    { remembering child (os.file.memory parent) os with gitCaptured := Function.update os.gitCaptured child false }

def capturing : System GitCalls GitOs GitFlush GitFlush GitDeed View where
  resolve _ f := some f
  program := flush
  act := GitOs.act
  serve := serve

abbrev GitWorld := World GitCalls GitOs GitFlush
abbrev GitMove := Move GitFlush GitDeed View

/-- The hooks record no git keys. -/
def KeepsGit : GitDeed → Prop
  | .file (.change _ change) => ∀ memory key, isGitKey key = true → (change memory).info.get? key = memory.info.get? key
  | _ => True

/-- Every flush is one of its own, and the dead do nothing. -/
def Permitted (world : GitWorld) : GitMove → Prop
  | .spawn f => ∀ thread ∈ world.threads, thread.owner.flush.id ≠ f.flush.id
  | .act deed => KeepsGit deed
  | .serve index _ => ∀ thread, world.threads[index]? = some thread → thread.owner.flush.id ∉ world.shared.file.dead

/-! Observations. -/

/-- What a call observed, if it ended a capture. -/
def observation (entry : Served GitCalls GitOs) : Option Dict :=
  match entry.request with
  | .update _ seen => some seen.info
  | _ => none

/-- What each capture of a run has observed. -/
def observations (world : GitWorld) : List Dict := world.threads.flatMap fun thread => thread.past.filterMap observation

/-- The git keys are those of one observation, or there are none. -/
def OneObservation (observed : List Dict) (info : Dict) : Prop :=
  (∀ key, isGitKey key = true → info.get? key = none) ∨
    ∃ report ∈ observed, ∀ key, isGitKey key = true → info.get? key = report.get? key

/-- A capture that reports all git keys that are held already, or nothing but what is held. -/
def Renews (held report : Dict) : Prop :=
  (∀ key, isGitKey key = true → held.get? key ≠ none → report.get? key ≠ none) ∨
    ∀ key, report.get? key ≠ none → held.get? key = report.get? key

/-- Captures renew what their process holds. -/
def Renewing (world : GitWorld) : GitMove → Prop
  | .serve index _ => ∀ thread process seen next, world.threads[index]? = some thread →
      thread.rest = .call (.update process seen) next → Renews (world.shared.file.memory process).info seen.info
  | _ => True

section Observation
variable {observed later : List Dict} {info held report existing : Dict} {key : String}

theorem OneObservation.mono (one : OneObservation observed info) (grown : ∀ report ∈ observed, report ∈ later) :
    OneObservation later info := by
  rcases one with none | ⟨report, member, same⟩
  · exact Or.inl none
  · exact Or.inr ⟨report, grown report member, same⟩

/-- What agrees on the git keys is one observation as well. -/
theorem OneObservation.congr (one : OneObservation observed held)
    (same : ∀ key, isGitKey key = true → info.get? key = held.get? key) : OneObservation observed info := by
  rcases one with none | ⟨report, member, agrees⟩
  · exact Or.inl fun key git => (same key git).trans (none key git)
  · exact Or.inr ⟨report, member, fun key git => (same key git).trans (agrees key git)⟩

theorem holdsGit_iff : (info.items.any fun entry => isGitKey entry.1) = true ↔
    ∃ key, isGitKey key = true ∧ info.get? key ≠ none := by
  rw [List.any_eq_true]
  constructor
  · rintro ⟨entry, member, git⟩
    refine ⟨entry.1, git, ?_⟩
    rw [Dict.get?, Keyed.find?_of_mem member]
    simp
  · rintro ⟨key, git, found⟩
    obtain ⟨value, here⟩ := Option.ne_none_iff_exists'.mp found
    obtain ⟨entry, stored, _⟩ := Option.map_eq_some_iff.mp here
    obtain ⟨member, named⟩ := Keyed.find?_some stored
    exact ⟨entry, member, named ▸ git⟩

/-- The git keys of a merged file are those of the writer, or the file's if the writer has none. -/
theorem mergeInfo_git (git : isGitKey key = true) : (mergeInfo existing info).get? key =
    if (info.items.any fun entry => isGitKey entry.1) = true then info.get? key else existing.get? key := by
  rw [mergeInfo, Dict.get?_update]
  by_cases some : (info.items.any fun entry => isGitKey entry.1) = true
  · have dropped : Dict.get? key (Keyed.ofList (existing.items.filter fun entry => !isGitKey entry.1)) = none := by
      rw [Dict.get?, Keyed.find?_ofList_filter fun key => !isGitKey key]
      simp [git]
    rw [if_pos some, if_pos some, dropped, Option.or_none]
  · have absent : info.get? key = none := by
      by_contra found
      exact some (holdsGit_iff.mpr ⟨key, git, found⟩)
    rw [if_neg some, if_neg some, absent, Option.none_or]

theorem OneObservation.mergeInfo (stored : OneObservation observed existing) (seen : OneObservation observed info) :
    OneObservation observed (mergeInfo existing info) := by
  by_cases some : (info.items.any fun entry => isGitKey entry.1) = true
  · exact seen.congr fun key git => by rw [mergeInfo_git git, if_pos some]
  · exact stored.congr fun key git => by rw [mergeInfo_git git, if_neg some]

theorem OneObservation.renewed (one : OneObservation observed held) (renews : Renews held report)
    (grown : ∀ report ∈ observed, report ∈ later) (member : report ∈ later) :
    OneObservation later (held.update report) := by
  rcases renews with covers | nothing
  · refine Or.inr ⟨report, member, fun key git => ?_⟩
    rw [Dict.get?_update]
    cases reported : report.get? key with
    | some value => rfl
    | none =>
      have unheld : held.get? key = none := by
        by_contra holds
        exact covers key git holds reported
      rw [unheld, Option.none_or]
  · refine (one.mono grown).congr fun key _ => ?_
    rw [Dict.get?_update]
    cases reported : report.get? key with
    | some value => rw [nothing key (by simp [reported]), reported, Option.some_or]
    | none => rw [Option.none_or]

end Observation

/-! What documents tell. -/

/-- The `runtime_info` of a document. -/
def infoOf (value : Value) : Option Dict := value.asDict.bind fun dict => (dict.getD "runtime_info" (.dict [])).asDict

def Tells (observed : List Dict) (value : Value) : Prop := ∀ info, infoOf value = some info → OneObservation observed info

theorem mergeOutput_info {existing output : Value} {data : List Dict} {info : Dict}
    (merged : mergeOutput existing data info = some output) :
    ∃ old, infoOf existing = some old ∧ infoOf output = some (mergeInfo old info) := by
  obtain ⟨dict, read, merged⟩ := Option.bind_eq_some_iff.mp merged
  obtain ⟨datasets, _, merged⟩ := Option.bind_eq_some_iff.mp merged
  obtain ⟨old, stored, same⟩ := Option.bind_eq_some_iff.mp merged
  obtain rfl := Option.some.inj same
  obtain ⟨written, told, _, info⟩ := document_datasets datasets (mergeInfo old info)
  refine ⟨old, ?_, ?_⟩
  · rw [infoOf, read, Option.bind_some, stored]
  · rw [infoOf, told, Option.bind_some, info]

theorem Tells.mergeOutput {observed : List Dict} {existing output : Value} {data : List Dict} {info : Dict}
    (tells : Tells observed existing) (seen : OneObservation observed info)
    (merged : mergeOutput existing data info = some output) : Tells observed output := by
  obtain ⟨old, stored, written⟩ := mergeOutput_info merged
  intro told same
  obtain rfl := Option.some.inj (written.symm.trans same)
  exact (tells old stored).mergeInfo seen

theorem tells_nothing (observed : List Dict) : Tells observed (.dict []) := by
  rintro info same
  obtain rfl : ∅ = info := Option.some.inj same
  exact Or.inl fun key _ => rfl

/-! What a flush writes, given what it was answered. -/

def Faithful (observed : List Dict) (entry : Served GitCalls GitOs) : Prop :=
  match entry with
  | ⟨_, .file (.remember ..), memory⟩ => OneObservation observed memory.info
  | ⟨_, .file .read, value⟩ => Tells observed value
  | _ => True

/-- What is written tells of one observation, whenever all answers did. -/
def WritesFaithfully (past : List (Served GitCalls GitOs)) (request : GitRequest) : Prop :=
  ∀ pid value, request = .file (.writeTemporary pid value) →
    ∀ observed, (∀ entry ∈ past, Faithful observed entry) → Tells observed value

theorem writesFaithfully_of_ne {past : List (Served GitCalls GitOs)} {request : GitRequest}
    (other : ∀ pid value, request ≠ .file (.writeTemporary pid value)) : WritesFaithfully past request :=
  fun pid value same => absurd same (other pid value)

abbrev WritesOnly (program : GitProgram) (past : List (Served GitCalls GitOs)) : Prop :=
  program.Meets (fun _ _ _ => True) WritesFaithfully (fun _ _ => True) past

/-- A step that writes no document. -/
theorem writesOnly_call {past : List (Served GitCalls GitOs)} {request : GitRequest}
    {next : GitAnswer request → GitProgram} (other : ∀ pid value, request ≠ .file (.writeTemporary pid value))
    (later : ∀ before response, WritesOnly (next response) (past ++ [⟨before, request, response⟩])) :
    WritesOnly (.call request next) past :=
  ⟨writesFaithfully_of_ne other, fun before response _ => later before response⟩

theorem rest_writes (f : GitFlush) (past : List (Served GitCalls GitOs)) : WritesOnly (rest f) past := by
  refine writesOnly_call (by simp [filePart]) fun atSnapshot seen => ?_
  refine writesOnly_call (by simp [filePart]) fun _ locked => ?_
  cases locked with
  | false => trivial
  | true =>
    refine writesOnly_call (by simp [filePart]) fun atRead existing => ?_
    dsimp only [filePart, mergeWith]
    cases merged : mergeOutput existing seen.datasets seen.info with
    | none => exact writesOnly_call (by simp) fun _ _ => trivial
    | some output =>
      refine writesOnly_call (by simp) fun _ _ => ⟨?_, fun _ _ _ => ?_⟩
      · intro pid value same observed faithful
        obtain ⟨_, rfl⟩ : f.flush.pid = pid ∧ output = value := by simpa using same
        have read : Tells observed existing := faithful ⟨atRead, .file .read, existing⟩ (by simp)
        have held : OneObservation observed seen.info :=
          faithful ⟨atSnapshot, .file (.remember f.flush.id f.flush.process), seen⟩ (by simp)
        exact read.mergeOutput held merged
      · exact writesOnly_call (by simp) fun _ _ => writesOnly_call (by simp) fun _ _ => trivial

theorem capture_uses (process : Nat) (checkDirty : Bool) :
    (captureGitProvenance process checkDirty).Uses fun request : GitRequest => ∀ asked, request ≠ .file asked := by
  refine ⟨by simp, fun found => ?_⟩
  cases found with
  | none => trivial
  | some place =>
    refine ⟨by simp, fun common => ?_⟩
    cases common with
    | none => trivial
    | some commonDir =>
      refine ⟨by simp, fun head => ?_⟩
      cases head with
      | none => trivial
      | some head =>
        refine ⟨by simp, fun commit => ?_⟩
        cases commit with
        | none => trivial
        | some commit =>
          dsimp only
          split
          · trivial
          · refine ⟨by simp, fun remote => ?_⟩
            dsimp only
            split
            · exact ⟨by simp, fun dirty => ⟨by simp, fun _ => trivial⟩⟩
            · exact ⟨by simp, fun _ => trivial⟩

theorem captureOnce_writes (f : GitFlush) (past : List (Served GitCalls GitOs)) : WritesOnly (captureOnce f) past := by
  have capture : (captureGitProvenance f.flush.process (!f.inSignal)).Meets (fun _ _ _ => True) WritesFaithfully
      (fun _ now => past <+: now) past :=
    (capture_uses f.flush.process (!f.inSignal)).meets past fun now request _ other =>
      writesFaithfully_of_ne fun pid value => other (.writeTemporary pid value)
  refine capture.bind fun _ now _ => ?_
  exact writesOnly_call (by simp) fun _ _ => rest_writes f _

theorem flush_writes (f : GitFlush) : WritesOnly (flush f) [] := by
  refine writesOnly_call (by simp) fun _ any => ?_
  cases any with
  | false => trivial
  | true =>
    dsimp only
    rw [if_pos rfl]
    split
    · exact captureOnce_writes f _
    · refine writesOnly_call (by simp) fun _ captured => ?_
      cases captured with
      | true => exact rest_writes f _
      | false => exact captureOnce_writes f _

/-! Any number of flushes. -/

/-- All that is held, written and was read tells of one observation each. -/
structure Kept (world : GitWorld) : Prop where
  memory : ∀ process, OneObservation (observations world) (world.shared.file.memory process).info
  output : ∀ value, world.shared.file.output = some (.whole value) → Tells (observations world) value
  temporary : ∀ pid value, world.shared.file.temporary pid = some (.whole value) → Tells (observations world) value
  answers : ∀ thread ∈ world.threads, ∀ entry ∈ thread.past, Faithful (observations world) entry

theorem Tells.mono {observed later : List Dict} {value : Value} (tells : Tells observed value)
    (grown : ∀ report ∈ observed, report ∈ later) : Tells later value :=
  fun info told => (tells info told).mono grown

theorem Faithful.mono {observed later : List Dict} {entry : Served GitCalls GitOs} (faithful : Faithful observed entry)
    (grown : ∀ report ∈ observed, report ∈ later) : Faithful later entry := by
  obtain ⟨before, request, response⟩ := entry
  cases request with
  | file asked =>
    cases asked with
    | remember flush process => exact OneObservation.mono faithful grown
    | read => exact Tells.mono faithful grown
    | _ => trivial
  | _ => trivial

theorem Kept.start {start : GitWorld} (fresh : start.threads = []) (absent : start.shared.file.output = none)
    (empty : ∀ pid, start.shared.file.temporary pid = none)
    (clean : ∀ process key, isGitKey key = true → (start.shared.file.memory process).info.get? key = none) :
    Kept start where
  memory process := Or.inl (clean process)
  output value written := by simp [absent] at written
  temporary pid value written := by simp [empty] at written
  answers := by simp [fresh]

theorem Kept.spawn {world : GitWorld} (kept : Kept world) (f : GitFlush) :
    Kept { world with threads := world.threads ++ [capturing.started f] } := by
  have same : observations { world with threads := world.threads ++ [capturing.started f] } = observations world := by
    simp [observations, System.started]
  refine { memory := ?_, output := ?_, temporary := ?_, answers := ?_ }
  · rw [same]
    exact kept.memory
  · rw [same]
    exact kept.output
  · rw [same]
    exact kept.temporary
  · intro thread member
    rcases List.mem_append.mp member with old | last
    · rw [same]
      exact kept.answers thread old
    · obtain rfl := List.mem_singleton.mp last
      simp [System.started]

theorem Kept.act {world : GitWorld} (kept : Kept world) {deed : GitDeed} (clean : KeepsGit deed) :
    Kept { world with shared := world.shared.act deed, history := world.states } := by
  have files : (world.shared.act deed).file.output = world.shared.file.output ∧
      (world.shared.act deed).file.temporary = world.shared.file.temporary := by
    cases deed with
    | file deed => cases deed <;> exact ⟨rfl, rfl⟩
    | fork parent child => exact ⟨rfl, rfl⟩
  refine { memory := fun process => ?_, output := ?_, temporary := ?_, answers := kept.answers }
  · cases deed with
    | file deed =>
      cases deed with
      | kill victim => exact kept.memory process
      | change changed change =>
        refine (kept.memory process).congr fun key git => ?_
        by_cases here : process = changed
        · subst here
          simp only [GitOs.act, Os.act, Function.update_self]
          exact clean _ key git
        · simp only [GitOs.act, Os.act, Function.update_of_ne here]
    | fork parent child =>
      by_cases here : process = child
      · refine (kept.memory parent).congr fun key _ => ?_
        simp only [GitOs.act, remembering, here, Function.update_self]
      · refine (kept.memory process).congr fun key _ => ?_
        simp only [GitOs.act, remembering, Function.update_of_ne here]
  · simp only [files.1]
    exact kept.output
  · simp only [files.2]
    exact kept.temporary

section Files
variable {luck : Luck} {os : Os} {request : OsRequest} {value : Value}

theorem perform_memory : (perform luck os request).2.memory = os.memory := by
  cases request with
  | acquire flush =>
    simp only [perform]
    split <;> rfl
  | replace pid =>
    simp only [perform]
    split <;> rfl
  | _ => rfl

theorem perform_output (written : (perform luck os request).2.output = some (.whole value)) :
    os.output = some (.whole value) ∨ ∃ pid, os.temporary pid = some (.whole value) := by
  cases request with
  | acquire flush =>
    simp only [perform] at written
    split at written <;> exact Or.inl written
  | replace pid =>
    simp only [perform] at written
    split at written
    · exact Or.inl written
    · rename_i text found
      exact Or.inr ⟨pid, found.trans written⟩
  | _ => exact Or.inl written

theorem perform_temporary {pid : Nat} (written : (perform luck os request).2.temporary pid = some (.whole value)) :
    os.temporary pid = some (.whole value) ∨ request = .writeTemporary pid value := by
  cases request with
  | acquire flush =>
    simp only [perform] at written
    split at written <;> exact Or.inl written
  | openTemporary other =>
    by_cases here : pid = other
    · simp [perform, here] at written
    · simp only [perform, Function.update_of_ne here] at written
      exact Or.inl written
  | writeTemporary other text =>
    by_cases here : pid = other
    · subst here
      obtain rfl : text = value := by simpa [perform] using written
      exact Or.inr rfl
    · simp only [perform, Function.update_of_ne here] at written
      exact Or.inl written
  | replace other =>
    simp only [perform] at written
    split at written
    · exact Or.inl written
    · by_cases here : pid = other
      · simp [here] at written
      · simp only [Function.update_of_ne here] at written
        exact Or.inl written
  | _ => exact Or.inl written

end Files

section Serve
variable {view : View} {world : GitWorld} {index : Nat} {thread : Thread GitCalls GitOs GitFlush} {request : GitRequest}
  {next : GitAnswer request → GitProgram}

private abbrev entryOf (view : View) (world : GitWorld) (request : GitRequest) : Served GitCalls GitOs :=
  ⟨world.shared, request, (serve view world.shared request).1⟩

private abbrev after (view : View) (world : GitWorld) (index : Nat) (thread : Thread GitCalls GitOs GitFlush)
    (request : GitRequest) (next : GitAnswer request → GitProgram) : GitWorld :=
  { shared := (serve view world.shared request).2
    history := world.states
    threads := world.threads.set index
      { owner := thread.owner
        past := thread.past ++ [entryOf view world request]
        rest := next (serve view world.shared request).1 } }

theorem mem_observations {report : Dict} : report ∈ observations world ↔
    ∃ thread ∈ world.threads, ∃ entry ∈ thread.past, observation entry = some report := by
  simp [observations]

theorem observations_grow (found : world.threads[index]? = some thread) :
    ∀ report ∈ observations world, report ∈ observations (after view world index thread request next) := by
  intro report member
  obtain ⟨teller, present, entry, told, observed⟩ := mem_observations.mp member
  rcases mem_set_of_mem found present { owner := thread.owner, past := thread.past ++ [entryOf view world request]
                                        rest := next (serve view world.shared request).1 } with rfl | kept
  · obtain ⟨place, _⟩ := List.getElem?_eq_some_iff.mp found
    exact mem_observations.mpr ⟨_, List.mem_set place _, entry, List.mem_append_left _ told, observed⟩
  · exact mem_observations.mpr ⟨teller, kept, entry, told, observed⟩

theorem observed_now (found : world.threads[index]? = some thread) {report : Dict}
    (observed : observation (entryOf view world request) = some report) :
    report ∈ observations (after view world index thread request next) := by
  obtain ⟨place, _⟩ := List.getElem?_eq_some_iff.mp found
  exact mem_observations.mpr
    ⟨_, List.mem_set place _, _, List.mem_append_right _ (List.mem_singleton_self _), observed⟩

theorem Kept.faithful (kept : Kept world) : Faithful (observations world) (entryOf view world request) := by
  cases request with
  | file asked =>
    cases asked with
    | remember flush process => exact kept.memory process
    | read =>
      simp only [Faithful, serve, perform, Os.reading]
      split
      · exact kept.output _ (by assumption)
      · exact tells_nothing _
    | _ => trivial
  | _ => trivial

theorem Kept.served (kept : Kept world) (found : world.threads[index]? = some thread)
    (calls : thread.rest = .call request next) (writes : WritesFaithfully thread.past request)
    (renewing : Renewing world (.serve index view)) : Kept (after view world index thread request next) := by
  have grown : ∀ report ∈ observations world, report ∈ observations (after view world index thread request next) :=
    observations_grow found
  refine { memory := fun process => ?_, output := fun value written => ?_
           temporary := fun pid value written => ?_, answers := fun teller member entry told => ?_ }
  · cases request with
    | file asked =>
      refine OneObservation.congr ((kept.memory process).mono grown) fun key _ => ?_
      simp only [serve, perform_memory]
    | update changed seen =>
      by_cases here : process = changed
      · subst here
        have reported : seen.info ∈ observations (after view world index thread (.update process seen) next) :=
          observed_now found rfl
        have now := (kept.memory process).renewed (renewing thread process seen next found calls) grown reported
        refine now.congr fun key _ => ?_
        simp only [serve, remembering, Function.update_self, learn]
      · refine ((kept.memory process).mono grown).congr fun key _ => ?_
        simp only [serve, remembering, Function.update_of_ne here]
    | _ => exact (kept.memory process).mono grown
  · cases request with
    | file asked =>
      rcases perform_output written with before | ⟨pid, before⟩
      · exact (kept.output value before).mono grown
      · exact (kept.temporary pid value before).mono grown
    | _ => exact (kept.output value written).mono grown
  · cases request with
    | file asked =>
      rcases perform_temporary written with before | now
      · exact (kept.temporary pid value before).mono grown
      · have here : thread ∈ world.threads := List.mem_of_getElem? found
        exact (writes pid value (congrArg GitRequest.file now) _ (kept.answers thread here)).mono grown
    | _ => exact (kept.temporary pid value written).mono grown
  · rcases List.mem_or_eq_of_mem_set member with old | rfl
    · exact (kept.answers teller old entry told).mono grown
    · rcases List.mem_append.mp told with earlier | last
      · exact (kept.answers thread (List.mem_of_getElem? found) entry earlier).mono grown
      · obtain rfl := List.mem_singleton.mp last
        exact kept.faithful.mono grown

end Serve

theorem Kept.reached {start world : GitWorld} (fresh : start.threads = []) (kept : Kept start)
    (reached : capturing.Reaches (fun world move => Permitted world move ∧ Renewing world move) start world) :
    Kept world := by
  refine System.Reaches.invariant kept (fun world next move reached kept allowed moved => ?_) reached
  rcases System.step_cases moved with ⟨label, owner, rfl, found, rfl⟩ | ⟨deed, rfl, rfl⟩ |
    ⟨index, view, thread, request, next, rfl, found, calls, rfl⟩
  · exact kept.spawn owner
  · exact kept.act allowed.1
  · have meets : WritesOnly thread.rest thread.past := System.Reaches.meets fresh
      (fun _ _ _ _ _ _ _ _ _ => trivial) flush_writes reached thread (List.mem_of_getElem? found)
    rw [calls] at meets
    exact kept.served found calls meets.1 allowed.2

/-- What a flush saw of its process's memory. -/
def snapshotOf (past : List (Served GitCalls GitOs)) : Option Memory :=
  past.findSome? fun entry =>
    match entry with
    | ⟨_, .file (.remember ..), memory⟩ => some memory
    | _ => none

/-- When every capture renews what its process holds, the git keys of each snapshot and of
the file are those of one observation. -/
theorem git_keys_of_one_observation {start world : GitWorld} (fresh : start.threads = [])
    (absent : start.shared.file.output = none) (empty : ∀ pid, start.shared.file.temporary pid = none)
    (clean : ∀ process key, isGitKey key = true → (start.shared.file.memory process).info.get? key = none)
    (reached : capturing.Reaches (fun world move => Permitted world move ∧ Renewing world move) start world) :
    (∀ thread ∈ world.threads, ∀ seen, snapshotOf thread.past = some seen →
      OneObservation (observations world) seen.info) ∧
      OneObservation (observations world) (storedInfo world.shared.file) := by
  have kept := (Kept.start fresh absent empty clean).reached fresh reached
  constructor
  · intro thread member seen saw
    obtain ⟨entry, told, found⟩ := List.exists_of_findSome?_eq_some saw
    have faithful := kept.answers thread member entry told
    split at found
    · obtain rfl := Option.some.inj found
      exact faithful
    · cases found
  · have tells : Tells (observations world) world.shared.file.reading := by
      rw [Os.reading]
      split
      · exact kept.output _ (by assumption)
      · exact tells_nothing _
    have told : storedInfo world.shared.file = (infoOf world.shared.file.reading).getD ∅ := rfl
    rw [told]
    cases stored : infoOf world.shared.file.reading with
    | none => exact Or.inl fun key _ => rfl
    | some info => exact tells info stored

/-! Two flushes of one process, and the checkouts that they find. -/

def firstCommit : String := "1111111111111111111111111111111111111111"
def secondCommit : String := "2222222222222222222222222222222222222222"

def onBranch (commit : String) : View where
  luck := ⟨true⟩
  repo := some ("/repo", "/repo/.git")
  commonDir := some "/repo/.git"
  head := some "ref: refs/heads/main"
  commit := some commit
  remote := none
  dirty := some false

def detachedAt (commit : String) : View := { onBranch commit with head := some commit, dirty := none }

def trained : GitWorld := World.initial GitFlush
  { file :=
      { output := none
        temporary := fun _ => none
        holder := none
        dead := []
        memory := fun _ => { datasets := [], info := Keyed.ofList [("framework", .str "PyTorch")] }
        taken := [] }
    gitCaptured := fun _ => false }

theorem trained_clean (process : Nat) (key : String) (git : isGitKey key = true) :
    (trained.shared.file.memory process).info.get? key = none := by
  have other : ("framework" : String) ≠ key := by
    rintro rfl
    revert git
    decide
  simp [trained, World.initial, Dict.get?, Keyed.ofList, Keyed.putAll, Keyed.find?_put, other]

/-- The timer's flush, then the one at exit. -/
def twoFlushes (first second : View) : List GitMove :=
  .spawn ⟨⟨1, 1, 7⟩, false, false⟩ :: List.replicate 17 (.serve 0 first) ++
    .spawn ⟨⟨2, 1, 7⟩, true, false⟩ :: List.replicate 16 (.serve 1 second)

def permits (world : GitWorld) : GitMove → Bool
  | .spawn f => world.threads.all fun thread => thread.owner.flush.id != f.flush.id
  | .act _ => false
  | .serve index _ => world.threads[index]?.all fun thread => !world.shared.file.dead.contains thread.owner.flush.id

theorem permitted_of_permits (world : GitWorld) (move : GitMove) (checked : permits world move = true) :
    Permitted world move := by
  cases move with
  | spawn f => simpa [permits, Permitted] using checked
  | act deed => cases checked
  | serve index view =>
    intro thread found
    simpa [permits, found] using checked

/-- A capture that reports all that is held. -/
def covers (held report : Dict) : Bool := held.items.all fun entry => !isGitKey entry.1 || (report.get? entry.1).isSome

theorem renews_of_covers {held report : Dict} (checked : covers held report = true) : Renews held report := by
  refine Or.inl fun key git holds => ?_
  obtain ⟨value, here⟩ := Option.ne_none_iff_exists'.mp holds
  obtain ⟨entry, stored, _⟩ := Option.map_eq_some_iff.mp here
  obtain ⟨member, rfl⟩ := Keyed.find?_some stored
  have reported := List.all_eq_true.mp checked entry member
  rw [git, Bool.not_true, Bool.false_or, Option.isSome_iff_ne_none] at reported
  exact reported

def renewing (world : GitWorld) (move : GitMove) : Bool :=
  permits world move &&
    match move with
    | .serve index _ => world.threads[index]?.all fun thread =>
      match thread.rest with
      | .call (.update process seen) _ => covers (world.shared.file.memory process).info seen.info
      | _ => true
    | _ => true

theorem renewing_sound (world : GitWorld) (move : GitMove) (checked : renewing world move = true) :
    Permitted world move ∧ Renewing world move := by
  unfold renewing at checked
  rw [Bool.and_eq_true] at checked
  refine ⟨permitted_of_permits world move checked.1, ?_⟩
  cases move with
  | serve index view =>
    intro thread process seen next found calls
    have covered := checked.2
    simp only [found, Option.all_some, calls] at covered
    exact renews_of_covers covered
  | _ => trivial

def branchRun : Checked (capturing.checkedRun renewing trained (twoFlushes (detachedAt firstCommit) (onBranch secondCommit)))
    fun world => (storedInfo world.shared.file).get? "git_branch" = some (.str "main") := .of (by decide +kernel)

theorem git_keys_of_one_observation_on_branch : ∃ world,
    capturing.Reaches (fun world move => Permitted world move ∧ Renewing world move) trained world ∧
      (storedInfo world.shared.file).get? "git_branch" = some (.str "main") ∧
      OneObservation (observations world) (storedInfo world.shared.file) := by
  obtain ⟨world, ran, branch⟩ := branchRun
  have reached := System.reaches_of_checkedRun renewing_sound ran
  exact ⟨world, reached, branch, (git_keys_of_one_observation rfl rfl (fun _ => rfl) trained_clean reached).2⟩

/-- The second capture found no branch, and the file has its commit on the branch of the first. -/
def mixedRun : Checked (capturing.checkedRun permits trained (twoFlushes (onBranch firstCommit) (detachedAt secondCommit)))
    fun world => (storedInfo world.shared.file).get? "git_commit" = some (.str secondCommit) ∧
      (storedInfo world.shared.file).get? "git_branch" = some (.str "main") ∧
      (observations world).map (fun report => (report.get? "git_commit", report.get? "git_branch")) =
        [(some (.str firstCommit), some (.str "main")), (some (.str secondCommit), none)] := .of (by decide +kernel)

theorem commit_on_branch_of_another : ∃ world, capturing.Reaches Permitted trained world ∧
    ¬OneObservation (observations world) (storedInfo world.shared.file) := by
  obtain ⟨world, ran, commit, branch, reports⟩ := mixedRun
  have git : isGitKey "git_commit" = true ∧ isGitKey "git_branch" = true := by decide
  refine ⟨world, System.reaches_of_checkedRun permitted_of_permits ran, ?_⟩
  rintro (none | ⟨report, member, same⟩)
  · have absent := none "git_commit" git.1
    rw [commit] at absent
    cases absent
  · have listed : (report.get? "git_commit", report.get? "git_branch") ∈
        [(some (.str firstCommit), some (.str "main")), (some (.str secondCommit), (Option.none : Option Value))] := by
      rw [← reports]
      exact List.mem_map_of_mem member
    rw [← same "git_commit" git.1, ← same "git_branch" git.2, commit, branch] at listed
    revert listed
    decide

end AibomWebhook.GitProvenance
