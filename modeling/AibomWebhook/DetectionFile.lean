import AibomWebhook.DetectionMerge
import AibomWebhook.Library.Interleaving

/-! The flushes of the runtime detector (scripts/aibom-scripts/runtime_detector.py). Any
number of processes fold what they have detected into one file, each under a lock and by
a rename, and any of them can die between two steps. -/

namespace AibomWebhook.DetectionFile
open DetectionMerge PyValue Requests

/-- What a process holds in memory: `_detected_datasets` and `_runtime_info`. -/
structure Memory where
  datasets : List Dict
  info : Dict

/-- What a reader of a file finds: one complete document, or part of one. -/
inductive FileText where
  | torn
  | whole (value : Value)

/-- One call of `_flush`, in a process that goes by some pid in its container. -/
structure Flush where
  id : Nat
  process : Nat
  pid : Nat

/-- The file and the temporary files, who holds the lock, and what the processes have
detected. `taken` lists the flushes that took their snapshots, the last one first; no
step depends on it. -/
structure Os where
  output : Option FileText
  temporary : Nat → Option FileText
  holder : Option Nat
  dead : List Nat
  memory : Nat → Memory
  taken : List Nat

inductive OsRequest where
  | detected (process : Nat)
  | remember (flush process : Nat)
  | acquire (flush : Nat)
  | read
  | openTemporary (pid : Nat)
  | writeTemporary (pid : Nat) (value : Value)
  | replace (pid : Nat)
  | release (flush : Nat)

abbrev OsAnswer : OsRequest → Type
  | .detected _ => Bool
  | .remember .. => Memory
  | .acquire _ => Bool
  | .read => Value
  | _ => Unit

abbrev OsCalls : Interface where
  Request := OsRequest
  Response := OsAnswer

abbrev OsProgram := Program OsCalls Unit

/-! `_flush`, from its end to its beginning. What it captures of the arguments and the
checkout changes the memory as the hooks do, at any time. -/

def unlock (f : Flush) : OsProgram := .call (.release f.id) fun _ => .done ()

def publish (f : Flush) : OsProgram := .call (.replace f.pid) fun _ => unlock f

def dump (f : Flush) (output : Value) : OsProgram := .call (.writeTemporary f.pid output) fun _ => publish f

def store (f : Flush) (output : Value) : OsProgram := .call (.openTemporary f.pid) fun _ => dump f output

/-- An exception on the way leaves the lock as well. -/
def mergeWith (f : Flush) (seen : Memory) (existing : Value) : OsProgram :=
  match mergeOutput existing seen.datasets seen.info with
  | none => unlock f
  | some output => store f output

def underLock (f : Flush) (seen : Memory) : OsProgram := .call .read fun existing => mergeWith f seen existing

def write (f : Flush) (seen : Memory) : OsProgram :=
  .call (.acquire f.id) fun locked => if locked then underLock f seen else .done ()

def snapshot (f : Flush) : OsProgram := .call (.remember f.id f.process) fun seen => write f seen

def flush (f : Flush) : OsProgram := .call (.detected f.process) fun any => if any then snapshot f else .done ()

/-! The operating system. -/

/-- What `json.dump` wrote `json.load` reads back; what cannot be parsed is taken for empty. -/
def Os.reading (os : Os) : Value :=
  match os.output with
  | some (.whole value) => value
  | _ => .dict []

/-- Whether a lock that is free is got before the deadline. -/
structure Luck where
  inTime : Bool

def perform (luck : Luck) (os : Os) : (request : OsRequest) → OsAnswer request × Os
  | .detected process =>
    (!((os.memory process).datasets.isEmpty && (os.memory process).info.items.isEmpty), os)
  | .remember flush process => (os.memory process, { os with taken := flush :: os.taken })
  | .acquire flush => if os.holder = none ∧ luck.inTime then (true, { os with holder := some flush }) else (false, os)
  | .read => (os.reading, os)
  | .openTemporary pid => ((), { os with temporary := Function.update os.temporary pid (some .torn) })
  | .writeTemporary pid value => ((), { os with temporary := Function.update os.temporary pid (some (.whole value)) })
  | .replace pid =>
    match os.temporary pid with
    | none => ((), os)
    | some text => ((), { os with output := some text, temporary := Function.update os.temporary pid none })
  | .release flush => ((), { os with holder := if os.holder = some flush then none else os.holder })

/-- Detections, at any time, and deaths, which give the lock back. -/
inductive Deed where
  | change (process : Nat) (change : Memory → Memory)
  | kill (flush : Nat)

def Os.act (deed : Deed) (os : Os) : Os :=
  match deed with
  | .change process change => { os with memory := Function.update os.memory process (change (os.memory process)) }
  | .kill flush =>
    { os with dead := flush :: os.dead, holder := if os.holder = some flush then none else os.holder }

def flushing : System OsCalls Os Flush Flush Deed Luck where
  resolve _ f := some f
  program := flush
  act := Os.act
  serve := perform

/-- Every flush is one of its own, and the dead do nothing. -/
def Permitted (world : World OsCalls Os Flush) : Move Flush Deed Luck → Prop
  | .spawn f => ∀ thread ∈ world.threads, thread.owner.id ≠ f.id
  | .act _ => True
  | .serve index _ => ∀ thread, world.threads[index]? = some thread → thread.owner.id ∉ world.shared.dead

/-- The datasets that a reader finds in the file. -/
def Os.listed (os : Os) : List Dict :=
  (os.reading.asDict.bind fun dict =>
    match dict.getD "datasets" (.list []) with
    | .list items => entriesOf items
    | _ => none).getD []

/-- What a flush saw of its process's memory. -/
def seenBy (past : List (Served OsCalls Os)) : Option Memory :=
  past.findSome? fun entry =>
    match entry with
    | ⟨_, .remember .., memory⟩ => some memory
    | _ => none

/-- The flush has replaced the file. -/
def Published (f : Flush) (past : List (Served OsCalls Os)) : Prop :=
  ∃ entry ∈ past, entry.request = .replace f.pid

theorem published_append {f : Flush} {past : List (Served OsCalls Os)} {entry : Served OsCalls Os} :
    Published f (past ++ [entry]) ↔ Published f past ∨ entry.request = .replace f.pid := by
  simp [Published, or_and_right, exists_or]

theorem seenBy_append {past : List (Served OsCalls Os)} {seen : Memory} (saw : seenBy past = some seen)
    (entry : Served OsCalls Os) : seenBy (past ++ [entry]) = some seen := by
  rw [seenBy, List.findSome?_append, ← seenBy, saw]
  rfl

/-- Before the snapshot nothing was seen. -/
theorem seenBy_early {process : Nat} {past : List (Served OsCalls Os)}
    (early : ∀ entry ∈ past, entry.request = .detected process) : seenBy past = none := by
  rw [seenBy, List.findSome?_eq_none_iff]
  rintro ⟨before, request, answer⟩ member
  obtain rfl := early _ member
  rfl

/-! What the file says. -/

/-- A file that is not there says that nothing was detected. -/
def Os.Says (os : Os) (detections : Detections) : Prop :=
  os.output = none ∧ detections = Detections.none ∨ os.output = some (.whole detections.text)

def Os.Good (os : Os) : Prop := ∃ detections, os.Says detections ∧ (identities detections.datasets).Nodup

theorem Os.Says.whole {os : Os} {detections : Detections} (told : os.Says detections) :
    os.output = none ∨ ∃ value, os.output = some (.whole value) := by
  rcases told with ⟨absent, _⟩ | present
  · exact Or.inl absent
  · exact Or.inr ⟨_, present⟩

theorem Os.Says.listed {os : Os} {detections : Detections} (told : os.Says detections) :
    os.listed = detections.datasets := by
  rcases told with ⟨absent, rfl⟩ | present
  · rw [Os.listed, Os.reading, absent]
    rfl
  · obtain ⟨dict, read, datasets, _⟩ :=
      document_datasets (.list (detections.datasets.map Value.ofDict)) detections.info
    have text : os.reading.asDict = some dict := by
      rw [Os.reading, present]
      exact read
    rw [Os.listed, text, Option.bind_some, datasets]
    simp only [entriesOf_ofDict, Option.getD_some]

theorem Os.Says.mergeOutput {os : Os} {detections : Detections} (told : os.Says detections) (seen : Memory) :
    mergeOutput os.reading seen.datasets seen.info =
      (detections.merge seen.datasets seen.info).map Detections.text := by
  rcases told with ⟨absent, rfl⟩ | present
  · rw [Os.reading, absent]
    exact mergeOutput_empty seen.datasets seen.info
  · rw [Os.reading, present]
    exact mergeOutput_text detections seen.datasets seen.info

/-! Where a flush stands. -/

/-- Outside the lock: before it, or after. -/
inductive Outside (f : Flush) (past : List (Served OsCalls Os)) : OsProgram → Prop where
  | begun (early : ∀ entry ∈ past, entry.request = .detected f.process) : Outside f past (flush f)
  | detected (early : ∀ entry ∈ past, entry.request = .detected f.process) : Outside f past (snapshot f)
  | waiting (seen : Memory) (saw : seenBy past = some seen) : Outside f past (write f seen)
  | ended : Outside f past (.done ())

/-- The merge of what the flush saw into what the file says. -/
def Os.Merges (os : Os) (seen : Memory) (next : Detections) : Prop :=
  ∃ stored, os.Says stored ∧ stored.merge seen.datasets seen.info = some next

inductive Inside (os : Os) (f : Flush) (past : List (Served OsCalls Os)) : OsProgram → Prop where
  | locked (seen : Memory) (saw : seenBy past = some seen) : Inside os f past (underLock f seen)
  | merged (seen : Memory) (next : Detections) (saw : seenBy past = some seen) (merges : os.Merges seen next) :
    Inside os f past (store f next.text)
  | opened (seen : Memory) (next : Detections) (saw : seenBy past = some seen) (merges : os.Merges seen next) :
    Inside os f past (dump f next.text)
  | dumped (seen : Memory) (next : Detections) (saw : seenBy past = some seen) (merges : os.Merges seen next)
    (ready : os.temporary f.pid = some (.whole next.text)) : Inside os f past (publish f)
  | published : Inside os f past (unlock f)

def Staged (os : Os) (f : Flush) (past : List (Served OsCalls Os)) (rest : OsProgram) : Prop :=
  (os.holder ≠ some f.id ∧ Outside f past rest) ∨ (os.holder = some f.id ∧ Inside os f past rest)

/-- What a flush leaves alone: everything, unless nobody else holds the lock. -/
def Courteous (flush : Nat) (os next : Os) : Prop :=
  (next.output = os.output ∧ next.temporary = os.temporary ∧ next.holder = os.holder) ∨
    ((os.holder = none ∨ os.holder = some flush) ∧ (next.holder = none ∨ next.holder = some flush))

theorem Os.Merges.of_output {os next : Os} {seen : Memory} {detections : Detections}
    (same : next.output = os.output) (merges : os.Merges seen detections) : next.Merges seen detections := by
  obtain ⟨stored, told, done⟩ := merges
  refine ⟨stored, ?_, done⟩
  rw [Os.Says, same]
  exact told

/-- A flush stays where it is while another takes a step. -/
theorem Staged.of_courteous {os next : Os} {f : Flush} {other : Nat} {past : List (Served OsCalls Os)}
    {rest : OsProgram} (courteous : Courteous other os next) (different : f.id ≠ other) (staged : Staged os f past rest) :
    Staged next f past rest := by
  rcases courteous with ⟨output, temporary, holder⟩ | ⟨before, after⟩
  · rcases staged with ⟨free, outside⟩ | ⟨held, inside⟩
    · exact Or.inl ⟨by rwa [holder], outside⟩
    · refine Or.inr ⟨by rwa [holder], ?_⟩
      cases inside with
      | locked seen saw => exact .locked seen saw
      | merged seen detections saw merges => exact .merged seen detections saw (merges.of_output output)
      | opened seen detections saw merges => exact .opened seen detections saw (merges.of_output output)
      | dumped seen detections saw merges ready =>
        exact .dumped seen detections saw (merges.of_output output) (by rwa [temporary])
      | published => exact .published
  · rcases staged with ⟨_, outside⟩ | ⟨held, _⟩
    · refine Or.inl ⟨?_, outside⟩
      rcases after with free | taken
      · simp [free]
      · simp [taken, Ne.symm different]
    · rcases before with free | taken
      · simp [free] at held
      · exact absurd (Option.some.inj (held.symm.trans taken)) different

/-- The identities that the flush saw are in the file. -/
def Os.Covers (os : Os) (seen : Memory) : Prop :=
  ∀ entry ∈ seen.datasets, datasetIdentity entry ∈ identities os.listed

/-- No identity leaves the file. -/
def Grows (os next : Os) : Prop := ∀ identity ∈ identities os.listed, identity ∈ identities next.listed

theorem Os.Covers.grows {os next : Os} {seen : Memory} (covers : os.Covers seen) (grows : Grows os next) :
    next.Covers seen := fun entry member => grows _ (covers entry member)

theorem Os.Good.of_output {os next : Os} (same : next.output = os.output) (good : os.Good) : next.Good := by
  obtain ⟨detections, told, distinct⟩ := good
  refine ⟨detections, ?_, distinct⟩
  rw [Os.Says, same]
  exact told

theorem grows_of_output {os next : Os} (same : next.output = os.output) : Grows os next := by
  have listed : next.listed = os.listed := by rw [Os.listed, Os.reading, same, Os.listed, Os.reading]
  intro identity member
  rwa [listed]

/-- The merge of a good file is good, has all that the file had, and all that was seen. -/
theorem Os.Merges.good {os next : Os} {seen : Memory} {detections : Detections} (good : os.Good)
    (merges : os.Merges seen detections) (output : next.output = some (.whole detections.text)) :
    next.Good ∧ Grows os next ∧ next.Covers seen := by
  obtain ⟨before, told, distinct⟩ := good
  obtain ⟨stored, toldToo, done⟩ := merges
  obtain ⟨datasets, merged, rfl⟩ := Option.map_eq_some_iff.mp done
  have now : next.Says { datasets := datasets, info := mergeInfo stored.info seen.info } := Or.inr output
  have same : before.datasets = stored.datasets := told.listed.symm.trans toldToo.listed
  obtain ⟨unique, all⟩ := mergeDatasets_identities (same ▸ distinct) merged
  refine ⟨⟨_, now, unique⟩, fun identity member => ?_, fun entry member => ?_⟩
  · rw [now.listed, all]
    rw [toldToo.listed] at member
    exact Or.inl member
  · rw [now.listed, all]
    exact Or.inr (List.mem_map_of_mem member)

/-- What a step of a flush leaves: the flush at its next stage, a good file with no identity
less, and, when the step replaced the file, with all that the flush saw. -/
structure Advances (f : Flush) (os : Os) (past : List (Served OsCalls Os)) (request : OsRequest)
    (answer : OsAnswer request) (next : Os) (rest : OsProgram) : Prop where
  staged : Staged next f (past ++ [⟨os, request, answer⟩]) rest
  dead : next.dead = os.dead
  courteous : Courteous f.id os next
  good : next.Good
  grows : Grows os next
  covers : request = .replace f.pid → ∃ seen, seenBy (past ++ [⟨os, request, answer⟩]) = some seen ∧ next.Covers seen

theorem Advances.of_output {f : Flush} {os next : Os} {past : List (Served OsCalls Os)} {request : OsRequest}
    {answer : OsAnswer request} {rest : OsProgram} (good : os.Good) (same : next.output = os.output)
    (dead : next.dead = os.dead) (courteous : Courteous f.id os next) (other : request ≠ .replace f.pid)
    (staged : Staged next f (past ++ [⟨os, request, answer⟩]) rest) : Advances f os past request answer next rest where
  staged := staged
  dead := dead
  courteous := courteous
  good := good.of_output same
  grows := grows_of_output same
  covers same := absurd same other

theorem Outside.serve {luck : Luck} {os : Os} {f : Flush} {past : List (Served OsCalls Os)} {request : OsRequest}
    {next : OsAnswer request → OsProgram} (outside : Outside f past (.call request next))
    (free : os.holder ≠ some f.id) (good : os.Good) :
    Advances f os past request (perform luck os request).1 (perform luck os request).2
      (next (perform luck os request).1) := by
  generalize whole : (Program.call request next : OsProgram) = rest at outside
  cases outside with
  | begun early =>
    rw [flush] at whole
    cases whole
    refine .of_output good rfl rfl (Or.inl ⟨rfl, rfl, rfl⟩) (by simp) (Or.inl ⟨free, ?_⟩)
    dsimp only
    split
    · refine .detected fun entry member => ?_
      rcases List.mem_append.mp member with old | new
      · exact early entry old
      · rw [List.mem_singleton.mp new]
    · exact .ended
  | detected early =>
    rw [snapshot] at whole
    cases whole
    refine .of_output good rfl rfl (Or.inl ⟨rfl, rfl, rfl⟩) (by simp) (Or.inl ⟨free, .waiting _ ?_⟩)
    rw [seenBy, List.findSome?_append, ← seenBy, seenBy_early early]
    rfl
  | waiting seen saw =>
    rw [write] at whole
    cases whole
    have kept := fun entry => seenBy_append saw entry
    by_cases got : os.holder = none ∧ luck.inTime
    · have answered : perform luck os (.acquire f.id) = (true, { os with holder := some f.id }) := if_pos got
      rw [answered]
      exact .of_output good rfl rfl (Or.inr ⟨Or.inl got.1, Or.inr rfl⟩) (by simp)
        (Or.inr ⟨rfl, .locked seen (kept _)⟩)
    · have answered : perform luck os (.acquire f.id) = (false, os) := if_neg got
      rw [answered]
      exact .of_output good rfl rfl (Or.inl ⟨rfl, rfl, rfl⟩) (by simp) (Or.inl ⟨free, .ended⟩)
  | ended => cases whole

theorem Inside.serve {luck : Luck} {os : Os} {f : Flush} {past : List (Served OsCalls Os)} {request : OsRequest}
    {next : OsAnswer request → OsProgram} (inside : Inside os f past (.call request next))
    (held : os.holder = some f.id) (good : os.Good) :
    Advances f os past request (perform luck os request).1 (perform luck os request).2
      (next (perform luck os request).1) := by
  generalize whole : (Program.call request next : OsProgram) = rest at inside
  cases inside with
  | locked seen saw =>
    rw [underLock] at whole
    cases whole
    refine .of_output good rfl rfl (Or.inl ⟨rfl, rfl, rfl⟩) (by simp) (Or.inr ⟨held, ?_⟩)
    obtain ⟨stored, told, _⟩ := good
    have result : mergeOutput os.reading seen.datasets seen.info = _ := told.mergeOutput seen
    simp only [perform, mergeWith, result]
    cases done : stored.merge seen.datasets seen.info with
    | none => exact .published
    | some detections => exact .merged seen detections (seenBy_append saw _) ⟨stored, told, done⟩
  | merged seen detections saw merges =>
    rw [store] at whole
    cases whole
    exact .of_output good rfl rfl (Or.inr ⟨Or.inr held, Or.inr held⟩) (by simp)
      (Or.inr ⟨held, .opened seen detections (seenBy_append saw _) (merges.of_output rfl)⟩)
  | opened seen detections saw merges =>
    rw [dump] at whole
    cases whole
    exact .of_output good rfl rfl (Or.inr ⟨Or.inr held, Or.inr held⟩) (by simp)
      (Or.inr ⟨held, .dumped seen detections (seenBy_append saw _) (merges.of_output rfl) (Function.update_self ..)⟩)
  | dumped seen detections saw merges ready =>
    rw [publish] at whole
    cases whole
    have answered : perform luck os (.replace f.pid) = ((), { os with
        output := some (.whole detections.text), temporary := Function.update os.temporary f.pid none }) := by
      simp only [perform, ready]
    rw [answered]
    have output : ({ os with output := some (.whole detections.text)
                             temporary := Function.update os.temporary f.pid none } : Os).output =
        some (.whole detections.text) := rfl
    obtain ⟨stillGood, grows, covers⟩ := merges.good good output
    exact { staged := Or.inr ⟨held, .published⟩
            dead := rfl
            courteous := Or.inr ⟨Or.inr held, Or.inr held⟩
            good := stillGood
            grows := grows
            covers := fun _ => ⟨seen, seenBy_append saw _, covers⟩ }
  | published =>
    rw [unlock] at whole
    cases whole
    have answered : perform luck os (.release f.id) = ((), { os with holder := none }) := by
      simp only [perform, held, if_true]
    rw [answered]
    exact .of_output good rfl rfl (Or.inr ⟨Or.inr held, Or.inl rfl⟩) (by simp) (Or.inl ⟨by simp, .ended⟩)

theorem Staged.serve {os : Os} {f : Flush} {past : List (Served OsCalls Os)} {request : OsRequest}
    {next : OsAnswer request → OsProgram} (luck : Luck) (staged : Staged os f past (.call request next))
    (good : os.Good) :
    Advances f os past request (perform luck os request).1 (perform luck os request).2
      (next (perform luck os request).1) := by
  rcases staged with ⟨free, outside⟩ | ⟨held, inside⟩
  · exact outside.serve free good
  · exact inside.serve held good

/-! Any number of flushes. -/

def ids (world : World OsCalls Os Flush) : List Nat := world.threads.map fun thread => thread.owner.id

theorem ids_set {world : World OsCalls Os Flush} {index : Nat} {thread : Thread OsCalls Os Flush}
    (found : world.threads[index]? = some thread) {shared : Os} {history : List Os} {past : List (Served OsCalls Os)}
    {rest : OsProgram} :
    ids { shared := shared, history := history
          threads := world.threads.set index { owner := thread.owner, past := past, rest := rest } } = ids world := by
  exact map_set_of_key found rfl

structure Sound (world : World OsCalls Os Flush) : Prop where
  good : world.shared.Good
  apart : (ids world).Nodup
  held : ∀ id, world.shared.holder = some id → id ∈ ids world
  staged : ∀ thread ∈ world.threads, thread.owner.id ∈ world.shared.dead ∨
    Staged world.shared thread.owner thread.past thread.rest
  covered : ∀ thread ∈ world.threads, Published thread.owner thread.past →
    ∃ seen, seenBy thread.past = some seen ∧ world.shared.Covers seen

theorem Sound.start {start : World OsCalls Os Flush} (fresh : start.threads = [])
    (absent : start.shared.output = none) (unlocked : start.shared.holder = none) : Sound start where
  good := ⟨Detections.none, Or.inl ⟨absent, rfl⟩, List.nodup_nil⟩
  apart := by simp [ids, fresh]
  held id taken := by simp [unlocked] at taken
  staged := by simp [fresh]
  covered := by simp [fresh]

theorem Sound.spawn {world : World OsCalls Os Flush} (sound : Sound world) {f : Flush}
    (new : ∀ thread ∈ world.threads, thread.owner.id ≠ f.id) :
    Sound { world with threads := world.threads ++ [flushing.started f] } where
  good := sound.good
  apart := by
    rw [ids, List.map_append]
    refine List.nodup_append.mpr ⟨sound.apart, List.nodup_singleton _, ?_⟩
    rintro id old _ last
    obtain ⟨thread, member, rfl⟩ := List.mem_map.mp old
    obtain rfl := List.mem_singleton.mp last
    exact new thread member
  held id taken := by
    rw [ids, List.map_append]
    exact List.mem_append_left _ (sound.held id taken)
  staged thread member := by
    rcases List.mem_append.mp member with old | last
    · exact sound.staged thread old
    · obtain rfl := List.mem_singleton.mp last
      refine Or.inr (Or.inl ⟨fun taken => ?_, .begun (by simp [System.started])⟩)
      obtain ⟨thread, old, same⟩ := List.mem_map.mp (sound.held f.id taken)
      exact new thread old same
  covered thread member published := by
    rcases List.mem_append.mp member with old | last
    · exact sound.covered thread old published
    · obtain rfl := List.mem_singleton.mp last
      simp [Published, System.started] at published

theorem Sound.act {world : World OsCalls Os Flush} (sound : Sound world) (deed : Deed) :
    Sound { world with shared := world.shared.act deed, history := world.states } := by
  have same : (world.shared.act deed).output = world.shared.output := by cases deed <;> rfl
  refine { good := sound.good.of_output same, apart := sound.apart, held := ?_, staged := ?_, covered := ?_ }
  · intro id taken
    cases deed with
    | change process change => exact sound.held id taken
    | kill flush =>
      refine sound.held id ?_
      simp only [Os.act] at taken
      split at taken
      · cases taken
      · exact taken
  · intro thread member
    rcases sound.staged thread member with dead | staged
    · left
      cases deed with
      | change process change => exact dead
      | kill flush => exact List.mem_cons_of_mem _ dead
    · cases deed with
      | change process change =>
        have courteous : Courteous (thread.owner.id + 1) world.shared (world.shared.act (.change process change)) :=
          Or.inl ⟨rfl, rfl, rfl⟩
        exact Or.inr (staged.of_courteous courteous (Nat.lt_succ_self thread.owner.id).ne)
      | kill flush =>
        by_cases victim : thread.owner.id = flush
        · exact Or.inl (List.mem_cons.mpr (Or.inl victim))
        · refine Or.inr (staged.of_courteous ?_ victim)
          by_cases holds : world.shared.holder = some flush
          · exact Or.inr ⟨Or.inr holds, Or.inl (if_pos holds)⟩
          · exact Or.inl ⟨rfl, rfl, if_neg holds⟩
  · intro thread member published
    obtain ⟨seen, saw, covers⟩ := sound.covered thread member published
    exact ⟨seen, saw, covers.grows (grows_of_output same)⟩

theorem Sound.serve {world : World OsCalls Os Flush} (sound : Sound world) {luck : Luck} {index : Nat}
    {thread : Thread OsCalls Os Flush} {request : OsRequest} {rest : OsAnswer request → OsProgram}
    (found : world.threads[index]? = some thread) (calls : thread.rest = .call request rest)
    (alive : thread.owner.id ∉ world.shared.dead) :
    Sound { shared := (perform luck world.shared request).2
            history := world.states
            threads := world.threads.set index
              { owner := thread.owner
                past := thread.past ++ [⟨world.shared, request, (perform luck world.shared request).1⟩]
                rest := rest (perform luck world.shared request).1 } } := by
  have here : thread ∈ world.threads := List.mem_of_getElem? found
  have staged : Staged world.shared thread.owner thread.past (.call request rest) :=
    calls ▸ (sound.staged thread here).resolve_left alive
  have advances := staged.serve luck sound.good
  refine { good := advances.good, apart := ?_, held := ?_, staged := ?_, covered := ?_ }
  · rw [ids_set found]
    exact sound.apart
  · intro id taken
    rw [ids_set found]
    rcases advances.courteous with ⟨_, _, same⟩ | ⟨_, free | mine⟩
    · exact sound.held id (same ▸ taken)
    · exact absurd (free.symm.trans taken) (by simp)
    · obtain rfl := Option.some.inj (mine.symm.trans taken)
      exact List.mem_map_of_mem here
  · intro other member
    rcases mem_set_cases sound.apart found member with rfl | ⟨old, different⟩
    · exact Or.inr advances.staged
    · rw [advances.dead]
      exact (sound.staged other old).imp_right fun staged => staged.of_courteous advances.courteous different
  · intro other member published
    rcases mem_set_cases sound.apart found member with rfl | ⟨old, _⟩
    · rcases published_append.mp published with before | now
      · obtain ⟨seen, saw, covers⟩ := sound.covered thread here before
        exact ⟨seen, seenBy_append saw _, covers.grows advances.grows⟩
      · exact advances.covers now
    · obtain ⟨seen, saw, covers⟩ := sound.covered other old published
      exact ⟨seen, saw, covers.grows advances.grows⟩

theorem Sound.step {world next : World OsCalls Os Flush} {move : Move Flush Deed Luck} (sound : Sound world)
    (allowed : Permitted world move) (moved : flushing.step world move = some next) : Sound next := by
  rcases System.step_cases moved with ⟨f, owner, rfl, found, rfl⟩ | ⟨deed, rfl, rfl⟩ |
    ⟨index, luck, thread, request, rest, rfl, found, calls, rfl⟩
  · obtain rfl := Option.some.inj found
    exact sound.spawn allowed
  · exact sound.act deed
  · exact sound.serve found calls (allowed thread found)

theorem Sound.reached {start world : World OsCalls Os Flush} (sound : Sound start)
    (reached : flushing.Reaches Permitted start world) : Sound world :=
  System.Reaches.invariant sound (fun _ _ _ _ sound allowed moved => sound.step allowed moved) reached

/-- Every read finds no file or a complete document, in which each dataset of each flush
that replaced the file stands once. -/
theorem detections_kept {start world : World OsCalls Os Flush} (fresh : start.threads = [])
    (absent : start.shared.output = none) (unlocked : start.shared.holder = none)
    (reached : flushing.Reaches Permitted start world) :
    (world.shared.output = none ∨ ∃ value, world.shared.output = some (.whole value)) ∧
      ∀ thread ∈ world.threads, Published thread.owner thread.past →
        ∃ seen, seenBy thread.past = some seen ∧
          ∀ entry ∈ seen.datasets, (identities world.shared.listed).count (datasetIdentity entry) = 1 := by
  have sound := (Sound.start fresh absent unlocked).reached reached
  obtain ⟨detections, told, distinct⟩ := sound.good
  refine ⟨told.whole, fun thread member published => ?_⟩
  obtain ⟨seen, saw, covers⟩ := sound.covered thread member published
  refine ⟨seen, saw, fun entry present => ?_⟩
  have here := covers entry present
  rw [told.listed] at here ⊢
  exact List.count_eq_one_of_mem distinct here

def permits (world : World OsCalls Os Flush) : Move Flush Deed Luck → Bool
  | .spawn f => world.threads.all fun thread => thread.owner.id != f.id
  | .act _ => true
  | .serve index _ => world.threads[index]?.all fun thread => !world.shared.dead.contains thread.owner.id

theorem permitted_of_permits (world : World OsCalls Os Flush) (move : Move Flush Deed Luck)
    (checked : permits world move = true) : Permitted world move := by
  cases move with
  | spawn f => simpa [permits, Permitted] using checked
  | act deed => trivial
  | serve index luck =>
    intro thread found
    simpa [permits, found] using checked

def namedDataset (name : String) : Dict := Keyed.ofList [("dataset_name", .str name)]

/-- Two processes of which the first has detected one dataset and the second two. -/
def twoProcesses : World OsCalls Os Flush := World.initial Flush
  { output := none
    temporary := fun _ => none
    holder := none
    dead := []
    memory := fun process =>
      { datasets := if process = 1 then [namedDataset "imdb"] else [namedDataset "imdb", namedDataset "squad"]
        info := ∅ }
    taken := [] }

/-- The first flush dies while it writes, the other two go on one after the other. -/
def killedWhileWriting : List (Move Flush Deed Luck) :=
  [.spawn ⟨1, 1, 7⟩, .spawn ⟨2, 2, 7⟩, .spawn ⟨3, 1, 8⟩] ++
    [0, 0, 0, 0, 0, 1, 2].map (Move.serve · ⟨true⟩) ++ [.act (.kill 1)] ++
    [1, 1, 2, 1, 1, 1, 1, 1, 2, 2, 2, 2, 2, 2].map (Move.serve · ⟨true⟩)

theorem detections_kept_though_killed : ∃ world, flushing.Reaches Permitted twoProcesses world ∧
    (world.shared.output = none ∨ ∃ value, world.shared.output = some (.whole value)) ∧
    identities world.shared.listed = [namedDataset "imdb", namedDataset "squad"].map datasetIdentity ∧
    ∀ thread ∈ world.threads, Published thread.owner thread.past →
      ∃ seen, seenBy thread.past = some seen ∧
        ∀ entry ∈ seen.datasets, (identities world.shared.listed).count (datasetIdentity entry) = 1 := by
  have ends : ((flushing.checkedRun permits twoProcesses killedWhileWriting).map fun world =>
      identities world.shared.listed) = some ([namedDataset "imdb", namedDataset "squad"].map datasetIdentity) := by
    decide
  obtain ⟨world, ran, listed⟩ := Option.map_eq_some_iff.mp ends
  have reached := System.reaches_of_checkedRun permitted_of_permits ran
  have kept := detections_kept rfl rfl rfl reached
  exact ⟨world, reached, kept.1, listed, kept.2⟩

end AibomWebhook.DetectionFile
