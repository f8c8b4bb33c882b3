import AibomWebhook.DetectionFile

/-! The order of one process's flushes. The snapshot is taken under one lock and written
under another, so two flushes of a process can write in the other order. -/

namespace AibomWebhook.SnapshotOrder
open DetectionMerge DetectionFile PyValue Requests

/-- The `runtime_info` that a reader finds in the file. -/
def storedInfo (os : Os) : Dict :=
  (os.reading.asDict.bind fun dict => (dict.getD "runtime_info" (.dict [])).asDict).getD ∅

/-- The file has each key of a snapshot with the snapshot's value. -/
def Stands (os : Os) (seen : Memory) : Prop :=
  ∀ key value, seen.info.get? key = some value → (storedInfo os).get? key = some value

/-- Everything that the process held at its last snapshot is in the file. -/
def LatestStands (world : World OsCalls Os Flush) : Prop :=
  ∀ thread ∈ world.threads, world.shared.taken.head? = some thread.owner.id →
    ∃ seen, seenBy thread.past = some seen ∧ Stands world.shared seen

/-- Every flush that took a snapshot has written it. -/
def Finished (world : World OsCalls Os Flush) : Prop :=
  ∀ thread ∈ world.threads, seenBy thread.past ≠ none → Published thread.owner thread.past

/-- The flushes of one process only. -/
def OneProcess (process : Nat) (world : World OsCalls Os Flush) (move : Move Flush Deed Luck) : Prop :=
  Permitted world move ∧ ∀ f, move = .spawn f → f.process = process

/-- A flush that is about to replace the file took its snapshot after all flushes that
have replaced it. -/
def InOrder (world : World OsCalls Os Flush) : Move Flush Deed Luck → Prop
  | .serve index _ => ∀ thread pid next, world.threads[index]? = some thread →
      thread.rest = .call (.replace pid) next → ∀ other ∈ world.threads, Published other.owner other.past →
        world.shared.taken.idxOf thread.owner.id < world.shared.taken.idxOf other.owner.id
  | _ => True

theorem storedInfo_text {os : Os} {detections : Detections} (output : os.output = some (.whole detections.text)) :
    storedInfo os = detections.info := by
  obtain ⟨dict, read, _, stored⟩ := document_datasets (.list (detections.datasets.map Value.ofDict)) detections.info
  have text : os.reading.asDict = some dict := by
    rw [Os.reading, output]
    exact read
  rw [storedInfo, text, Option.bind_some, stored, Option.getD_some]

/-- What is merged into the file stands in it. -/
theorem stands_of_merges {os next : Os} {seen : Memory} {detections : Detections} (merges : os.Merges seen detections)
    (output : next.output = some (.whole detections.text)) : Stands next seen := by
  obtain ⟨stored, _, done⟩ := merges
  obtain ⟨datasets, _, rfl⟩ := Option.map_eq_some_iff.mp done
  intro key value held
  rw [storedInfo_text output, mergeInfo, Dict.get?_update, held]
  rfl

theorem Stands.of_output {os next : Os} {seen : Memory} (same : next.output = os.output) (stands : Stands os seen) :
    Stands next seen := by
  have info : storedInfo next = storedInfo os := by rw [storedInfo, Os.reading, same, storedInfo, Os.reading]
  intro key value held
  rw [info]
  exact stands key value held

/-! What a step of a flush records. -/

theorem seenBy_append_of_none {past : List (Served OsCalls Os)} {entry : Served OsCalls Os}
    (other : ∀ flush process, entry.request ≠ .remember flush process) : seenBy (past ++ [entry]) = seenBy past := by
  obtain ⟨before, request, answer⟩ := entry
  rw [seenBy, List.findSome?_append, ← seenBy]
  cases request with
  | remember flush process => exact absurd rfl (other flush process)
  | _ => exact Option.or_none

inductive Records (os : Os) (f : Flush) (past : List (Served OsCalls Os)) (request : OsRequest) (next : Os) : Prop where
  | takes (process : Nat) (now : request = .remember f.id process) (unseen : seenBy past = none)
    (taken : next.taken = f.id :: os.taken) (output : next.output = os.output)
  | writes (now : request = .replace f.pid) (taken : next.taken = os.taken) (seen : Memory)
    (saw : seenBy past = some seen) (stands : Stands next seen)
  | nothing (untaken : ∀ flush process, request ≠ .remember flush process) (unwritten : request ≠ .replace f.pid)
    (taken : next.taken = os.taken) (output : next.output = os.output)

theorem records {os : Os} {f : Flush} {past : List (Served OsCalls Os)} {request : OsRequest}
    {next : OsAnswer request → OsProgram} (luck : Luck) (staged : Staged os f past (.call request next)) :
    Records os f past request (perform luck os request).2 := by
  generalize whole : (Program.call request next : OsProgram) = rest at staged
  rcases staged with ⟨_, outside⟩ | ⟨held, inside⟩
  · cases outside with
    | begun early =>
      rw [flush] at whole
      cases whole
      exact .nothing (by simp) (by simp) rfl rfl
    | detected early =>
      rw [snapshot] at whole
      cases whole
      exact .takes f.process rfl (seenBy_early early) rfl rfl
    | waiting seen saw =>
      rw [write] at whole
      cases whole
      refine .nothing (by simp) (by simp) ?_ ?_ <;> (simp only [perform]; split <;> rfl)
    | ended => cases whole
  · cases inside with
    | locked seen saw =>
      rw [underLock] at whole
      cases whole
      exact .nothing (by simp) (by simp) rfl rfl
    | merged seen detections saw merges =>
      rw [store] at whole
      cases whole
      exact .nothing (by simp) (by simp) rfl rfl
    | opened seen detections saw merges =>
      rw [dump] at whole
      cases whole
      exact .nothing (by simp) (by simp) rfl rfl
    | dumped seen detections saw merges ready =>
      rw [publish] at whole
      cases whole
      refine .writes rfl ?_ seen saw (stands_of_merges merges ?_) <;> simp only [perform, ready]
    | published =>
      rw [unlock] at whole
      cases whole
      exact .nothing (by simp) (by simp) rfl rfl

/-! The flush that wrote last, as long as flushes write in the order of their snapshots. -/

/-- The snapshot of this flush stands in the file, and no flush that wrote took one later. -/
structure LastWriter (world : World OsCalls Os Flush) (thread : Thread OsCalls Os Flush) : Prop where
  published : Published thread.owner thread.past
  stands : ∃ seen, seenBy thread.past = some seen ∧ Stands world.shared seen
  latest : ∀ other ∈ world.threads, Published other.owner other.past →
    world.shared.taken.idxOf thread.owner.id ≤ world.shared.taken.idxOf other.owner.id

structure Chronicle (world : World OsCalls Os Flush) : Prop where
  known : ∀ id ∈ world.shared.taken, id ∈ ids world
  takers : ∀ thread ∈ world.threads, thread.owner.id ∈ world.shared.taken ↔ seenBy thread.past ≠ none
  writer : (∀ thread ∈ world.threads, ¬Published thread.owner thread.past) ∨
    ∃ thread ∈ world.threads, LastWriter world thread

/-- Once all flushes that took a snapshot have written, the last writer took the last one. -/
theorem Chronicle.latestStands {world : World OsCalls Os Flush} (apart : (ids world).Nodup)
    (chronicle : Chronicle world) (finished : Finished world) : LatestStands world := by
  intro thread member first
  obtain ⟨rest, taken⟩ := List.head?_eq_some_iff.mp first
  have here : thread.owner.id ∈ world.shared.taken := by simp [taken]
  have published := finished thread member ((chronicle.takers thread member).mp here)
  rcases chronicle.writer with never | ⟨writer, present, last⟩
  · exact absurd published (never thread member)
  · have index : world.shared.taken.idxOf writer.owner.id ≤ world.shared.taken.idxOf thread.owner.id :=
      last.latest thread member published
    have zero : world.shared.taken.idxOf thread.owner.id = 0 := by rw [taken, List.idxOf_cons_self]
    have same : writer.owner.id = thread.owner.id := by
      have nothing := Nat.le_zero.mp (zero ▸ index)
      rw [taken] at nothing
      by_contra different
      rw [List.idxOf_cons_ne rest (Ne.symm different)] at nothing
      cases nothing
    obtain rfl : writer = thread := List.inj_on_of_nodup_map apart present member same
    exact last.stands

theorem Chronicle.start {start : World OsCalls Os Flush} (fresh : start.threads = [])
    (untaken : start.shared.taken = []) : Chronicle start where
  known := by simp [untaken]
  takers := by simp [fresh]
  writer := Or.inl (by simp [fresh])

theorem Chronicle.spawn {world : World OsCalls Os Flush} (chronicle : Chronicle world) {f : Flush}
    (new : ∀ thread ∈ world.threads, thread.owner.id ≠ f.id) :
    Chronicle { world with threads := world.threads ++ [flushing.started f] } where
  known id taken := by
    rw [ids, List.map_append]
    exact List.mem_append_left _ (chronicle.known id taken)
  takers thread member := by
    rcases List.mem_append.mp member with old | last
    · exact chronicle.takers thread old
    · obtain rfl := List.mem_singleton.mp last
      have unknown : f.id ∉ world.shared.taken := by
        intro taken
        obtain ⟨thread, old, same⟩ := List.mem_map.mp (chronicle.known f.id taken)
        exact new thread old same
      exact iff_of_false unknown (fun seen => seen rfl)
  writer := by
    have unpublished : ¬Published f [] := by simp [Published]
    rcases chronicle.writer with never | ⟨writer, present, last⟩
    · refine Or.inl fun thread member => ?_
      rcases List.mem_append.mp member with old | final
      · exact never thread old
      · obtain rfl := List.mem_singleton.mp final
        exact unpublished
    · refine Or.inr ⟨writer, List.mem_append_left _ present, last.published, last.stands, fun other member published => ?_⟩
      rcases List.mem_append.mp member with old | final
      · exact last.latest other old published
      · obtain rfl := List.mem_singleton.mp final
        exact absurd published unpublished

theorem Chronicle.act {world : World OsCalls Os Flush} (chronicle : Chronicle world) (deed : Deed) :
    Chronicle { world with shared := world.shared.act deed, history := world.states } := by
  have output : (world.shared.act deed).output = world.shared.output := by cases deed <;> rfl
  have taken : (world.shared.act deed).taken = world.shared.taken := by cases deed <;> rfl
  refine { known := ?_, takers := ?_, writer := ?_ }
  · simp only [taken]
    exact chronicle.known
  · simp only [taken]
    exact chronicle.takers
  · refine chronicle.writer.imp_right ?_
    rintro ⟨writer, present, last⟩
    obtain ⟨seen, saw, stands⟩ := last.stands
    refine ⟨writer, present, last.published, ⟨seen, saw, stands.of_output output⟩, ?_⟩
    simp only [taken]
    exact last.latest

section Serve
variable {world : World OsCalls Os Flush} {luck : Luck} {index : Nat} {thread : Thread OsCalls Os Flush}
  {request : OsRequest} {rest : OsAnswer request → OsProgram}

/-- The thread after its request was answered, and the world with it. -/
private abbrev served (luck : Luck) (world : World OsCalls Os Flush) (thread : Thread OsCalls Os Flush)
    (request : OsRequest) (rest : OsAnswer request → OsProgram) : Thread OsCalls Os Flush :=
  { owner := thread.owner
    past := thread.past ++ [⟨world.shared, request, (perform luck world.shared request).1⟩]
    rest := rest (perform luck world.shared request).1 }

private abbrev after (luck : Luck) (world : World OsCalls Os Flush) (index : Nat) (thread : Thread OsCalls Os Flush)
    (request : OsRequest) (rest : OsAnswer request → OsProgram) : World OsCalls Os Flush :=
  { shared := (perform luck world.shared request).2
    history := world.states
    threads := world.threads.set index (served luck world thread request rest) }

/-- Who has written is as before, unless the file was replaced. -/
theorem published_served (unwritten : request ≠ .replace thread.owner.pid) :
    Published thread.owner (served luck world thread request rest).past ↔ Published thread.owner thread.past := by
  rw [published_append]
  exact or_iff_left unwritten

theorem Chronicle.takes (sound : Sound world) (chronicle : Chronicle world)
    (found : world.threads[index]? = some thread) {process : Nat} (now : request = .remember thread.owner.id process)
    (unseen : seenBy thread.past = none)
    (taken : (perform luck world.shared request).2.taken = thread.owner.id :: world.shared.taken)
    (output : (perform luck world.shared request).2.output = world.shared.output) :
    Chronicle (after luck world index thread request rest) := by
  have here : thread ∈ world.threads := List.mem_of_getElem? found
  have unwritten : request ≠ .replace thread.owner.pid := by simp [now]
  have silent : ¬Published thread.owner thread.past := fun published => by
    obtain ⟨seen, saw, _⟩ := sound.covered thread here published
    rw [unseen] at saw
    cases saw
  refine { known := ?_, takers := ?_, writer := ?_ }
  · intro id member
    rw [ids_set found]
    rw [taken] at member
    rcases List.mem_cons.mp member with rfl | old
    · exact List.mem_map_of_mem here
    · exact chronicle.known id old
  · intro other member
    rw [taken]
    rcases mem_set_cases sound.apart found member with rfl | ⟨old, different⟩
    · refine iff_of_true List.mem_cons_self ?_
      subst now
      rw [seenBy, List.findSome?_append, ← seenBy, unseen]
      simp
    · rw [List.mem_cons, or_iff_right different]
      exact chronicle.takers other old
  · rcases chronicle.writer with never | ⟨writer, present, last⟩
    · refine Or.inl fun other member => ?_
      rcases mem_set_cases sound.apart found member with rfl | ⟨old, _⟩
      · exact fun published => silent ((published_served unwritten).mp published)
      · exact never other old
    · have apart : writer.owner.id ≠ thread.owner.id := fun same => by
        obtain rfl : writer = thread := List.inj_on_of_nodup_map sound.apart present here same
        exact silent last.published
      have kept := (mem_set_of_mem found present (served luck world thread request rest)).resolve_left
        (fun same => apart (by rw [same]))
      obtain ⟨seen, saw, stands⟩ := last.stands
      refine Or.inr ⟨writer, kept, last.published, ⟨seen, saw, stands.of_output output⟩, fun other member published => ?_⟩
      rw [taken]
      rcases mem_set_cases sound.apart found member with rfl | ⟨old, different⟩
      · exact absurd ((published_served unwritten).mp published) silent
      · rw [List.idxOf_cons_ne _ (Ne.symm apart), List.idxOf_cons_ne _ (Ne.symm different)]
        exact Nat.succ_le_succ (last.latest other old published)

theorem Chronicle.writes (sound : Sound world) (chronicle : Chronicle world)
    (found : world.threads[index]? = some thread) (calls : thread.rest = .call request rest)
    (now : request = .replace thread.owner.pid)
    (taken : (perform luck world.shared request).2.taken = world.shared.taken) {seen : Memory}
    (saw : seenBy thread.past = some seen) (stands : Stands (perform luck world.shared request).2 seen)
    (ordered : InOrder world (.serve index luck)) : Chronicle (after luck world index thread request rest) := by
  have here : thread ∈ world.threads := List.mem_of_getElem? found
  have still := seenBy_append saw ⟨world.shared, request, (perform luck world.shared request).1⟩
  obtain ⟨place, _⟩ := List.getElem?_eq_some_iff.mp found
  refine { known := ?_, takers := ?_, writer := Or.inr ⟨_, List.mem_set place _, ?_, ⟨seen, still, stands⟩, ?_⟩ }
  · rw [taken, ids_set found]
    exact chronicle.known
  · intro other member
    rw [taken]
    rcases mem_set_cases sound.apart found member with rfl | ⟨old, _⟩
    · refine iff_of_true ((chronicle.takers thread here).mpr (by simp [saw])) ?_
      rw [still]
      simp
    · exact chronicle.takers other old
  · exact published_append.mpr (Or.inr now)
  · intro other member published
    rw [taken]
    rcases mem_set_cases sound.apart found member with rfl | ⟨old, _⟩
    · exact Nat.le_refl _
    · subst now
      exact Nat.le_of_lt (ordered thread _ rest found calls other old published)

theorem Chronicle.nothing (sound : Sound world) (chronicle : Chronicle world)
    (found : world.threads[index]? = some thread) (untaken : ∀ flush process, request ≠ .remember flush process)
    (unwritten : request ≠ .replace thread.owner.pid)
    (taken : (perform luck world.shared request).2.taken = world.shared.taken)
    (output : (perform luck world.shared request).2.output = world.shared.output) :
    Chronicle (after luck world index thread request rest) := by
  have here : thread ∈ world.threads := List.mem_of_getElem? found
  obtain ⟨place, _⟩ := List.getElem?_eq_some_iff.mp found
  have same : seenBy (served luck world thread request rest).past = seenBy thread.past := seenBy_append_of_none untaken
  refine { known := ?_, takers := ?_, writer := ?_ }
  · rw [taken, ids_set found]
    exact chronicle.known
  · intro other member
    rw [taken]
    rcases mem_set_cases sound.apart found member with rfl | ⟨old, _⟩
    · rw [same]
      exact chronicle.takers thread here
    · exact chronicle.takers other old
  · have latest (writer : Thread OsCalls Os Flush) (last : LastWriter world writer) :
        ∀ other ∈ world.threads.set index (served luck world thread request rest), Published other.owner other.past →
          (perform luck world.shared request).2.taken.idxOf writer.owner.id ≤
            (perform luck world.shared request).2.taken.idxOf other.owner.id := by
      intro other member published
      rw [taken]
      rcases mem_set_cases sound.apart found member with rfl | ⟨old, _⟩
      · exact last.latest thread here ((published_served unwritten).mp published)
      · exact last.latest other old published
    rcases chronicle.writer with never | ⟨writer, present, last⟩
    · refine Or.inl fun other member => ?_
      rcases mem_set_cases sound.apart found member with rfl | ⟨old, _⟩
      · exact fun published => never thread here ((published_served unwritten).mp published)
      · exact never other old
    · obtain ⟨seen, saw, stands⟩ := last.stands
      rcases mem_set_of_mem found present (served luck world thread request rest) with rfl | kept
      · exact Or.inr ⟨_, List.mem_set place _, (published_served unwritten).mpr last.published,
          ⟨seen, same.trans saw, stands.of_output output⟩, latest writer last⟩
      · exact Or.inr ⟨writer, kept, last.published, ⟨seen, saw, stands.of_output output⟩, latest writer last⟩

end Serve

def Recorded (world : World OsCalls Os Flush) : Prop := Sound world ∧ Chronicle world

theorem Recorded.step {world next : World OsCalls Os Flush} {move : Move Flush Deed Luck} (recorded : Recorded world)
    (allowed : Permitted world move) (ordered : InOrder world move) (moved : flushing.step world move = some next) :
    Recorded next := by
  obtain ⟨sound, chronicle⟩ := recorded
  refine ⟨sound.step allowed moved, ?_⟩
  rcases System.step_cases moved with ⟨f, owner, rfl, found, rfl⟩ | ⟨deed, rfl, rfl⟩ |
    ⟨index, luck, thread, request, rest, rfl, found, calls, rfl⟩
  · obtain rfl := Option.some.inj found
    exact chronicle.spawn allowed
  · exact chronicle.act deed
  · have staged : Staged world.shared thread.owner thread.past (.call request rest) :=
      calls ▸ (sound.staged thread (List.mem_of_getElem? found)).resolve_left (allowed thread found)
    cases records luck staged with
    | takes process now unseen taken output => exact chronicle.takes sound found now unseen taken output
    | writes now taken seen saw stands => exact chronicle.writes sound found calls now taken saw stands ordered
    | nothing untaken unwritten taken output => exact chronicle.nothing sound found untaken unwritten taken output

/-- In a run where flushes write in the order of their snapshots, the last snapshot
stands in the file whenever all that were taken have been written. -/
theorem latest_stands_in_order {process : Nat} {start world : World OsCalls Os Flush} (fresh : start.threads = [])
    (absent : start.shared.output = none) (unlocked : start.shared.holder = none) (untaken : start.shared.taken = [])
    (reached : flushing.Reaches (fun world move => OneProcess process world move ∧ InOrder world move) start world)
    (finished : Finished world) : LatestStands world := by
  have begin : Recorded start := ⟨Sound.start fresh absent unlocked, Chronicle.start fresh untaken⟩
  obtain ⟨sound, chronicle⟩ : Recorded world := System.Reaches.invariant begin
    (fun _ _ _ _ recorded allowed moved => recorded.step allowed.1.1 allowed.2 moved) reached
  exact chronicle.latestStands sound.apart finished

/-! A run in which the timer's flush is overtaken by the one at exit. -/

def trainingFor (epochs : Int) : Memory where
  datasets := []
  info := Keyed.ofList [("epochs", .int epochs)]

def training : World OsCalls Os Flush := World.initial Flush
  { output := none
    temporary := fun _ => none
    holder := none
    dead := []
    memory := fun _ => trainingFor 3
    taken := [] }

/-- Between the two snapshots the process sets up its training anew. -/
def snapshots : List (Move Flush Deed Luck) :=
  [.spawn ⟨1, 1, 7⟩, .serve 0 ⟨true⟩, .serve 0 ⟨true⟩, .act (.change 1 fun _ => trainingFor 5),
    .spawn ⟨2, 1, 7⟩, .serve 1 ⟨true⟩, .serve 1 ⟨true⟩]

/-- All that a flush does after its snapshot. -/
def writing (index : Nat) : List (Move Flush Deed Luck) := List.replicate 6 (.serve index ⟨true⟩)

def hasReplaced (thread : Thread OsCalls Os Flush) : Bool :=
  thread.past.any fun entry =>
    match entry.request with
    | .replace pid => pid == thread.owner.pid
    | _ => false

theorem hasReplaced_iff (thread : Thread OsCalls Os Flush) :
    hasReplaced thread = true ↔ Published thread.owner thread.past := by
  rw [hasReplaced, List.any_eq_true, Published]
  refine exists_congr fun entry => and_congr_right fun _ => ?_
  obtain ⟨before, request, answer⟩ := entry
  cases request <;> simp

def ordersKept (process : Nat) (world : World OsCalls Os Flush) (move : Move Flush Deed Luck) : Bool :=
  permits world move &&
    match move with
    | .spawn f => f.process == process
    | .act _ => true
    | .serve index _ => world.threads[index]?.all fun thread =>
      match thread.rest with
      | .call (.replace _) _ => world.threads.all fun other =>
        !hasReplaced other || decide (world.shared.taken.idxOf thread.owner.id < world.shared.taken.idxOf other.owner.id)
      | _ => true

theorem ordered_of_ordersKept {process : Nat} (world : World OsCalls Os Flush) (move : Move Flush Deed Luck)
    (checked : ordersKept process world move = true) : OneProcess process world move ∧ InOrder world move := by
  unfold ordersKept at checked
  rw [Bool.and_eq_true] at checked
  obtain ⟨allowed, ordered⟩ := checked
  refine ⟨⟨permitted_of_permits world move allowed, ?_⟩, ?_⟩
  · rintro f rfl
    simpa using ordered
  · cases move with
    | spawn f => trivial
    | act deed => trivial
    | serve index luck =>
      intro thread pid next found calls other member published
      simp only [found, Option.all_some, calls, List.all_eq_true] at ordered
      have earlier := ordered other member
      rw [(hasReplaced_iff other).mpr published] at earlier
      simpa using earlier

theorem finished_of_replaced {world : World OsCalls Os Flush} (all : world.threads.all hasReplaced = true) :
    Finished world :=
  fun thread member _ => (hasReplaced_iff thread).mp (List.all_eq_true.mp all thread member)

theorem latest_stands_when_written_in_order : ∃ world,
    flushing.Reaches (fun world move => OneProcess 1 world move ∧ InOrder world move) training world ∧
      Finished world ∧ LatestStands world := by
  have ends : ((flushing.checkedRun (ordersKept 1) training (snapshots ++ writing 0 ++ writing 1)).map fun world =>
      world.threads.all hasReplaced) = some true := by decide
  obtain ⟨world, ran, all⟩ := Option.map_eq_some_iff.mp ends
  have reached := System.reaches_of_checkedRun ordered_of_ordersKept ran
  have finished := finished_of_replaced all
  exact ⟨world, reached, finished, latest_stands_in_order rfl rfl rfl rfl reached finished⟩

def ofOneProcess (process : Nat) (world : World OsCalls Os Flush) (move : Move Flush Deed Luck) : Bool :=
  permits world move &&
    match move with
    | .spawn f => f.process == process
    | _ => true

theorem oneProcess_of {process : Nat} (world : World OsCalls Os Flush) (move : Move Flush Deed Luck)
    (checked : ofOneProcess process world move = true) : OneProcess process world move := by
  unfold ofOneProcess at checked
  rw [Bool.and_eq_true] at checked
  refine ⟨permitted_of_permits world move checked.1, ?_⟩
  rintro f rfl
  exact beq_iff_eq.mp checked.2

theorem training_overwritten :
    ((flushing.checkedRun (ofOneProcess 1) training (snapshots ++ writing 1 ++ writing 0)).map fun world =>
    (world.threads.all hasReplaced, (storedInfo world.shared).get? "epochs",
      world.threads[1]?.map fun thread => (decide (world.shared.taken.head? = some thread.owner.id),
        (seenBy thread.past).bind fun seen => seen.info.get? "epochs"))) =
    some (true, some (.int 3), some (true, some (.int 5))) := by
  decide

/-- The flush at exit wrote five epochs, then the timer's wrote the three it had seen. -/
theorem earlier_snapshot_overwrites : ∃ world, flushing.Reaches (OneProcess 1) training world ∧ Finished world ∧
    ¬LatestStands world := by
  obtain ⟨world, ran, result⟩ := Option.map_eq_some_iff.mp training_overwritten
  simp only [Prod.mk.injEq] at result
  obtain ⟨all, stored, last⟩ := result
  obtain ⟨thread, found, final⟩ := Option.map_eq_some_iff.mp last
  simp only [Prod.mk.injEq, decide_eq_true_eq] at final
  refine ⟨world, System.reaches_of_checkedRun oneProcess_of ran, finished_of_replaced all, fun stands => ?_⟩
  obtain ⟨seen, saw, present⟩ := stands thread (List.mem_of_getElem? found) final.1
  rw [saw] at final
  have now := present "epochs" (.int 5) final.2
  rw [stored] at now
  exact absurd now (by decide)

end AibomWebhook.SnapshotOrder
