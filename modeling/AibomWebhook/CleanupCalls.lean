import AibomWebhook.Cleanup

/-! What the cleanup promises of its own requests, whatever it is answered: each patch
comes from a reading of the object, every listed object is seen to, and the counts are
those of the patches that went through. -/

namespace AibomWebhook.CleanupCalls
open Cleanup Events FinalizerLedger Kubernetes Objects Requests

abbrev Entries := List (Served CleanupServer Service)

def finalizerOf (kind : Kind) : String := if kind = .pod then podFinalizerName else finalizerName

/-- A request was sent, and answered so. -/
def Shows (past : Entries) (request : CleanupRequest) (response : Answer request) : Prop :=
  ∃ before, (⟨before, request, response⟩ : Served CleanupServer Service) ∈ past

/-- The last that was heard of an object is that it does not have the finalizer. -/
inductive Settled (past : Entries) (kind : Kind) (key : Key) : Prop where
  | gone (shown : Shows past (.get kind key) (.error .notFound))
  | free (object : Object kind) (shown : Shows past (.get kind key) (.ok object))
      (without : holdsFinalizer (finalizerOf kind) object = false)
  | stripped (change : MergePatch) (object : Object kind) (shown : Shows past (.patch kind key change) (.ok object))

def patchedKey (kind : Kind) : Served CleanupServer Service → Option Key
  | ⟨_, .patch other key _, .ok _⟩ => if other = kind then some key else none
  | _ => none

theorem patchedKey_get (kind : Kind) (before : Service) (other : Kind) (key : Key) (response : Except ApiError (Object other)) :
    patchedKey kind ⟨before, .get other key, response⟩ = none := rfl

theorem patchedKey_patch (kind : Kind) (before : Service) (other : Kind) (key : Key) (change : MergePatch)
    (object : Object other) : patchedKey kind ⟨before, .patch other key change, .ok object⟩ =
      if other = kind then some key else none := rfl

/-- The objects of a kind that were patched, in order. -/
def patchedKeys (kind : Kind) (past : Entries) : List Key := past.filterMap (patchedKey kind)

def isPatch : Served CleanupServer Service → Bool
  | ⟨_, .patch _ _ _, _⟩ => true
  | _ => false

def isList : Served CleanupServer Service → Bool
  | ⟨_, .listPage _ _, _⟩ => true
  | _ => false

/-- A patch takes the finalizer off the object as it was read, in that version; a list
goes on after one that was not the end of it. -/
def Careful (past : Entries) : CleanupRequest → Prop
  | .listPage kind start => (start = "" ∨ ∃ from_ page, Shows past (.listPage kind from_) (.ok page)) ∧
      ∀ from_ page, Shows past (.listPage kind from_) (.ok page) → page.next ≠ ""
  | .get kind _ => kind = .job ∨ kind = .pod
  | .patch kind key change => ∃ object, Shows past (.get kind key) (.ok object) ∧
      finalizerOf kind ∈ object.metadata.finalizers ∧
      change = .setFinalizers (object.metadata.finalizers.filter (· ≠ finalizerOf kind)) (some object.metadata.resourceVersion)

section Past
variable {first second : Entries} {kind : Kind} {key : Key}

theorem Shows.append_left {request : CleanupRequest} {response : Answer request} (shown : Shows first request response) :
    Shows (first ++ second) request response := by
  obtain ⟨before, member⟩ := shown
  exact ⟨before, List.mem_append_left _ member⟩

theorem Shows.append_right {request : CleanupRequest} {response : Answer request} (shown : Shows second request response) :
    Shows (first ++ second) request response := by
  obtain ⟨before, member⟩ := shown
  exact ⟨before, List.mem_append_right _ member⟩

theorem shows_last (before : Service) (request : CleanupRequest) (response : Answer request) :
    Shows (first ++ [⟨before, request, response⟩]) request response := ⟨before, by simp⟩

theorem shows_append {request : CleanupRequest} {response : Answer request} :
    Shows (first ++ second) request response ↔ Shows first request response ∨ Shows second request response := by
  simp only [Shows, List.mem_append, exists_or]

theorem Settled.append_left (settled : Settled first kind key) : Settled (first ++ second) kind key := by
  cases settled with
  | gone shown => exact .gone shown.append_left
  | free object shown without => exact .free object shown.append_left without
  | stripped change object shown => exact .stripped change object shown.append_left

theorem Settled.append_right (settled : Settled second kind key) : Settled (first ++ second) kind key := by
  cases settled with
  | gone shown => exact .gone shown.append_right
  | free object shown without => exact .free object shown.append_right without
  | stripped change object shown => exact .stripped change object shown.append_right

@[simp] theorem patchedKeys_append : patchedKeys kind (first ++ second) = patchedKeys kind first ++ patchedKeys kind second :=
  List.filterMap_append

end Past

/-- A program that starts with some past, and what it returns and adds to it. -/
def Adds {α : Type} (program : CleanupProgram α) (start : Entries) (promise : α → Entries → Prop) : Prop :=
  program.Meets (fun _ _ _ => True) Careful (fun value past => ∃ later, past = start ++ later ∧ promise value later) start

section Adding
variable {α β : Type} {start : Entries}

theorem Adds.done {value : α} {promise : α → Entries → Prop} (kept : promise value []) :
    Adds (.done value) start promise := ⟨[], (List.append_nil start).symm, kept⟩

theorem Adds.mono {program : CleanupProgram α} {promise weaker : α → Entries → Prop} (adds : Adds program start promise)
    (implies : ∀ value later, promise value later → weaker value later) : Adds program start weaker := by
  apply Program.Meets.mono adds
  rintro value past ⟨later, rfl, kept⟩
  exact ⟨later, rfl, implies value later kept⟩

theorem Adds.bind {program : CleanupProgram α} {rest : α → CleanupProgram β} {promise : α → Entries → Prop}
    {final : β → Entries → Prop} (adds : Adds program start promise)
    (goesOn : ∀ value later, promise value later →
      Adds (rest value) (start ++ later) fun result further => final result (later ++ further)) :
    Adds (program >>= rest) start final := by
  apply Program.Meets.bind adds
  rintro value past ⟨later, rfl, kept⟩
  apply Program.Meets.mono (goesOn value later kept)
  rintro result whole ⟨further, rfl, ends⟩
  exact ⟨later ++ further, List.append_assoc _ _ _, ends⟩

theorem Adds.call {request : CleanupRequest} {next : Answer request → CleanupProgram α} {promise : α → Entries → Prop}
    (careful : Careful start request)
    (goesOn : ∀ before response, Adds (next response) (start ++ [⟨before, request, response⟩]) fun value later =>
      promise value (⟨before, request, response⟩ :: later)) :
    Adds (Program.call (I := CleanupServer) request next) start promise := by
  refine ⟨careful, fun before response _ => Program.Meets.mono (goesOn before response) ?_⟩
  rintro value past ⟨later, rfl, kept⟩
  exact ⟨⟨before, request, response⟩ :: later, by simp, kept⟩

end Adding

/-! One object. -/

def gained : Except ApiError Bool → Nat
  | .ok true => 1
  | _ => 0

def lost : Except ApiError Bool → Nat
  | .error _ => 1
  | .ok _ => 0

structure Attempted (kind : Kind) (key : Key) (value : Except ApiError Bool) (later : Entries) : Prop where
  visited : ∃ response, Shows later (.get kind key) response
  settled : ∀ removed, value = .ok removed → Settled later kind key
  counted : (patchedKeys kind later).length = gained value
  others : ∀ other, other ≠ kind → patchedKeys other later = []
  unlisted : ∀ entry ∈ later, isList entry = false

/-- An attempt that ends at the reading. -/
theorem attempted_reading {kind : Kind} {key : Key} {before : Service} {response : Except ApiError (Object kind)}
    {value : Except ApiError Bool} (notTrue : value ≠ .ok true)
    (settled : ∀ removed, value = .ok removed → Settled [⟨before, .get kind key, response⟩] kind key) :
    Attempted kind key value [⟨before, .get kind key, response⟩] where
  visited := ⟨response, before, List.mem_singleton_self _⟩
  settled := settled
  counted := by
    rcases value with error | removed
    · rfl
    · cases removed with
      | true => exact absurd rfl notTrue
      | false => rfl
  others _ _ := rfl
  unlisted := by simp [isList]

/-- An attempt that ends with a patch. -/
theorem attempted_patch {kind : Kind} {key : Key} {first second : Service} {reading : Except ApiError (Object kind)}
    {change : MergePatch} (answered : Except ApiError (Object kind)) : Attempted kind key (answered.map fun _ => true)
      [⟨first, .get kind key, reading⟩, ⟨second, .patch kind key change, answered⟩] where
  visited := ⟨reading, first, by simp⟩
  settled removed ended := by
    cases answered with
    | error error => cases ended
    | ok object => exact .stripped change object ⟨second, by simp⟩
  counted := by
    cases answered with
    | error error => rfl
    | ok object => simp [patchedKeys, List.filterMap_cons, patchedKey_patch, patchedKey_get, Except.map, gained]
  others other different := by
    cases answered with
    | error error => rfl
    | ok object => simp [patchedKeys, List.filterMap_cons, patchedKey_patch, patchedKey_get, Ne.symm different]
  unlisted := by simp [isList]

theorem attemptStrip_adds {kind : Kind} (swept : kind = .job ∨ kind = .pod) (key : Key) (start : Entries) :
    Adds (attemptStrip (finalizerOf kind) kind key) start (Attempted kind key) := by
  rw [attemptStrip, getObject_bind]
  refine Adds.call swept fun before response => ?_
  cases response with
  | error error =>
    by_cases gone : error = .notFound
    · subst gone
      exact Adds.done (attempted_reading (by simp) fun _ _ => .gone ⟨before, List.mem_singleton_self _⟩)
    · cases error with
      | notFound => exact absurd rfl gone
      | _ => exact Adds.done (attempted_reading (by simp) fun _ same => by cases same)
  | ok object =>
    simp only [finalizerRemovalPatch_eq]
    by_cases holds : finalizerOf kind ∈ object.metadata.finalizers
    · rw [if_pos holds]
      dsimp only
      rw [patchObject_bind]
      refine Adds.call ⟨object, shows_last _ _ _, holds, rfl⟩ fun second answered => ?_
      cases answered with
      | error error => exact Adds.done (attempted_patch (.error error))
      | ok patched => exact Adds.done (attempted_patch (.ok patched))
    · rw [if_neg holds]
      exact Adds.done (attempted_reading (by simp) fun _ _ =>
        .free object ⟨before, List.mem_singleton_self _⟩ (by simpa [holdsFinalizer] using holds))

/-- A failed attempt and all that comes after it. -/
theorem Attempted.again {kind : Kind} {key : Key} {error : ApiError} {value : Except ApiError Bool} {first second : Entries}
    (failed : Attempted kind key (.error error) first) (then_ : Attempted kind key value second) :
    Attempted kind key value (first ++ second) where
  visited := by
    obtain ⟨response, shown⟩ := failed.visited
    exact ⟨response, shown.append_left⟩
  settled removed ended := (then_.settled removed ended).append_right
  counted := by
    have none : (patchedKeys kind first).length = 0 := failed.counted
    rw [patchedKeys_append, List.length_append, none, Nat.zero_add, then_.counted]
  others other different := by
    rw [patchedKeys_append, failed.others other different, then_.others other different, List.append_nil]
  unlisted entry member := by
    rcases List.mem_append.mp member with early | late
    · exact failed.unlisted entry early
    · exact then_.unlisted entry late

theorem stripFinalizer_adds (again : Nat) {kind : Kind} (swept : kind = .job ∨ kind = .pod) (key : Key) (start : Entries) :
    Adds (stripFinalizer again (finalizerOf kind) kind key) start (Attempted kind key) := by
  unfold stripFinalizer
  induction again generalizing start with
  | zero => exact attemptStrip_adds swept key start
  | succ again ih =>
    rw [retryOnConflict]
    apply (attemptStrip_adds swept key start).bind
    intro value later attempted
    have whole : Attempted kind key value (later ++ []) := by
      rw [List.append_nil]
      exact attempted
    split
    · exact (ih _).mono fun _ _ last => attempted.again last
    · exact Adds.done whole
    · exact Adds.done whole

/-! The objects of a page. -/

structure Processed {kind : Kind} (items : List (Object kind)) (before after : Tally) (later : Entries) : Prop where
  visited : ∀ item ∈ items, holdsFinalizer (finalizerOf kind) item = true →
    ∃ response, Shows later (.get kind item.key) response
  failures : before.failures ≤ after.failures
  settled : after.failures = before.failures → ∀ item ∈ items, holdsFinalizer (finalizerOf kind) item = true →
    Settled later kind item.key
  counted : after.removed = before.removed + (patchedKeys kind later).length
  others : ∀ other, other ≠ kind → patchedKeys other later = []
  unlisted : ∀ entry ∈ later, isList entry = false

theorem count_failures (tally : Tally) (value : Except ApiError Bool) :
    (tally.count value).failures = tally.failures + lost value := by
  rcases value with error | removed
  · rfl
  · cases removed <;> rfl

theorem count_removed (tally : Tally) (value : Except ApiError Bool) :
    (tally.count value).removed = tally.removed + gained value := by
  rcases value with error | removed
  · rfl
  · cases removed <;> rfl

theorem stripItems_adds (again : Nat) {kind : Kind} (swept : kind = .job ∨ kind = .pod) (items : List (Object kind)) (tally : Tally) (start : Entries) :
    Adds (stripItems again (finalizerOf kind) items tally) start (Processed items tally) := by
  induction items generalizing tally start with
  | nil =>
    exact Adds.done
      { visited := by simp, failures := le_refl _, settled := by simp, counted := rfl, others := fun _ _ => rfl
        unlisted := by simp }
  | cons item rest ih =>
    rw [stripItems]
    split
    · rename_i without
      have without : holdsFinalizer (finalizerOf kind) item = false := by simpa using without
      refine (ih tally start).mono fun after later processed => { processed with visited := ?_, settled := ?_ }
      · intro other member holds
        rcases List.mem_cons.mp member with rfl | old
        · exact absurd holds (by simp [without])
        · exact processed.visited other old holds
      · intro same other member holds
        rcases List.mem_cons.mp member with rfl | old
        · exact absurd holds (by simp [without])
        · exact processed.settled same other old holds
    · apply (stripFinalizer_adds again swept item.key start).bind
      intro value early attempted
      refine (ih (tally.count value) _).mono fun after late processed => ?_
      have counted := count_failures tally value
      have below := processed.failures
      constructor
      · intro other member holds
        rcases List.mem_cons.mp member with rfl | old
        · obtain ⟨response, shown⟩ := attempted.visited
          exact ⟨response, shown.append_left⟩
        · obtain ⟨response, shown⟩ := processed.visited other old holds
          exact ⟨response, shown.append_right⟩
      · omega
      · intro same other member holds
        rcases List.mem_cons.mp member with rfl | old
        · rcases value with error | removed
          · simp only [lost] at counted
            omega
          · exact (attempted.settled removed rfl).append_left
        · have later : after.failures = (tally.count value).failures := by omega
          exact (processed.settled later other old holds).append_right
      · rw [processed.counted, count_removed, patchedKeys_append, List.length_append, attempted.counted]
        omega
      · intro other different
        rw [patchedKeys_append, attempted.others other different, processed.others other different, List.append_nil]
      · intro entry member
        rcases List.mem_append.mp member with first | second
        · exact attempted.unlisted entry first
        · exact processed.unlisted entry second

/-! The pages of a kind. -/

/-- Every object that was listed with the finalizer is read later on. -/
def SeenTo (kind : Kind) (past : Entries) : Prop :=
  ∀ before start (page : Page kind), (⟨before, .listPage kind start, .ok page⟩ : Served CleanupServer Service) ∈ past →
    ∀ item ∈ page.items, holdsFinalizer (finalizerOf kind) item = true → ∃ later response,
      List.Sublist [⟨before, .listPage kind start, .ok page⟩, ⟨later, .get kind item.key, response⟩] past

def AllSettled (kind : Kind) (past : Entries) : Prop :=
  ∀ start (page : Page kind), Shows past (.listPage kind start) (.ok page) → ∀ item ∈ page.items,
    holdsFinalizer (finalizerOf kind) item = true → Settled past kind item.key

def ListedToTheEnd (kind : Kind) (past : Entries) : Prop :=
  ∃ start, ∃ page : Page kind, Shows past (.listPage kind start) (.ok page) ∧ page.next = ""

structure Swept (kind : Kind) (before : Tally) (result : Option (Tally × Option ApiError)) (later : Entries) : Prop where
  seenTo : ∀ after error, result = some (after, error) → SeenTo kind later
  failures : ∀ after error, result = some (after, error) → before.failures ≤ after.failures
  settled : ∀ after error, result = some (after, error) → after.failures = before.failures → AllSettled kind later
  counted : ∀ after error, result = some (after, error) → after.removed = before.removed + (patchedKeys kind later).length
  ended : ∀ after, result = some (after, none) → ListedToTheEnd kind later
  others : ∀ other, other ≠ kind → patchedKeys other later = []
  unlisted : ∀ other, other ≠ kind → ∀ start response, ¬ Shows later (.listPage other start) response

theorem not_shows_list {past : Entries} (unlisted : ∀ entry ∈ past, isList entry = false) (kind : Kind) (start : String)
    (response : Except ApiError (Page kind)) : ¬ Shows past (.listPage kind start) response := by
  rintro ⟨before, member⟩
  have never := unlisted _ member
  simp [isList] at never

section Pages
variable {kind : Kind} {start : String} {first : Service} {page : Page kind} {early late : Entries} {before middle after : Tally}

/-- What a page and the processing of its objects show of lists is that page. -/
theorem shows_page {other : Kind} {from_ : String} {response : Except ApiError (Page other)}
    (processed : Processed page.items before middle early)
    (shown : Shows (⟨first, .listPage kind start, .ok page⟩ :: early) (.listPage other from_) response) :
    ∃ same : other = kind, from_ = start ∧ same ▸ response = .ok page := by
  obtain ⟨when_, member⟩ := shown
  rcases List.mem_cons.mp member with here | old
  · cases here
    exact ⟨rfl, rfl, rfl⟩
  · exact absurd ⟨when_, old⟩ (not_shows_list processed.unlisted other from_ response)

/-- The processing of one page. -/
theorem Processed.swept (processed : Processed page.items before middle early) :
    SeenTo kind (⟨first, .listPage kind start, .ok page⟩ :: early) ∧
      (middle.failures = before.failures → AllSettled kind (⟨first, .listPage kind start, .ok page⟩ :: early)) := by
  constructor
  · intro when_ from_ listed member item present holds
    rcases List.mem_cons.mp member with here | old
    · cases here
      obtain ⟨response, later, visited⟩ := processed.visited item present holds
      exact ⟨later, response, List.Sublist.cons_cons _ (List.singleton_sublist.mpr visited)⟩
    · exact absurd ⟨when_, old⟩ (not_shows_list processed.unlisted kind from_ (.ok listed))
  · intro same from_ listed shown item present holds
    obtain ⟨_, rfl, answered⟩ := shows_page processed shown
    obtain rfl : listed = page := Except.ok.inj answered
    rw [← List.singleton_append]
    exact (processed.settled same item present holds).append_right

theorem SeenTo.append {first second : Entries} (left : SeenTo kind first) (right : SeenTo kind second) :
    SeenTo kind (first ++ second) := by
  intro when_ from_ listed member item present holds
  rcases List.mem_append.mp member with old | new
  · obtain ⟨later, response, sub⟩ := left when_ from_ listed old item present holds
    exact ⟨later, response, sub.trans (List.sublist_append_left _ _)⟩
  · obtain ⟨later, response, sub⟩ := right when_ from_ listed new item present holds
    exact ⟨later, response, sub.trans (List.sublist_append_right _ _)⟩

theorem AllSettled.append {first second : Entries} (left : AllSettled kind first) (right : AllSettled kind second) :
    AllSettled kind (first ++ second) := by
  intro from_ listed shown item present holds
  rcases shows_append.mp shown with old | new
  · exact (left from_ listed old item present holds).append_left
  · exact (right from_ listed new item present holds).append_right

end Pages

/-- A list that fails, and is given up. -/
theorem swept_failed {kind : Kind} {tally : Tally} {start : String} {first : Service} {error : ApiError} :
    Swept kind tally (some (tally, some error)) [⟨first, .listPage kind start, .error error⟩] := by
  have nothing (other : Kind) (from_ : String) (page : Page other) :
      ¬ Shows [⟨first, .listPage kind start, .error error⟩] (.listPage other from_) (.ok page) := by
    rintro ⟨when_, member⟩
    cases List.mem_singleton.mp member
  constructor
  · rintro after error ⟨⟩ when_ from_ page member
    exact absurd ⟨when_, member⟩ (nothing kind from_ page)
  · rintro after error ⟨⟩
    exact le_refl _
  · rintro after error ⟨⟩ _ from_ page shown
    exact absurd shown (nothing kind from_ page)
  · rintro after error ⟨⟩
    rfl
  · rintro after ⟨⟩
  · intro other _
    rfl
  · rintro other different from_ response ⟨when_, member⟩
    cases List.mem_singleton.mp member
    exact different rfl

section Pages
variable {kind : Kind} {start : String} {first : Service} {page : Page kind} {early late : Entries} {before middle : Tally}

/-- The last page. -/
theorem Processed.last (processed : Processed page.items before middle early) (last : page.next = "") :
    Swept kind before (some (middle, none)) (⟨first, .listPage kind start, .ok page⟩ :: early) := by
  obtain ⟨seenTo, settled⟩ : SeenTo kind (⟨first, .listPage kind start, .ok page⟩ :: early) ∧ _ := processed.swept
  constructor
  · rintro after error ⟨⟩
    exact seenTo
  · rintro after error ⟨⟩
    exact processed.failures
  · rintro after error ⟨⟩ same
    exact settled same
  · rintro after error ⟨⟩
    exact processed.counted
  · rintro after ⟨⟩
    exact ⟨start, page, ⟨first, List.mem_cons_self⟩, last⟩
  · exact processed.others
  · intro other different from_ response shown
    obtain ⟨same, _⟩ := shows_page processed shown
    exact different same

/-- A page and those after it. -/
theorem Processed.andThen {result : Option (Tally × Option ApiError)} (processed : Processed page.items before middle early)
    (swept : Swept kind middle result late) :
    Swept kind before result (⟨first, .listPage kind start, .ok page⟩ :: (early ++ late)) := by
  obtain ⟨seenTo, settled⟩ : SeenTo kind (⟨first, .listPage kind start, .ok page⟩ :: early) ∧ _ := processed.swept
  have keys (other : Kind) : patchedKeys other (⟨first, .listPage kind start, .ok page⟩ :: (early ++ late)) =
      patchedKeys other early ++ patchedKeys other late := patchedKeys_append
  have above := processed.failures
  constructor
  · intro after error ended
    exact seenTo.append (swept.seenTo after error ended)
  · intro after error ended
    exact above.trans (swept.failures after error ended)
  · intro after error ended same
    have below := swept.failures after error ended
    have firstPart : middle.failures = before.failures := by omega
    have lastPart : after.failures = middle.failures := by omega
    exact (settled firstPart).append (swept.settled after error ended lastPart)
  · intro after error ended
    rw [swept.counted after error ended, processed.counted, keys, List.length_append, Nat.add_assoc]
  · intro after ended
    obtain ⟨from_, listed, shown, last⟩ := swept.ended after ended
    refine ⟨from_, listed, ?_, last⟩
    rw [← List.cons_append]
    exact shown.append_right
  · intro other different
    rw [keys, processed.others other different, swept.others other different, List.append_nil]
  · intro other different from_ response shown
    rw [← List.cons_append] at shown
    rcases shows_append.mp shown with here | later
    · obtain ⟨same, _⟩ := shows_page processed here
      exact different same
    · exact swept.unlisted other different from_ response later

/-- After a page that is not the last one the list may go on. -/
theorem Processed.ready {past : Entries} {start : String} (processed : Processed page.items before middle early)
    (ready : Careful past (.listPage kind start)) (goesOn : page.next ≠ "") :
    Careful (past ++ [⟨first, .listPage kind start, .ok page⟩] ++ early) (.listPage kind page.next) := by
  refine ⟨Or.inr ⟨start, page, (shows_last _ _ _).append_left⟩, fun from_ listed shown => ?_⟩
  rw [List.append_assoc] at shown
  rcases shows_append.mp shown with old | here
  · exact ready.2 from_ listed old
  · obtain ⟨_, rfl, answered⟩ := shows_page processed here
    obtain rfl : listed = page := Except.ok.inj answered
    exact goesOn

end Pages

theorem stripPages_adds (again : Nat) {kind : Kind} (isSwept : kind = .job ∨ kind = .pod) (fuel : Nat) (start : String) (tally : Tally) (past : Entries)
    (ready : Careful past (.listPage kind start)) :
    Adds (stripPages again (finalizerOf kind) kind fuel start tally) past (Swept kind tally) := by
  induction fuel generalizing start tally past with
  | zero => exact Adds.done (by constructor <;> simp [patchedKeys, Shows])
  | succ fuel ih =>
    rw [stripPages, listPage_bind]
    refine Adds.call ready fun first response => ?_
    cases response with
    | error error => exact Adds.done swept_failed
    | ok page =>
      apply (stripItems_adds again isSwept page.items tally _).bind
      intro middle early processed
      split
      · rename_i last
        refine Adds.done ?_
        rw [List.append_nil]
        exact processed.last last
      · rename_i goesOn
        refine (ih page.next middle _ (processed.ready ready goesOn)).mono fun result late swept => ?_
        exact processed.andThen swept

/-! The whole cleanup. -/

structure Cleaned (result : Option Outcome) (past : Entries) : Prop where
  seenTo : ∀ outcome, result = some outcome → SeenTo .job past ∧ SeenTo .pod past
  counted : ∀ outcome, result = some outcome →
    outcome.jobs = (patchedKeys .job past).length ∧ outcome.pods = (patchedKeys .pod past).length
  settled : ∀ outcome, result = some outcome → outcome.error = none → AllSettled .job past ∧ AllSettled .pod past
  ended : ∀ outcome, result = some outcome → outcome.error = none →
    ListedToTheEnd .job past ∧ ListedToTheEnd .pod past

theorem seenTo_of_unlisted {kind : Kind} {past : Entries}
    (unlisted : ∀ start response, ¬ Shows past (.listPage kind start) response) : SeenTo kind past ∧ AllSettled kind past := by
  constructor
  · intro when_ start page member
    exact absurd ⟨when_, member⟩ (unlisted start (.ok page))
  · intro start page shown
    exact absurd shown (unlisted start (.ok page))

/-- The cleanup when the list of the Jobs fails. -/
theorem cleaned_jobs_failed {jobs : Tally} {error : ApiError} {cause : CleanupError} {early : Entries}
    (swept : Swept .job { removed := 0, failures := 0 } (some (jobs, some error)) early) :
    Cleaned (some { jobs := jobs.removed, pods := 0, error := some cause }) early := by
  obtain ⟨podsSeen, _⟩ := seenTo_of_unlisted (swept.unlisted .pod (by decide))
  constructor
  · rintro outcome ⟨⟩
    exact ⟨swept.seenTo _ _ rfl, podsSeen⟩
  · rintro outcome ⟨⟩
    have counted := swept.counted _ _ rfl
    have others := swept.others .pod (by decide)
    exact ⟨by simpa using counted, by simp [others]⟩
  · rintro outcome ⟨⟩ ⟨⟩
  · rintro outcome ⟨⟩ ⟨⟩

/-- The cleanup when the Jobs have been gone through. -/
theorem cleaned_both {jobs pods : Tally} {failed : Option ApiError} {error : Option CleanupError} {early late : Entries}
    (first : Swept .job { removed := 0, failures := 0 } (some (jobs, none)) early)
    (second : Swept .pod { removed := 0, failures := jobs.failures } (some (pods, failed)) late)
    (silent : error = none → failed = none ∧ pods.failures = 0) :
    Cleaned (some { jobs := jobs.removed, pods := pods.removed, error := error }) (early ++ late) := by
  obtain ⟨podsBefore, podsUnlisted⟩ := seenTo_of_unlisted (first.unlisted .pod (by decide))
  obtain ⟨jobsAfter, jobsUnlisted⟩ := seenTo_of_unlisted (second.unlisted .job (by decide))
  have below := second.failures _ _ rfl
  constructor
  · rintro outcome ⟨⟩
    exact ⟨(first.seenTo _ _ rfl).append jobsAfter, podsBefore.append (second.seenTo _ _ rfl)⟩
  · rintro outcome ⟨⟩
    have jobsCounted := first.counted _ _ rfl
    have podsCounted := second.counted _ _ rfl
    rw [patchedKeys_append, patchedKeys_append, first.others .pod (by decide), second.others .job (by decide)]
    exact ⟨by simpa using jobsCounted, by simpa using podsCounted⟩
  · rintro outcome ⟨⟩ none
    obtain ⟨_, unfailed⟩ := silent none
    have jobsUnfailed : jobs.failures = 0 := by
      simp only [unfailed] at below
      omega
    exact ⟨(first.settled _ _ rfl jobsUnfailed).append jobsUnlisted,
      podsUnlisted.append (second.settled _ _ rfl (unfailed.trans jobsUnfailed.symm))⟩
  · rintro outcome ⟨⟩ none
    obtain ⟨rfl, _⟩ := silent none
    obtain ⟨start, page, shown, last⟩ := first.ended _ rfl
    obtain ⟨podStart, podPage, podShown, podLast⟩ := second.ended _ rfl
    exact ⟨⟨start, page, shown.append_left, last⟩, ⟨podStart, podPage, podShown.append_right, podLast⟩⟩

theorem cleaned_none (past : Entries) : Cleaned none past := by
  constructor <;> rintro outcome ⟨⟩

theorem stripAllFinalizers_adds (again fuel : Nat) : Adds (stripAllFinalizers again fuel) [] Cleaned := by
  have jobsReady : Careful [] (.listPage .job "") := ⟨Or.inl rfl, fun _ _ shown => by simp [Shows] at shown⟩
  unfold stripAllFinalizers
  apply (stripPages_adds again (Or.inl rfl) fuel "" { removed := 0, failures := 0 } [] jobsReady).bind
  intro result early jobs
  split
  · exact Adds.done (cleaned_none _)
  · refine Adds.done ?_
    rw [List.append_nil]
    exact cleaned_jobs_failed jobs
  · rename_i tally
    have podsReady : Careful ([] ++ early) (.listPage .pod "") :=
      ⟨Or.inl rfl, fun start page shown => absurd shown (jobs.unlisted .pod (by decide) start (.ok page))⟩
    apply (stripPages_adds again (Or.inr rfl) fuel "" { removed := 0, failures := tally.failures } _ podsReady).bind
    intro result late pods
    split
    · exact Adds.done (cleaned_none _)
    · refine Adds.done ?_
      rw [List.append_nil]
      exact cleaned_both jobs pods (by simp)
    · rename_i podTally
      refine Adds.done ?_
      rw [List.append_nil]
      refine cleaned_both jobs pods fun none => ⟨rfl, ?_⟩
      split at none
      · cases none
      · omega

end AibomWebhook.CleanupCalls
