import AibomWebhook.CleanupCalls

/-! Runs of the cleanup while others change their own finalizers and requests fail. -/

namespace AibomWebhook.CleanupRuns
open Cleanup CleanupCalls Events FinalizerLedger Kubernetes Objects Requests

/-! Versions. -/

/-- What is stored later was stored before, or has a version that nothing had then. -/
structure Later (first second : Cluster) : Prop where
  revision : first.revision ≤ second.revision
  stored : ∀ kind key (object : Object kind), second.find kind key = some object → first.find kind key = some object ∨
    (first.revision < object.metadata.resourceVersion ∧ object.metadata.resourceVersion ≤ second.revision)

def Numbered (cluster : Cluster) : Prop :=
  ∀ kind key (object : Object kind), cluster.find kind key = some object →
    object.metadata.resourceVersion ≤ cluster.revision

theorem Later.refl (cluster : Cluster) : Later cluster cluster := ⟨le_refl _, fun _ _ _ => Or.inl⟩

theorem Later.trans {first second third : Cluster} (left : Later first second) (right : Later second third) :
    Later first third where
  revision := left.revision.trans right.revision
  stored kind key object found := by
    rcases right.stored kind key object found with old | ⟨above, below⟩
    · rcases left.stored kind key object old with older | ⟨above, below⟩
      · exact Or.inl older
      · exact Or.inr ⟨above, below.trans right.revision⟩
    · exact Or.inr ⟨lt_of_le_of_lt left.revision above, below⟩

theorem later_write {kind : Kind} (cluster : Cluster) (object : Object kind) : Later cluster (cluster.write object) where
  revision := Nat.le_succ _
  stored other key found after := by
    rcases write_found after with before | ⟨rfl, _, rfl⟩
    · exact Or.inl before
    · exact Or.inr ⟨Nat.lt_succ_self _, le_refl _⟩

theorem later_perform (uid : String) (time : Time) (cluster : Cluster) (request : Request) :
    Later cluster (perform uid time cluster request).2 := by
  generalize after : (perform uid time cluster request).2 = next
  have effect := perform_effect uid time cluster request
  rw [after] at effect
  cases effect with
  | unchanged => exact .refl _
  | created | updated | patched | deleted => exact later_write _ _

theorem Later.numbered {first second : Cluster} (later : Later first second) (numbered : Numbered first) :
    Numbered second := by
  intro kind key object found
  rcases later.stored kind key object found with old | ⟨_, below⟩
  · exact (numbered kind key object old).trans later.revision
  · exact below

theorem later_act (ledger : Ledger) (deed : Deed) : Later ledger.cluster (ledger.act deed).cluster := by
  have own (kind : Kind) (key : Key) (name : String) (present : Bool) :
      Later ledger.cluster (ledger.own kind key name present).cluster := by
    unfold Ledger.own
    split
    · exact .refl _
    · exact later_write _ _
  cases deed with
  | keep kind key name => exact own kind key name true
  | drop kind key name => exact own kind key name false
  | change kind key content =>
    simp only [Ledger.act]
    split
    · exact .refl _
    · exact later_write _ _
  | delete kind key time => exact later_perform _ _ _ _
  | create kind object uid time =>
    simp only [Ledger.act]
    split
    · exact .refl _
    · exact later_write _ _

/-! The watcher's finalizers only ever leave. -/

/-- Others see to their own finalizers, and bring no objects with the watcher's. -/
def Courteous : Deed → Prop
  | .keep _ _ name => name ∉ watcherFinalizers
  | .drop _ _ name => name ∉ watcherFinalizers
  | .create _ object _ _ => ∀ name ∈ watcherFinalizers, name ∉ object.metadata.finalizers
  | _ => True

def Sheds (first second : Cluster) : Prop :=
  ∀ kind key, ∀ name ∈ watcherFinalizers, carries kind key name second = true → carries kind key name first = true

theorem Sheds.refl (cluster : Cluster) : Sheds cluster cluster := fun _ _ _ _ => id

theorem Sheds.trans {first second third : Cluster} (left : Sheds first second) (right : Sheds second third) :
    Sheds first third := fun kind key name own has => left kind key name own (right kind key name own has)

theorem Sheds.without {first second : Cluster} (sheds : Sheds first second) {kind : Kind} {key : Key} {name : String}
    (own : name ∈ watcherFinalizers) (none : carries kind key name first = false) :
    carries kind key name second = false := by
  cases has : carries kind key name second with
  | false => rfl
  | true =>
    rw [sheds kind key name own has] at none
    cases none

theorem sheds_write {kind : Kind} {cluster : Cluster} {object : Object kind}
    (fewer : ∀ name ∈ watcherFinalizers, object.metadata.finalizers.contains name = true →
      carries kind object.key name cluster = true) : Sheds cluster (cluster.write object) := by
  intro other key name own has
  by_cases here : other = kind ∧ key = object.key
  · obtain ⟨rfl, rfl⟩ := here
    rw [carries_write] at has
    exact fewer name own has
  · rwa [carries_write_of_ne here] at has

/-- A write of a stored object that adds none of the watcher's finalizers. -/
theorem sheds_rewrite {kind : Kind} {cluster : Cluster} {key : Key} {object next : Object kind}
    (found : cluster.find kind key = some object) (same : next.key = object.key)
    (fewer : ∀ name ∈ watcherFinalizers, name ∈ next.metadata.finalizers → name ∈ object.metadata.finalizers) :
    Sheds cluster (cluster.write next) := by
  have here : object.key = key := Keyed.key_of_find? found
  apply sheds_write
  intro name own has
  rw [same, here, carries_of_find found]
  exact List.contains_iff_mem.mpr (fewer name own (List.contains_iff_mem.mp has))

theorem sheds_act (ledger : Ledger) {deed : Deed} (courteous : Courteous deed) :
    Sheds ledger.cluster (ledger.act deed).cluster := by
  have own (kind : Kind) (key : Key) (name : String) (present : Bool) (foreign : name ∉ watcherFinalizers) :
      Sheds ledger.cluster (ledger.own kind key name present).cluster := by
    unfold Ledger.own
    split
    · exact .refl _
    · rename_i object found
      refine sheds_rewrite found (key_patched _ _) fun other own member => ?_
      have different : other ≠ name := fun same => foreign (same ▸ own)
      cases present <;> simpa [patched, MergePatch.apply, different] using member
  cases deed with
  | keep kind key name => exact own kind key name true courteous
  | drop kind key name => exact own kind key name false courteous
  | change kind key content =>
    simp only [Ledger.act]
    split
    · exact .refl _
    · rename_i object found
      exact sheds_rewrite found rfl fun _ _ => id
  | delete kind key time =>
    simp only [Ledger.act, perform]
    split
    · exact .refl _
    · rename_i object found
      exact sheds_rewrite found rfl fun _ _ => id
  | create kind object uid time =>
    simp only [Ledger.act]
    split
    · exact .refl _
    · apply sheds_write
      intro name own has
      exact absurd (List.contains_iff_mem.mp has) (courteous name own)

/-! The invariant of a run. -/

/-- An object that carries the finalizer is on a page to come, or was on one. -/
def Tracked (kind : Kind) (past : Entries) (service : Service) (key : Key) : Prop :=
  (∃ item ∈ service.listing kind, item.key = key ∧ holdsFinalizer (finalizerOf kind) item = true) ∨
    ∃ start, ∃ page : Page kind, Shows past (.listPage kind start) (.ok page) ∧
      ∃ item ∈ page.items, item.key = key ∧ holdsFinalizer (finalizerOf kind) item = true

/-- What was read is known by its version, and what was settled or patched stays without the finalizer. -/
structure Accurate (past : Entries) (service : Service) : Prop where
  books : ∀ entry ∈ past, entry.before.ledger.Faithful
  faithful : service.ledger.Faithful
  numbered : Numbered service.ledger.cluster
  seen : ∀ kind key object, Shows past (.get kind key) (.ok object) →
    object.metadata.resourceVersion ≤ service.ledger.cluster.revision ∧
      ∀ stored, service.ledger.cluster.find kind key = some stored →
        stored.metadata.resourceVersion = object.metadata.resourceVersion → stored = object
  settled : ∀ kind key, Settled past kind key → carries kind key (finalizerOf kind) service.ledger.cluster = false
  once : ∀ kind, (patchedKeys kind past).Nodup

structure Listing (past : Entries) (service : Service) : Prop where
  covered : ∀ kind start page, Shows past (.listPage kind start) (.ok page) → ∀ key,
    carries kind key (finalizerOf kind) service.ledger.cluster = true → Tracked kind past service key
  ended : ∀ kind start page, Shows past (.listPage kind start) (.ok page) → page.next = "" → service.listing kind = []

structure Steady (past : Entries) (service : Service) : Prop where
  accurate : Accurate past service
  listing : Listing past service

theorem own_finalizer (kind : Kind) : finalizerOf kind ∈ watcherFinalizers := by
  unfold finalizerOf
  split <;> decide

theorem steady_start {service : Service} (faithful : service.ledger.Faithful) (numbered : Numbered service.ledger.cluster) :
    Steady [] service := by
  constructor
  · refine ⟨by simp, faithful, numbered, by simp [Shows], fun kind key settled => ?_, fun _ => List.nodup_nil⟩
    rcases settled with ⟨_, none⟩ | ⟨_, ⟨_, none⟩, _⟩ | ⟨_, _, ⟨_, none⟩⟩ <;> cases none
  · constructor <;> simp [Shows]

theorem patchedKey_some {kind : Kind} {before : Service} {request : CleanupRequest} {response : Answer request} {key : Key}
    (patched : patchedKey kind ⟨before, request, response⟩ = some key) :
    ∃ change object, ∃ same : request = .patch kind key change, same ▸ response = .ok object := by
  cases request with
  | patch other place change =>
    cases response with
    | error error => cases patched
    | ok object =>
      rw [patchedKey_patch] at patched
      split at patched
      · rename_i same
        subst same
        obtain rfl := Option.some.inj patched
        exact ⟨change, object, rfl, rfl⟩
      · cases patched
  | _ => cases patched

theorem mem_patchedKeys {kind : Kind} {past : Entries} {key : Key} (member : key ∈ patchedKeys kind past) :
    Settled past kind key := by
  obtain ⟨⟨before, request, response⟩, present, patched⟩ := List.mem_filterMap.mp member
  obtain ⟨change, object, rfl, answered⟩ := patchedKey_some patched
  obtain rfl : response = .ok object := answered
  exact .stripped change object ⟨before, present⟩

section Steps
variable {past : Entries} {service : Service}

/-- Others act: the books stay right, versions grow, and the watcher's finalizers only leave. -/
theorem Steady.move {ledger : Ledger} {clock : Nat} (steady : Steady past service) (faithful : ledger.Faithful)
    (later : Later service.ledger.cluster ledger.cluster) (sheds : Sheds service.ledger.cluster ledger.cluster) :
    Steady past { service with ledger := ledger, clock := clock } := by
  obtain ⟨accurate, listing⟩ := steady
  refine ⟨⟨accurate.books, faithful, later.numbered accurate.numbered, ?_, ?_, accurate.once⟩, ⟨?_, listing.ended⟩⟩
  · intro kind key object shown
    obtain ⟨below, unique⟩ := accurate.seen kind key object shown
    refine ⟨below.trans later.revision, fun stored found same => ?_⟩
    rcases later.stored kind key stored found with old | ⟨above, _⟩
    · exact unique stored old same
    · omega
  · intro kind key settled
    exact sheds.without (own_finalizer kind) (accurate.settled kind key settled)
  · intro kind start page shown key has
    exact listing.covered kind start page shown key (sheds kind key _ (own_finalizer kind) has)

/-- What others do one after the other. -/
theorem acts_keep {deeds : List Deed} (courteous : ∀ deed ∈ deeds, Courteous deed) (ledger : Ledger) :
    Later ledger.cluster (deeds.foldl (fun ledger deed => ledger.act deed) ledger).cluster ∧
      Sheds ledger.cluster (deeds.foldl (fun ledger deed => ledger.act deed) ledger).cluster ∧
      (ledger.Faithful → (deeds.foldl (fun ledger deed => ledger.act deed) ledger).Faithful) := by
  induction deeds generalizing ledger with
  | nil => exact ⟨.refl _, .refl _, id⟩
  | cons deed rest ih =>
    obtain ⟨later, sheds, kept⟩ := ih (fun other member => courteous other (List.mem_cons_of_mem _ member)) (ledger.act deed)
    exact ⟨(later_act ledger deed).trans later, (sheds_act ledger (courteous deed List.mem_cons_self)).trans sheds,
      fun faithful => kept (faithful.act deed)⟩

theorem Steady.pass {turn : Turn} (steady : Steady past service) (courteous : ∀ deed ∈ turn.others, Courteous deed) :
    Steady past (service.pass turn) := by
  obtain ⟨later, sheds, kept⟩ := acts_keep courteous service.ledger
  exact steady.move (kept steady.accurate.faithful) later sheds

/-- What one more entry shows. -/
theorem shows_more {before : Service} {request other : CleanupRequest} {response : Answer request} {answer : Answer other}
    (shown : Shows (past ++ [⟨before, request, response⟩]) other answer) :
    Shows past other answer ∨ ∃ same : request = other, same ▸ response = answer := by
  rcases shows_append.mp shown with old | ⟨_, member⟩
  · exact Or.inl old
  · cases List.mem_singleton.mp member
    exact Or.inr ⟨rfl, rfl⟩

theorem Tracked.more {kind : Kind} {key : Key} {entry : Served CleanupServer Service} (tracked : Tracked kind past service key) :
    Tracked kind (past ++ [entry]) service key := by
  rcases tracked with ahead | ⟨start, page, shown, listed⟩
  · exact Or.inl ahead
  · exact Or.inr ⟨start, page, shown.append_left, listed⟩

theorem Accurate.relist (accurate : Accurate past service) (listing : (kind : Kind) → List (Object kind)) :
    Accurate past { service with listing := listing } :=
  ⟨accurate.books, accurate.faithful, accurate.numbered, accurate.seen, accurate.settled, accurate.once⟩

/-- One more answer, which tells the truth about the objects as they are now. -/
theorem Accurate.learn {before : Service} {request : CleanupRequest} {response : Answer request}
    (accurate : Accurate past service) (book : before.ledger.Faithful)
    (reading : ∀ kind key object, (∃ same : request = .get kind key, same ▸ response = .ok object) →
      service.ledger.cluster.find kind key = some object)
    (gone : ∀ kind key, (∃ same : request = .get kind key, same ▸ response = .error .notFound) →
      service.ledger.cluster.find kind key = none)
    (freed : ∀ kind key change object, (∃ same : request = .patch kind key change, same ▸ response = .ok object) →
      carries kind key (finalizerOf kind) service.ledger.cluster = false ∧ key ∉ patchedKeys kind past) :
    Accurate (past ++ [⟨before, request, response⟩]) service where
  books entry member := by
    rcases List.mem_append.mp member with old | new
    · exact accurate.books entry old
    · obtain rfl := List.mem_singleton.mp new
      exact book
  faithful := accurate.faithful
  numbered := accurate.numbered
  seen kind key object shown := by
    rcases shows_more shown with old | here
    · exact accurate.seen kind key object old
    · have found := reading kind key object here
      refine ⟨accurate.numbered kind key object found, fun stored again _ => ?_⟩
      exact Option.some.inj (again.symm.trans found)
  settled kind key settled := by
    cases settled with
    | gone shown =>
      rcases shows_more shown with old | here
      · exact accurate.settled kind key (.gone old)
      · rw [carries, gone kind key here]
    | free object shown without =>
      rcases shows_more shown with old | here
      · exact accurate.settled kind key (.free object old without)
      · rw [carries_of_find (reading kind key object here)]
        exact without
    | stripped change object shown =>
      rcases shows_more shown with old | here
      · exact accurate.settled kind key (.stripped change object old)
      · exact (freed kind key change object here).1
  once kind := by
    rw [patchedKeys_append, patchedKeys, patchedKeys]
    cases patched : patchedKey kind ⟨before, request, response⟩ with
    | none =>
      rw [List.filterMap_cons_none patched, List.filterMap_nil, List.append_nil]
      exact accurate.once kind
    | some key =>
      obtain ⟨change, object, here⟩ := patchedKey_some patched
      rw [List.filterMap_cons_some patched, List.filterMap_nil]
      refine List.nodup_append.mpr ⟨accurate.once kind, List.nodup_singleton _, ?_⟩
      rintro old member _ single rfl
      obtain rfl := List.mem_singleton.mp single
      exact (freed kind _ change object here).2 member

theorem Listing.learn {before : Service} {request : CleanupRequest} {response : Answer request} (listing : Listing past service)
    (unlisted : ∀ kind start page, ¬ (∃ same : request = .listPage kind start, same ▸ response = .ok page)) :
    Listing (past ++ [⟨before, request, response⟩]) service where
  covered kind start page shown key has := by
    rcases shows_more shown with old | here
    · exact (listing.covered kind start page old key has).more
    · exact absurd here (unlisted kind start page)
  ended kind start page shown last := by
    rcases shows_more shown with old | here
    · exact listing.ended kind start page old last
    · exact absurd here (unlisted kind start page)

/-- The next page of a list. -/
theorem Listing.list {before : Service} {kind : Kind} {start : String} {pageSize : Nat} {items : List (Object kind)}
    {page : Page kind} (listing : Listing past service) (careful : Careful past (.listPage kind start))
    (source : items = if start = "" then (service.ledger.cluster.store kind).items else service.listing kind)
    (taken : page.items = items.take pageSize)
    (next : page.next = if (items.drop pageSize).isEmpty then "" else "more") :
    Listing (past ++ [⟨before, .listPage kind start, .ok page⟩])
      { service with listing := Function.update service.listing kind (items.drop pageSize) } := by
  constructor
  · intro other from_ listed shown key has
    by_cases same : other = kind
    · subst same
      have onPages : ∀ item ∈ items, item.key = key → holdsFinalizer (finalizerOf other) item = true →
          Tracked other (past ++ [⟨before, .listPage other start, .ok page⟩])
            { service with listing := Function.update service.listing other (items.drop pageSize) } key := by
        intro item member here holds
        rw [← List.take_append_drop pageSize items] at member
        rcases List.mem_append.mp member with now | ahead
        · exact Or.inr ⟨start, page, shows_last _ _ _, item, taken ▸ now, here, holds⟩
        · exact Or.inl ⟨item, by simpa using ahead, here, holds⟩
      by_cases fresh : start = ""
      · obtain ⟨object, found, holds⟩ := carries_true has
        rw [if_pos fresh] at source
        exact onPages object (source ▸ (Keyed.find?_some found).1) (Keyed.key_of_find? found) holds
      · rw [if_neg fresh] at source
        obtain ⟨earlier, first, shownFirst⟩ := careful.1.resolve_left fresh
        rcases listing.covered other earlier first shownFirst key has with ⟨item, ahead, here, holds⟩ | listedBefore
        · exact onPages item (source ▸ ahead) here holds
        · exact Tracked.more (Or.inr listedBefore)
    · rcases shows_more shown with old | ⟨here, _⟩
      · rcases listing.covered other from_ listed old key has with ⟨item, ahead, rest⟩ | listedBefore
        · exact Or.inl ⟨item, by simpa [Function.update_of_ne same] using ahead, rest⟩
        · exact Tracked.more (Or.inr listedBefore)
      · cases here
        exact absurd rfl same
  · intro other from_ listed shown last
    rcases shows_more shown with old | ⟨here, answered⟩
    · by_cases same : other = kind
      · subst same
        exact absurd last (careful.2 from_ listed old)
      · simp only [Function.update_of_ne same]
        exact listing.ended other from_ listed old last
    · cases here
      obtain rfl : page = listed := Except.ok.inj answered
      rw [next] at last
      split at last
      · rename_i nothing
        simpa using nothing
      · exact absurd last (by decide)

/-- A patch that is accepted is of the object as it was read. -/
theorem Steady.patch {before : Service} {kind : Kind} {key : Key} {change : MergePatch} (steady : Steady past service)
    (book : before.ledger.Faithful) (careful : Careful past (.patch kind key change)) :
    Steady (past ++ [⟨before, .patch kind key change, (perform "" 0 service.ledger.cluster (.patch kind key change)).1⟩])
      { service with ledger :=
          { service.ledger with cluster := (perform "" 0 service.ledger.cluster (.patch kind key change)).2 } } := by
  obtain ⟨accurate, listing⟩ := steady
  obtain ⟨object, shown, holds, rfl⟩ := careful
  obtain ⟨_, unique⟩ := accurate.seen kind key object shown
  have refused (error : ApiError) : Steady (past ++ [⟨before, .patch kind key (.setFinalizers
      (object.metadata.finalizers.filter (· ≠ finalizerOf kind)) (some object.metadata.resourceVersion)), .error error⟩]) service := by
    refine ⟨accurate.learn book ?_ ?_ ?_, listing.learn ?_⟩
    · rintro _ _ _ ⟨⟨⟩, _⟩
    · rintro _ _ ⟨⟨⟩, _⟩
    · rintro _ _ _ _ ⟨⟨⟩, ⟨⟩⟩
    · rintro _ _ _ ⟨⟨⟩, _⟩
  cases found : service.ledger.cluster.find kind key with
  | none =>
    simp only [perform, found]
    exact refused .notFound
  | some stored =>
    simp only [perform, found]
    split
    · rename_i accepted
      have version : object.metadata.resourceVersion = stored.metadata.resourceVersion := by
        simpa [MergePatch.accepts] using accepted
      obtain rfl := unique stored found version.symm
      have here : stored.key = key := Keyed.key_of_find? found
      have own := own_finalizer kind
      let change : MergePatch := .setFinalizers (stored.metadata.finalizers.filter (· ≠ finalizerOf kind))
        (some stored.metadata.resourceVersion)
      have books : Ledger.Faithful { service.ledger with cluster := service.ledger.cluster.write (patched change stored) } := by
        refine (Ledger.faithful_write_iff (fun _ _ _ _ => rfl) accurate.faithful).mpr fun name foreign => ?_
        have other : name ≠ finalizerOf kind := fun same => foreign (same ▸ own)
        have before := (accurate.faithful kind key name foreign).trans (carries_of_find found name)
        rw [key_patched, here, before]
        simp [patched, MergePatch.apply, change, other]
      have sheds : Sheds service.ledger.cluster (service.ledger.cluster.write (patched change stored)) :=
        sheds_rewrite found (key_patched _ _) fun name _ member => (List.mem_filter.mp member).1
      have moved : Steady past { service with
          ledger := { service.ledger with cluster := service.ledger.cluster.write (patched change stored) }
          clock := service.clock } :=
        Steady.move ⟨accurate, listing⟩ books (later_write _ _) sheds
      refine ⟨moved.accurate.learn book ?_ ?_ ?_, moved.listing.learn ?_⟩
      · rintro _ _ _ ⟨⟨⟩, _⟩
      · rintro _ _ ⟨⟨⟩, _⟩
      · rintro _ _ _ _ ⟨⟨⟩, _⟩
        constructor
        · rw [← here, ← key_patched change stored, carries_write]
          simp [patched, MergePatch.apply, change]
        · intro already
          have none := accurate.settled kind key (mem_patchedKeys already)
          rw [carries_of_find found] at none
          simp [holds] at none
      · rintro _ _ _ ⟨⟨⟩, _⟩
    · exact refused .conflict

theorem Steady.get {before : Service} {kind : Kind} {key : Key} (steady : Steady past service) (book : before.ledger.Faithful) :
    Steady (past ++ [⟨before, .get kind key, (perform "" 0 service.ledger.cluster (.get kind key)).1⟩]) service := by
  refine ⟨steady.accurate.learn book ?_ ?_ ?_, steady.listing.learn ?_⟩
  · rintro _ _ object ⟨⟨⟩, answered⟩
    cases found : service.ledger.cluster.find kind key with
    | none => simp [perform, found] at answered
    | some stored => simpa [perform, found] using answered
  · rintro _ _ ⟨⟨⟩, answered⟩
    cases found : service.ledger.cluster.find kind key with
    | none => rfl
    | some stored => simp [perform, found] at answered
  · rintro _ _ _ _ ⟨⟨⟩, _⟩
  · rintro _ _ _ ⟨⟨⟩, _⟩

/-- A failing request teaches nothing. -/
theorem Steady.fail {before : Service} {request : CleanupRequest} (steady : Steady past service) (book : before.ledger.Faithful)
    (failure : Failure) : Steady (past ++ [⟨before, request, failedWith failure.error request⟩]) service := by
  refine ⟨steady.accurate.learn book ?_ ?_ ?_, steady.listing.learn ?_⟩
  · rintro kind key object ⟨rfl, ⟨⟩⟩
  · rintro kind key ⟨rfl, answered⟩
    exact absurd (Except.error.inj answered) failure.present
  · rintro kind key change object ⟨rfl, ⟨⟩⟩
  · rintro kind start page ⟨rfl, ⟨⟩⟩

/-- One request of the cleanup, whatever others do before it and however it ends. -/
theorem Steady.serve {schedule : Nat → Turn} {request : CleanupRequest} (steady : Steady past service)
    (courteous : ∀ time, ∀ deed ∈ (schedule time).others, Courteous deed) (careful : Careful past request) :
    Steady (past ++ [⟨service, request, (serveAt schedule service request).1⟩]) (serveAt schedule service request).2 := by
  have book := steady.accurate.faithful
  have passed := steady.pass (courteous service.clock)
  simp only [serveAt]
  split
  · rename_i failure _
    exact passed.fail book failure
  · cases request with
    | listPage kind start =>
      refine ⟨(passed.accurate.learn book ?_ ?_ ?_).relist _, passed.listing.list careful rfl rfl rfl⟩
      · rintro _ _ _ ⟨⟨⟩, _⟩
      · rintro _ _ ⟨⟨⟩, _⟩
      · rintro _ _ _ _ ⟨⟨⟩, _⟩
    | get kind key => exact passed.get book
    | patch kind key change => exact passed.patch book careful

end Steps

/-! Whole runs. -/

section Runs
variable {schedule : Nat → Turn} {start : Service}

theorem run_steady (again fuel : Nat) (courteous : ∀ time, ∀ deed ∈ (schedule time).others, Courteous deed)
    (faithful : start.ledger.Faithful) (numbered : Numbered start.ledger.cluster) :
    Cleaned ((stripAllFinalizers again fuel).run (serveAt schedule) start).1
        ((stripAllFinalizers again fuel).served (serveAt schedule) start) ∧
      Steady ((stripAllFinalizers again fuel).served (serveAt schedule) start)
        ((stripAllFinalizers again fuel).run (serveAt schedule) start).2 := by
  obtain ⟨⟨later, same, cleaned⟩, steady⟩ := Program.Meets.run (serveAt schedule) (fun _ _ => trivial)
    (fun _ _ _ steady careful => steady.serve courteous careful) (stripAllFinalizers_adds again fuel)
    (steady_start faithful numbered)
  rw [List.nil_append] at same steady
  rw [same]
  rw [same] at steady
  exact ⟨cleaned, steady⟩

/-- Nothing carries the finalizer of its kind. -/
def Free (kind : Kind) (cluster : Cluster) : Prop := ∀ key, carries kind key (finalizerOf kind) cluster = false

theorem free_of_settled {kind : Kind} {past : Entries} {service : Service} (steady : Steady past service)
    (settled : AllSettled kind past) (ended : ListedToTheEnd kind past) : Free kind service.ledger.cluster := by
  intro key
  cases has : carries kind key (finalizerOf kind) service.ledger.cluster with
  | false => rfl
  | true =>
    obtain ⟨from_, page, shown, last⟩ := ended
    rcases steady.listing.covered kind from_ page shown key has with ⟨item, ahead, _⟩ | ⟨_, listed, shown, item, present, here, holds⟩
    · rw [steady.listing.ended kind from_ page shown last] at ahead
      cases ahead
    · subst here
      have done := steady.accurate.settled kind item.key (settled _ listed shown item present holds)
      rw [has] at done
      exact done

/-- A run over a cluster that is free of the finalizers. -/
structure Idle (past : Entries) (service : Service) : Prop where
  jobs : Free .job service.ledger.cluster
  pods : Free .pod service.ledger.cluster
  reads : ∀ kind key (object : Object kind), Shows past (.get kind key) (.ok object) →
    finalizerOf kind ∉ object.metadata.finalizers
  unpatched : ∀ entry ∈ past, isPatch entry = false

theorem Idle.serve {past : Entries} {service : Service} {request : CleanupRequest} (idle : Idle past service)
    (courteous : ∀ time, ∀ deed ∈ (schedule time).others, Courteous deed) (careful : Careful past request) :
    Idle (past ++ [⟨service, request, (serveAt schedule service request).1⟩]) (serveAt schedule service request).2 := by
  obtain ⟨_, sheds, _⟩ := acts_keep (courteous service.clock) service.ledger
  have jobs : Free .job (service.pass (schedule service.clock)).ledger.cluster := fun key =>
    sheds.without (own_finalizer .job) (idle.jobs key)
  have pods : Free .pod (service.pass (schedule service.clock)).ledger.cluster := fun key =>
    sheds.without (own_finalizer .pod) (idle.pods key)
  cases request with
  | patch kind key change =>
    obtain ⟨object, shown, holds, _⟩ := careful
    exact absurd holds (idle.reads kind key object shown)
  | listPage kind from_ =>
    have unread (response : Except ApiError (Page kind)) (other : Kind) (key : Key) (object : Object other)
        (shown : Shows (past ++ [⟨service, .listPage kind from_, response⟩]) (.get other key) (.ok object)) :
        finalizerOf other ∉ object.metadata.finalizers := by
      rcases shows_more shown with old | ⟨⟨⟩, _⟩
      exact idle.reads other key object old
    refine ⟨?_, ?_, unread _, ?_⟩
    · simp only [serveAt]
      split <;> exact jobs
    · simp only [serveAt]
      split <;> exact pods
    · intro entry member
      rcases List.mem_append.mp member with old | new
      · exact idle.unpatched entry old
      · obtain rfl := List.mem_singleton.mp new
        rfl
  | get kind key =>
    refine ⟨?_, ?_, ?_, ?_⟩
    · simp only [serveAt]
      split <;> exact jobs
    · simp only [serveAt]
      split <;> exact pods
    · intro other place object shown
      rcases shows_more shown with old | ⟨⟨⟩, answered⟩
      · exact idle.reads other place object old
      · have free : Free kind (service.pass (schedule service.clock)).ledger.cluster := by
          rcases careful with rfl | rfl
          · exact jobs
          · exact pods
        simp only [serveAt] at answered
        split at answered
        · cases answered
        · cases found : (service.pass (schedule service.clock)).ledger.cluster.find kind key with
          | none => simp [answer, perform, found] at answered
          | some stored =>
            obtain rfl : stored = object := by simpa [answer, perform, found] using answered
            have none := free key
            rw [carries_of_find found] at none
            simpa using none
    · intro entry member
      rcases List.mem_append.mp member with old | new
      · exact idle.unpatched entry old
      · obtain rfl := List.mem_singleton.mp new
        rfl

theorem idle_run (again fuel : Nat) (courteous : ∀ time, ∀ deed ∈ (schedule time).others, Courteous deed)
    (jobs : Free .job start.ledger.cluster) (pods : Free .pod start.ledger.cluster) :
    ∀ entry ∈ (stripAllFinalizers again fuel).served (serveAt schedule) start, isPatch entry = false := by
  have idle : Idle [] start := ⟨jobs, pods, by simp [Shows], by simp⟩
  obtain ⟨_, last⟩ := Program.Meets.run (serveAt schedule) (fun _ _ => trivial)
    (fun _ _ _ idle careful => idle.serve courteous careful) (stripAllFinalizers_adds again fuel) idle
  exact last.unpatched

/-! The loop over the pages ends. -/

def Unlisted : CleanupRequest → Prop
  | .listPage _ _ => False
  | _ => True

theorem stripFinalizer_uses (again : Nat) (finalizer : String) (kind : Kind) (key : Key) :
    (stripFinalizer again finalizer kind key).Uses Unlisted := by
  have attempt : (attemptStrip finalizer kind key).Uses Unlisted := by
    rw [attemptStrip, getObject_bind]
    refine Program.uses_call.mpr ⟨trivial, fun response => ?_⟩
    split
    · trivial
    · trivial
    · split
      · trivial
      · rw [patchObject_bind]
        refine Program.uses_call.mpr ⟨trivial, fun answered => ?_⟩
        split <;> trivial
  unfold stripFinalizer
  induction again with
  | zero => exact attempt
  | succ again ih =>
    rw [retryOnConflict]
    apply attempt.bind
    intro value
    split
    · exact ih
    · trivial
    · trivial

theorem stripItems_uses (again : Nat) (finalizer : String) {kind : Kind} (items : List (Object kind)) (tally : Tally) :
    (stripItems again finalizer items tally).Uses Unlisted := by
  induction items generalizing tally with
  | nil => trivial
  | cons item rest ih =>
    rw [stripItems]
    split
    · exact ih tally
    · exact (stripFinalizer_uses again finalizer kind item.key).bind fun value => ih _

def GoesOnWith (listing : (kind : Kind) → List (Object kind)) (service : Service) : Prop := service.listing = listing

/-- Seeing to objects leaves the rest of the list as it is. -/
theorem listing_stripItems (again : Nat) (finalizer : String) {kind : Kind} (items : List (Object kind)) (tally : Tally)
    (service : Service) :
    ((stripItems again finalizer items tally).run (serveAt schedule) service).2.listing = service.listing := by
  have kept (now : Service) (request : CleanupRequest) (unlisted : Unlisted request)
      (same : GoesOnWith service.listing now) : GoesOnWith service.listing (serveAt schedule now request).2 := by
    rw [GoesOnWith] at same ⊢
    cases request with
    | listPage kind from_ => exact absurd unlisted id
    | get kind key =>
      simp only [serveAt]
      split <;> exact same
    | patch kind key change =>
      simp only [serveAt]
      split <;> exact same
  have now : GoesOnWith service.listing service := rfl
  exact (stripItems_uses again finalizer items tally).run (serveAt schedule) kept now

/-- One page: either it ends the loop, or the rest of the list is shorter. -/
theorem stripPages_step (again : Nat) (finalizer : String) (kind : Kind) (from_ : String) (tally : Tally) (service : Service) :
    (∃ result after, ∀ fuel, (stripPages again finalizer kind (fuel + 1) from_ tally).run (serveAt schedule) service =
      (some result, after)) ∨
    ∃ (rest : List (Object kind)) (middle : Tally) (next : Service), next.listing kind = rest ∧
      (from_ ≠ "" → rest.length < (service.listing kind).length) ∧
      ∀ fuel, (stripPages again finalizer kind (fuel + 1) from_ tally).run (serveAt schedule) service =
        (stripPages again finalizer kind fuel "more" middle).run (serveAt schedule) next := by
  let turn := schedule service.clock
  cases failing : turn.failure with
  | some failure =>
    refine Or.inl ⟨(tally, some failure.error), service.pass turn, fun fuel => ?_⟩
    rw [stripPages, listPage_bind, Program.run_call]
    simp only [serveAt, show (schedule service.clock).failure = some failure from failing]
    rfl
  | none =>
    let items := if from_ = "" then ((service.pass turn).ledger.cluster.store kind).items else service.listing kind
    let rest := items.drop (turn.pageSize + 1)
    let listed : Service := { service.pass turn with listing := Function.update service.listing kind rest }
    let run := (stripItems again finalizer (items.take (turn.pageSize + 1)) tally).run (serveAt schedule) listed
    have unfolds (fuel : Nat) : (stripPages again finalizer kind (fuel + 1) from_ tally).run (serveAt schedule) service =
        (if (if rest.isEmpty then "" else "more") = "" then return some (run.1, none)
          else stripPages again finalizer kind fuel (if rest.isEmpty then "" else "more") run.1).run (serveAt schedule) run.2 := by
      rw [stripPages, listPage_bind, Program.run_call]
      simp only [serveAt, show (schedule service.clock).failure = none from failing, answer, Program.run_bind]
      rfl
    by_cases last : rest.isEmpty = true
    · refine Or.inl ⟨(run.1, none), run.2, fun fuel => ?_⟩
      rw [unfolds, if_pos last, if_pos rfl]
      rfl
    · refine Or.inr ⟨rest, run.1, run.2, ?_, fun goesOn => ?_, fun fuel => ?_⟩
      · have same : run.2.listing = listed.listing := listing_stripItems again finalizer _ tally listed
        rw [same]
        exact Function.update_self ..
      · have present : rest ≠ [] := by simpa using last
        have length : rest.length = items.length - (turn.pageSize + 1) := List.length_drop
        have positive := List.length_pos_iff.mpr present
        have source : items = service.listing kind := if_neg goesOn
        rw [← source]
        omega
      · rw [unfolds, if_neg last, if_neg (by decide)]

/-- With fuel for every page, the pages of a kind are gone through, whatever fuel there is beyond. -/
theorem stripPages_return (again : Nat) (finalizer : String) (kind : Kind) (from_ : String) (tally : Tally)
    (service : Service) : ∃ bound result after, ∀ fuel > bound,
      (stripPages again finalizer kind fuel from_ tally).run (serveAt schedule) service = (some result, after) := by
  have goesOn (left : Nat) : ∀ (service : Service) (tally : Tally), (service.listing kind).length ≤ left →
      ∃ result after, ∀ fuel > left,
        (stripPages again finalizer kind fuel "more" tally).run (serveAt schedule) service = (some result, after) := by
    induction left with
    | zero =>
      intro service tally short
      rcases @stripPages_step schedule again finalizer kind "more" tally service with
        ⟨result, after, ends⟩ | ⟨rest, middle, next, _, shorter, _⟩
      · refine ⟨result, after, fun fuel enough => ?_⟩
        obtain ⟨less, rfl⟩ := Nat.exists_eq_succ_of_ne_zero (Nat.ne_of_gt enough)
        exact ends less
      · have less := shorter (by decide)
        omega
    | succ left ih =>
      intro service tally short
      rcases @stripPages_step schedule again finalizer kind "more" tally service with
        ⟨result, after, ends⟩ | ⟨rest, middle, next, listing, shorter, goesOn⟩
      · refine ⟨result, after, fun fuel enough => ?_⟩
        obtain ⟨less, rfl⟩ := Nat.exists_eq_succ_of_ne_zero (Nat.ne_of_gt (Nat.zero_lt_of_lt enough))
        exact ends less
      · have less := shorter (by decide)
        obtain ⟨result, after, ends⟩ := ih next middle (by rw [listing]; omega)
        refine ⟨result, after, fun fuel enough => ?_⟩
        obtain ⟨fewer, rfl⟩ := Nat.exists_eq_succ_of_ne_zero (Nat.ne_of_gt (Nat.zero_lt_of_lt enough))
        rw [Nat.succ_eq_add_one, goesOn, ends fewer (by omega)]
  rcases @stripPages_step schedule again finalizer kind from_ tally service with
    ⟨result, after, ends⟩ | ⟨rest, middle, next, listing, _, steps⟩
  · refine ⟨0, result, after, fun fuel enough => ?_⟩
    obtain ⟨less, rfl⟩ := Nat.exists_eq_succ_of_ne_zero (Nat.ne_of_gt enough)
    exact ends less
  · obtain ⟨result, after, ends⟩ := goesOn rest.length next middle (by rw [listing])
    refine ⟨rest.length + 1, result, after, fun fuel enough => ?_⟩
    obtain ⟨fewer, rfl⟩ := Nat.exists_eq_succ_of_ne_zero (Nat.ne_of_gt (Nat.zero_lt_of_lt enough))
    rw [Nat.succ_eq_add_one, steps, ends fewer (by omega)]

theorem stripAllFinalizers_returns (again : Nat) (start : Service) :
    ∃ bound, ∀ fuel > bound, ((stripAllFinalizers again fuel).run (serveAt schedule) start).1.isSome = true := by
  obtain ⟨bound, ⟨jobs, listFailed⟩, middle, jobsEnd⟩ := @stripPages_return schedule again finalizerName .job ""
    { removed := 0, failures := 0 } start
  obtain ⟨podBound, ⟨pods, podListFailed⟩, after, podsEnd⟩ := @stripPages_return schedule again podFinalizerName
    .pod "" { removed := 0, failures := jobs.failures } middle
  refine ⟨max bound podBound, fun fuel enough => ?_⟩
  have jobsRun := jobsEnd fuel (by omega)
  have podsRun := podsEnd fuel (by omega)
  rw [stripAllFinalizers, Program.run_bind, jobsRun]
  cases listFailed with
  | some error => rfl
  | none =>
    dsimp only
    rw [Program.run_bind, podsRun]
    cases podListFailed <;> rfl

end Runs

/-- What was listed with the finalizer has lost it, or is gone. -/
def FreedOf (kind : Kind) (past : Entries) (cluster : Cluster) : Prop :=
  ∀ from_ (page : Page kind), Shows past (.listPage kind from_) (.ok page) → ∀ item ∈ page.items,
    holdsFinalizer (finalizerOf kind) item = true → carries kind item.key (finalizerOf kind) cluster = false

/-- Every run of the cleanup returns, leaves the finalizers of others where their owners
left them, sees to all that is listed, and counts the objects that it patched. After a
run without an error nothing listed has the finalizer, and another run patches nothing. -/
theorem cleanup_complete_and_harmless (again : Nat) (schedule : Nat → Turn)
    (courteous : ∀ time, ∀ deed ∈ (schedule time).others, Courteous deed) (start : Service)
    (faithful : start.ledger.Faithful) (numbered : Numbered start.ledger.cluster) :
    (∃ bound, ∀ fuel > bound, ((stripAllFinalizers again fuel).run (serveAt schedule) start).1.isSome = true) ∧
    ∀ fuel trace after outcome, trace = (stripAllFinalizers again fuel).served (serveAt schedule) start →
      (some outcome, after) = (stripAllFinalizers again fuel).run (serveAt schedule) start →
      ((∀ entry ∈ trace, entry.before.ledger.Faithful) ∧ after.ledger.Faithful) ∧
      (SeenTo .job trace ∧ SeenTo .pod trace) ∧
      (outcome.error = none → FreedOf .job trace after.ledger.cluster ∧ FreedOf .pod trace after.ledger.cluster) ∧
      ((outcome.jobs = (patchedKeys .job trace).length ∧ (patchedKeys .job trace).Nodup) ∧
        outcome.pods = (patchedKeys .pod trace).length ∧ (patchedKeys .pod trace).Nodup) ∧
      (outcome.error = none → ∀ further, ∀ entry ∈ (stripAllFinalizers again further).served (serveAt schedule) after,
        isPatch entry = false) := by
  refine ⟨stripAllFinalizers_returns again start, ?_⟩
  rintro fuel _ after outcome rfl ended
  obtain ⟨cleaned, steady⟩ := run_steady again fuel courteous faithful numbered
  rw [← ended] at cleaned steady
  obtain ⟨jobsCounted, podsCounted⟩ := cleaned.counted outcome rfl
  refine ⟨⟨steady.accurate.books, steady.accurate.faithful⟩, cleaned.seenTo outcome rfl, ?_,
    ⟨⟨jobsCounted, steady.accurate.once .job⟩, podsCounted, steady.accurate.once .pod⟩, ?_⟩
  · intro silent
    obtain ⟨jobs, pods⟩ := cleaned.settled outcome rfl silent
    exact ⟨fun from_ page shown item present holds => steady.accurate.settled _ _ (jobs from_ page shown item present holds),
      fun from_ page shown item present holds => steady.accurate.settled _ _ (pods from_ page shown item present holds)⟩
  · intro silent further
    obtain ⟨jobs, pods⟩ := cleaned.settled outcome rfl silent
    obtain ⟨jobsEnded, podsEnded⟩ := cleaned.ended outcome rfl silent
    exact idle_run again further courteous (free_of_settled steady jobs jobsEnded) (free_of_settled steady pods podsEnded)

/-- The Job of `heldLedger`; nothing has been listed yet. -/
def heldService : Service where
  ledger := heldLedger
  listing := fun _ => []
  clock := 0

theorem heldService_numbered : Numbered heldService.ledger.cluster := by
  have later := later_act { cluster := Cluster.empty, left := fun _ _ _ => false } (.create .job heldJob "job-1" 0)
  exact later.numbered fun _ _ _ found => by cases found

/-- Another controller takes hold of the Job before each request, and requests at the given times fail. -/
def busySchedule (failing : Nat → Bool) (time : Nat) : Turn where
  others := [.keep .job ("team", "train") "orphan"]
  failure := if failing time then some { error := .other "timeout", present := by simp } else none
  pageSize := 0

theorem busySchedule_courteous (failing : Nat → Bool) :
    ∀ time, ∀ deed ∈ (busySchedule failing time).others, Courteous deed := by
  intro time deed member
  obtain rfl := List.mem_singleton.mp member
  have foreign : "orphan" ∉ watcherFinalizers := by decide
  exact foreign

theorem cleanup_complete_and_harmless_on_held_job :
    ((stripAllFinalizers 4 9).run (serveAt (busySchedule fun _ => false)) heldService).2.ledger.Faithful := by
  obtain ⟨_, each⟩ := cleanup_complete_and_harmless 4 (busySchedule fun _ => false) (busySchedule_courteous _) heldService
    heldLedger_faithful heldService_numbered
  obtain ⟨outcome, returned⟩ : ∃ outcome,
      ((stripAllFinalizers 4 9).run (serveAt (busySchedule fun _ => false)) heldService).1 = some outcome :=
    Option.isSome_iff_exists.mp (by decide)
  obtain ⟨⟨_, books⟩, _⟩ := each 9 _ _ outcome rfl (Prod.ext returned.symm rfl)
  exact books

/-- The patch of the Job fails at first. -/
def busyOnce : Nat → Turn := busySchedule fun time => time = 2

theorem patched_again : ((stripAllFinalizers 4 9).run (serveAt busyOnce) heldService).1.isSome = true ∧
    ¬∀ entry ∈ (stripAllFinalizers 4 9).served (serveAt busyOnce)
      ((stripAllFinalizers 4 9).run (serveAt busyOnce) heldService).2, isPatch entry = false := by
  decide

/-- After a run in which the patch of the Job failed, the next run patches it. -/
theorem second_run_patches : ¬ ∀ (again : Nat) (schedule : Nat → Turn) (start : Service),
    (∀ time, ∀ deed ∈ (schedule time).others, Courteous deed) → start.ledger.Faithful → Numbered start.ledger.cluster →
    ∀ fuel, ((stripAllFinalizers again fuel).run (serveAt schedule) start).1.isSome = true →
      ∀ further, ∀ entry ∈ (stripAllFinalizers again further).served (serveAt schedule)
        ((stripAllFinalizers again fuel).run (serveAt schedule) start).2, isPatch entry = false := by
  intro claim
  obtain ⟨ended, patches⟩ := patched_again
  exact patches (claim 4 busyOnce heldService (busySchedule_courteous _) heldLedger_faithful heldService_numbered 9 ended 9)

end AibomWebhook.CleanupRuns
