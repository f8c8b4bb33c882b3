import AibomWebhook.Library.Interleaving
import AibomWebhook.Writes

/-! The workload identity of one trigger among the admissions of its pods, which
provision it, and the watcher's cleanups, which delete it: whether the token that an
admission mounts is one of the ServiceAccount that exists. -/

namespace AibomWebhook.LiveIdentity
open Aibomdata Events Identity Kubernetes Objects Postprocess Requests Writes

/-- The cluster, and how many requests to delete a part of an identity were sent so far. -/
structure Shared where
  cluster : Cluster
  deletions : Nat

def deletes : Request → Bool
  | .delete _ _ => true
  | _ => false

def serve (circumstance : Circumstance) (shared : Shared) (request : Request) : Response request × Shared :=
  let answer := Kubernetes.serve circumstance shared.cluster request
  (answer.1, { cluster := answer.2, deletions := if deletes request then shared.deletions + 1 else shared.deletions })

/-- A call of `ensureWorkloadIdentity`, with the number of deletions when it began, or one of
`deleteWorkloadIdentity`. -/
inductive Actor where
  | ensure (began : Nat)
  | delete
  deriving DecidableEq

inductive Cue where
  | admission
  | cleanup

variable (ns triggerName : String)

def identityKey : Key := (ns, workloadIdentityName triggerName)

def provision : ApiProgram (Except WrappedError String) :=
  ensureWorkloadIdentity ns triggerName (configMapName triggerName)

def Actor.program : Actor → ApiProgram Unit
  | .ensure _ => do
    let _ ← provision ns triggerName
    return ()
  | .delete => deleteWorkloadIdentity ns triggerName

def Cue.resolve (states : List Shared) : Cue → Option Actor
  | .admission => states.getLast?.map fun shared => .ensure shared.deletions
  | .cleanup => some .delete

/-- Others may do what they like to the cluster. -/
def identities : System ApiServer Shared Actor Cue (Cluster → Cluster) Circumstance where
  resolve := fun states cue => cue.resolve states
  program := Actor.program ns triggerName
  act change shared := { shared with cluster := change shared.cluster }
  serve := serve

abbrev Run := World ApiServer Shared Actor

/-- Nobody else touches the four objects. -/
def Undisturbed (_ : Run) : Move Cue (Cluster → Cluster) Circumstance → Prop
  | .act change => ∀ cluster : Cluster, ∀ kind ∈ identityKinds,
    (change cluster).find kind (identityKey ns triggerName) = cluster.find kind (identityKey ns triggerName)
  | _ => True

/-! The property. -/

/-- The stored Secret has a token of the stored ServiceAccount. -/
def Valid (key : Key) (cluster : Cluster) (secret : Secret) : Prop :=
  ∃ account, cluster.find .serviceAccount key = some account ∧
    secret.content = (tokenSecret key.1 key.2 account.metadata.uid).content

structure Live (cluster : Cluster) : Prop where
  token : ∃ secret, cluster.find .secret (identityKey ns triggerName) = some secret ∧
    Valid (identityKey ns triggerName) cluster secret
  binding : ∃ binding, cluster.find .roleBinding (identityKey ns triggerName) = some binding ∧
    binding.content = (identityRoleBinding ns (workloadIdentityName triggerName)).content
  role : ∃ role, cluster.find .role (identityKey ns triggerName) = some role ∧
    role.content = (identityRole ns (workloadIdentityName triggerName) (configMapName triggerName)).content

/-- A call that nothing was deleted since. -/
def Current (world : Run) (thread : Thread ApiServer Shared Actor) : Prop :=
  thread.owner = .ensure world.shared.deletions

def ProvisionedLive (world : Run) : Prop :=
  ∀ thread ∈ world.threads, Current world thread → ∀ secretName,
    Program.Answered (provision ns triggerName) thread.past (.done (.ok secretName)) →
      secretName = workloadIdentityName triggerName ∧ Live ns triggerName world.shared.cluster

/-! The condition. -/

/-- If there is a Secret, then with a token of the ServiceAccount. -/
def Fresh (key : Key) (cluster : Cluster) : Prop :=
  ∀ secret, cluster.find .secret key = some secret → Valid key cluster secret

/-- No call begins while the Secret is stale, and none that began before a deletion stores
a stale one while another is under way that began after it. -/
def Orderly (world : Run) : Move Cue (Cluster → Cluster) Circumstance → Prop
  | .spawn .admission => Fresh (identityKey ns triggerName) world.shared.cluster
  | .serve index _ => ∀ thread token next, world.threads[index]? = some thread →
      thread.rest = .call (.create .secret (tokenSecret ns (workloadIdentityName triggerName) token)) next →
      ¬Current world thread → (∃ other ∈ world.threads, Current world other) →
      Valid (identityKey ns triggerName) world.shared.cluster (tokenSecret ns (workloadIdentityName triggerName) token)
  | _ => True

/-! What a call has to go through. -/

section Calls
variable {σ : Type}

/-- An object of this kind and key was there, or has been created. -/
def ensures (kind : Kind) (key : Key) : Served ApiServer σ → Bool
  | ⟨_, .create other draft, .ok _⟩ => other = kind && draft.key = key
  | ⟨_, .create other draft, .error .alreadyExists⟩ => other = kind && draft.key = key
  | _ => false

def issues (key : Key) (token : String) : Served ApiServer σ → Bool
  | ⟨_, .createToken place, .ok value⟩ => place = key && value = token
  | _ => false

def fails : Served ApiServer σ → Bool
  | ⟨_, .create _ _, .error .alreadyExists⟩ => false
  | ⟨_, .create _ _, .error _⟩ => true
  | ⟨_, .createToken _, .error _⟩ => true
  | _ => false

/-- A Secret is only created with a token that was issued to this call. -/
def Issued (key : Key) (past : List (Served ApiServer σ)) (request : Request) : Prop :=
  ∀ secret, request = .create .secret secret →
    ∃ token, secret = tokenSecret key.1 key.2 token ∧ ∃ entry ∈ past, issues key token entry = true

variable {key : Key} {past : List (Served ApiServer σ)}

theorem ensure_meets {kind : Kind} (object : Object kind) (may : Issued key past (.create kind object)) :
    (ensure object).Meets (fun _ _ _ => True) (Issued key)
      (fun value now => past <+: now ∧ (value = .ok () → ∃ entry ∈ now, ensures kind object.key entry = true) ∧
        ((∃ error, value = .error error) → ∃ entry ∈ now, fails entry = true)) past := by
  refine ⟨may, fun before response _ => ?_⟩
  have last (answer : Response (.create kind object)) :
      ⟨before, .create kind object, answer⟩ ∈ past ++ [(⟨before, .create kind object, answer⟩ : Served ApiServer σ)] :=
    List.mem_append_right _ (List.mem_singleton_self _)
  cases response with
  | ok created => exact ⟨List.prefix_append _ _, fun _ => ⟨_, last _, by simp [ensures]⟩, fun ⟨_, failed⟩ => by cases failed⟩
  | error error =>
    cases error with
    | alreadyExists =>
      exact ⟨List.prefix_append _ _, fun _ => ⟨_, last _, by simp [ensures]⟩, fun ⟨_, failed⟩ => by cases failed⟩
    | notFound | conflict | other message =>
      exact ⟨List.prefix_append _ _, (fun done => by cases done), fun _ => ⟨_, last _, rfl⟩⟩

/-- A step of the call that an error ends. -/
theorem step_meets {kind : Kind} {object : Object kind} {rest : Except ApiError Unit → ApiProgram (Except WrappedError String)}
    {post : Except WrappedError String → List (Served ApiServer σ) → Prop} (may : Issued key past (.create kind object))
    (ends : ∀ error, ∃ wrapped, rest (.error error) = .done (.error wrapped))
    (failed : ∀ wrapped now, (∃ entry ∈ now, fails entry = true) → post (.error wrapped) now)
    (later : ∀ now, past <+: now → (∃ entry ∈ now, ensures kind object.key entry = true) →
      (rest (.ok ())).Meets (fun _ _ _ => True) (Issued key) post now) :
    (ensure object >>= rest).Meets (fun _ _ _ => True) (Issued key) post past := by
  refine (ensure_meets object may).bind fun value now done => ?_
  cases value with
  | error error =>
    obtain ⟨wrapped, same⟩ := ends error
    rw [same]
    exact failed wrapped now (done.2.2 ⟨error, rfl⟩)
  | ok _ => exact later now done.1 (done.2.1 rfl)

theorem issued_of_kind {kind : Kind} {object : Object kind} (other : kind ≠ .secret) :
    Issued key past (.create kind object) := by
  intro token same
  injection same with kinds
  exact absurd kinds other

end Calls

/-- What a call that returns the Secret's name went through. -/
def Established (key : Key) {σ : Type} (past : List (Served ApiServer σ)) : Prop :=
  ∀ kind ∈ identityKinds, ∃ entry ∈ past, ensures kind key entry = true

/-- A call ends with the Secret's name if all went through, and with an error if something failed. -/
def Concluded {σ : Type} (value : Except WrappedError String) (now : List (Served ApiServer σ)) : Prop :=
  (∀ name, value = .ok name → name = workloadIdentityName triggerName ∧ Established (identityKey ns triggerName) now) ∧
    ((∃ error, value = .error error) → ∃ entry ∈ now, fails entry = true)

theorem provision_meets (σ : Type) : (provision ns triggerName).Meets (fun _ _ _ => True)
    (Issued (σ := σ) (identityKey ns triggerName)) (Concluded ns triggerName) [] := by
  have failed : ∀ (wrapped : WrappedError) (now : List (Served ApiServer σ)), (∃ entry ∈ now, fails entry = true) →
      Concluded ns triggerName (.error wrapped) now := fun _ _ here => ⟨(fun _ same => by cases same), fun _ => here⟩
  unfold provision ensureWorkloadIdentity
  refine step_meets (issued_of_kind (by decide)) (fun _ => ⟨_, rfl⟩) failed fun past₀ _ _ => ?_
  refine step_meets (issued_of_kind (by decide)) (fun _ => ⟨_, rfl⟩) failed fun past₁ _ account => ?_
  refine step_meets (issued_of_kind (by decide)) (fun _ => ⟨_, rfl⟩) failed fun past₂ to₂ role => ?_
  refine step_meets (issued_of_kind (by decide)) (fun _ => ⟨_, rfl⟩) failed fun past₃ to₃ binding => ?_
  rw [requestServiceAccountToken, createToken_bind]
  refine ⟨fun token same => by injection same, fun before response _ => ?_⟩
  cases response with
  | error error => exact failed _ _ ⟨_, List.mem_append_right _ (List.mem_singleton_self _), rfl⟩
  | ok token =>
    refine step_meets ?_ (fun _ => ⟨_, rfl⟩) failed fun past₅ to₅ secret => ?_
    · intro object same
      injection same with _ same
      obtain rfl := same
      exact ⟨token, rfl, _, List.mem_append_right _ (List.mem_singleton_self _), by simp [issues, identityKey]⟩
    · have to₄ : past₃ <+: past₅ := (List.prefix_append _ _).trans to₅
      have carry {kind : Kind} {object : Object kind} {past : List (Served ApiServer σ)} (grown : past <+: past₅)
          (here : ∃ entry ∈ past, ensures kind object.key entry = true) :
          ∃ entry ∈ past₅, ensures kind object.key entry = true := by
        obtain ⟨entry, member, done⟩ := here
        exact ⟨entry, grown.subset member, done⟩
      have all : Established (identityKey ns triggerName) past₅ := by
        intro kind member
        simp only [identityKinds, List.mem_cons, List.not_mem_nil, or_false] at member
        rcases member with rfl | rfl | rfl | rfl
        · exact carry (to₂.trans (to₃.trans to₄)) account
        · exact carry (to₃.trans to₄) role
        · exact carry to₄ binding
        · exact secret
      have succeeded : ¬ ∃ error, (Except.ok (workloadIdentityName triggerName) : Except WrappedError String) =
          .error error := by simp
      exact ⟨fun name same => ⟨(Except.ok.inj same).symm, all⟩, fun error => absurd error succeeded⟩

/-! What the requests do to the four objects. -/

/-- All that the two sides send. -/
def Sends : Actor → Request → Prop
  | .ensure _, request => Only (ProvisionWrites ns triggerName) request ∧ deletes request = false
  | .delete, request => ∃ part ∈ identityKinds, request = .delete part (identityKey ns triggerName)

theorem deletes_of_provision {request : Request} (sent : Only (ProvisionWrites ns triggerName) request) :
    deletes request = false := by
  rcases sent with reads | writes
  · cases request with
    | delete => cases reads
    | _ => rfl
  · cases writes <;> rfl

theorem program_uses (actor : Actor) : (actor.program ns triggerName).Uses (Sends ns triggerName actor) := by
  cases actor with
  | ensure began =>
    refine Program.Uses.bind ?_ fun _ => trivial
    exact (ensureWorkloadIdentity_uses ns triggerName).mono fun request sent => ⟨sent, deletes_of_provision ns triggerName sent⟩
  | delete => exact deleteWorkloadIdentity_uses ns triggerName fun part member => ⟨part, member, rfl⟩

/-- What each side promises of every request. -/
def Promises (actor : Actor) (past : List (Served ApiServer Shared)) (request : Request) : Prop :=
  match actor with
  | .ensure _ => Issued (identityKey ns triggerName) past request
  | .delete => True

theorem sends_cases {ns triggerName : String} {actor : Actor} {past : List (Served ApiServer Shared)} {request : Request}
    (sent : Sends ns triggerName actor request) (promised : Promises ns triggerName actor past request) :
    (Only (ProvisionWrites ns triggerName) request ∧ Issued (identityKey ns triggerName) past request) ∨
      ∃ part, request = .delete part (identityKey ns triggerName) := by
  cases actor with
  | ensure began => exact Or.inl ⟨sent.1, promised⟩
  | delete =>
    obtain ⟨part, _, now⟩ := sent
    exact Or.inr ⟨part, now⟩

theorem program_meets (actor : Actor) : (actor.program ns triggerName).Meets (fun _ _ _ => True)
    (Promises ns triggerName actor) (fun _ _ => True) [] := by
  cases actor with
  | ensure began => exact (provision_meets ns triggerName Shared).bind fun _ _ _ => trivial
  | delete =>
    have uses : (deleteWorkloadIdentity ns triggerName).Uses fun _ => True :=
      deleteWorkloadIdentity_uses ns triggerName fun _ _ => trivial
    exact (uses.meets [] fun _ _ _ _ => trivial).mono fun _ _ _ => trivial

section Serve
variable {ns triggerName} {circumstance : Circumstance} {shared : Shared} {request : Request} {key : Key} {kind : Kind}

theorem ensures_found {σ : Type} {before : σ} (named : key.2 ≠ "")
    (done : ensures kind key ⟨before, request, (serve circumstance shared request).1⟩ = true) :
    (serve circumstance shared request).2.cluster.find kind key ≠ none := by
  cases request with
  | create other draft =>
    cases fate : circumstance.fate with
    | served =>
      have cluster : (serve circumstance shared (.create other draft)).2.cluster =
          (perform circumstance.uid circumstance.time shared.cluster (.create other draft)).2 :=
        congrArg Prod.snd (serve_served fate)
      have here : other = kind ∧ draft.key = key := by
        generalize (serve circumstance shared (.create other draft)).1 = response at done
        cases response with
        | ok created => simpa [ensures] using done
        | error error =>
          cases error with
          | alreadyExists => simpa [ensures] using done
          | notFound | conflict | other message => cases done
      obtain ⟨rfl, rfl⟩ := here
      rw [cluster]
      have place : (born circumstance.uid circumstance.time draft).key = draft.key := key_born named
      cases found : shared.cluster.find other (born circumstance.uid circumstance.time draft).key with
      | some taken =>
        rw [perform_create_taken found, ← place, found]
        simp
      | none =>
        rw [perform_create found]
        dsimp only
        rw [← place, find_write_self _ _ (released_born _ _ _)]
        simp
    | refused message | lost message =>
      simp [serve, Kubernetes.serve, fate, failed, ensures] at done
  | _ => cases done

theorem issues_found {σ : Type} {before : σ} {token : String}
    (done : issues key token ⟨before, request, (serve circumstance shared request).1⟩ = true) :
    ∃ account, shared.cluster.find .serviceAccount key = some account ∧ account.metadata.uid = token := by
  cases request with
  | createToken place =>
    cases fate : circumstance.fate with
    | served =>
      simp only [serve, serve_served fate, perform] at done
      cases found : shared.cluster.find .serviceAccount place with
      | none => simp [found, issues] at done
      | some account =>
        simp only [found, issues, Bool.and_eq_true, decide_eq_true_eq] at done
        obtain ⟨rfl, rfl⟩ := done
        exact ⟨account, found, rfl⟩
    | refused message | lost message =>
      simp [serve, Kubernetes.serve, fate, failed, issues] at done
  | _ => cases done

theorem find_create {other : Kind} (draft : Object other) {object : Object kind}
    (found : shared.cluster.find kind key = some object) :
    (serve circumstance shared (.create other draft)).2.cluster.find kind key = some object := by
  generalize after : (Kubernetes.serve circumstance shared.cluster (.create other draft)).2 = next
  have effect := serve_effect circumstance shared.cluster (.create other draft)
  rw [after] at effect
  refine Eq.trans (congrArg (Cluster.find kind key) after) ?_
  cases effect with
  | unchanged => exact found
  | created other draft free =>
    by_cases same : other = kind
    · subst same
      rw [find_write_of_key]
      · exact found
      · rintro rfl
        rw [free] at found
        cases found
    · rw [find_write_of_kind _ _ (Ne.symm same), found]

/-- Provisioning leaves what there is as it is. -/
theorem find_grows (sent : Only (ProvisionWrites ns triggerName) request)
    {object : Object kind} (found : shared.cluster.find kind key = some object) :
    (serve circumstance shared request).2.cluster.find kind key = some object := by
  rcases sent with reads | writes
  · have same : (serve circumstance shared request).2.cluster = shared.cluster := serve_reads reads
    rw [same, found]
  · cases writes <;> exact find_create _ found

theorem deletions_kept (kept : deletes request = false) :
    (serve circumstance shared request).2.deletions = shared.deletions := by
  simp [serve, kept]

theorem content_deleted {part : Kind} {object : Object kind}
    (after : (serve circumstance shared (.delete part key)).2.cluster.find kind key = some object) :
    ∃ old, shared.cluster.find kind key = some old ∧ object.content = old.content := by
  cases (serve_effect circumstance shared.cluster (.delete part key)).comes after with
  | stayed => rename_i found; exact ⟨object, found, rfl⟩
  | deleted old found => exact ⟨old, found, rfl⟩

end Serve

/-! The invariant. -/

structure Kept (world : Run) : Prop where
  bounded : ∀ thread ∈ world.threads, ∀ began, thread.owner = .ensure began → began ≤ world.shared.deletions
  role : ∀ role, world.shared.cluster.find .role (identityKey ns triggerName) = some role →
    role.content = (identityRole ns (workloadIdentityName triggerName) (configMapName triggerName)).content
  binding : ∀ binding, world.shared.cluster.find .roleBinding (identityKey ns triggerName) = some binding →
    binding.content = (identityRoleBinding ns (workloadIdentityName triggerName)).content
  fresh : (∃ thread ∈ world.threads, Current world thread) → Fresh (identityKey ns triggerName) world.shared.cluster
  established : ∀ thread ∈ world.threads, Current world thread → ∀ entry ∈ thread.past, ∀ kind ∈ identityKinds,
    ensures kind (identityKey ns triggerName) entry = true →
      world.shared.cluster.find kind (identityKey ns triggerName) ≠ none
  issued : ∀ thread ∈ world.threads, Current world thread → ∀ entry ∈ thread.past, ∀ token,
    issues (identityKey ns triggerName) token entry = true →
      ∃ account, world.shared.cluster.find .serviceAccount (identityKey ns triggerName) = some account ∧
        account.metadata.uid = token

variable {ns triggerName}

theorem Kept.start {start : Run} (fresh : start.threads = [])
    (role : ∀ role, start.shared.cluster.find .role (identityKey ns triggerName) = some role →
      role.content = (identityRole ns (workloadIdentityName triggerName) (configMapName triggerName)).content)
    (binding : ∀ binding, start.shared.cluster.find .roleBinding (identityKey ns triggerName) = some binding →
      binding.content = (identityRoleBinding ns (workloadIdentityName triggerName)).content) :
    Kept ns triggerName start := by
  refine { bounded := ?_, role := role, binding := binding, fresh := ?_, established := ?_, issued := ?_ } <;>
    simp [fresh]

theorem Kept.live {world : Run} (kept : Kept ns triggerName world) : ProvisionedLive ns triggerName world := by
  intro thread member current secretName returned
  obtain ⟨name, established⟩ := ((provision_meets ns triggerName Shared).ended returned).1 secretName rfl
  have present : ∀ kind ∈ identityKinds,
      world.shared.cluster.find kind (identityKey ns triggerName) ≠ none := by
    intro kind part
    obtain ⟨entry, served, done⟩ := established kind part
    exact kept.established thread member current entry (by simpa using served) kind part done
  obtain ⟨secret, stored⟩ := Option.ne_none_iff_exists'.mp (present .secret (by decide))
  obtain ⟨binding, bound⟩ := Option.ne_none_iff_exists'.mp (present .roleBinding (by decide))
  obtain ⟨role, granted⟩ := Option.ne_none_iff_exists'.mp (present .role (by decide))
  exact ⟨name, ⟨secret, stored, kept.fresh ⟨thread, member, current⟩ secret stored⟩,
    ⟨binding, bound, kept.binding binding bound⟩, ⟨role, granted, kept.role role granted⟩⟩

theorem mem_started {world : Run} {actor : Actor} {thread : Thread ApiServer Shared Actor}
    (member : thread ∈ world.threads ++ [(identities ns triggerName).started actor]) :
    thread ∈ world.threads ∨ (thread.owner = actor ∧ thread.past = []) := by
  rcases List.mem_append.mp member with old | new
  · exact Or.inl old
  · obtain rfl := List.mem_singleton.mp new
    exact Or.inr ⟨rfl, rfl⟩

theorem Kept.spawn {world : Run} (kept : Kept ns triggerName world) {cue : Cue} {actor : Actor}
    (orderly : Orderly ns triggerName world (.spawn cue)) (found : cue.resolve world.states = some actor) :
    Kept ns triggerName { world with threads := world.threads ++ [(identities ns triggerName).started actor] } := by
  have owner : actor = .ensure world.shared.deletions ∧ cue = .admission ∨ actor = .delete := by
    cases cue with
    | admission =>
      left
      simpa [Cue.resolve, World.states, eq_comm] using found
    | cleanup => exact Or.inr (Option.some.inj found).symm
  refine { bounded := ?_, role := kept.role, binding := kept.binding, fresh := ?_, established := ?_, issued := ?_ }
  · intro thread member began begins
    rcases mem_started member with old | ⟨same, _⟩
    · exact kept.bounded thread old began begins
    · rw [same] at begins
      rcases owner with ⟨rfl, _⟩ | rfl
      · exact le_of_eq (Actor.ensure.inj begins).symm
      · cases begins
  · rintro ⟨thread, member, current⟩
    rcases mem_started member with old | ⟨same, _⟩
    · exact kept.fresh ⟨thread, old, current⟩
    · rcases owner with ⟨_, rfl⟩ | rfl
      · exact orderly
      · exact absurd (same.symm.trans current) (by simp)
  · intro thread member current entry served
    rcases mem_started member with old | ⟨_, empty⟩
    · exact kept.established thread old current entry served
    · rw [empty] at served
      cases served
  · intro thread member current entry served
    rcases mem_started member with old | ⟨_, empty⟩
    · exact kept.issued thread old current entry served
    · rw [empty] at served
      cases served

theorem Kept.act {world : Run} (kept : Kept ns triggerName world) {change : Cluster → Cluster}
    (undisturbed : Undisturbed ns triggerName world (.act change)) :
    Kept ns triggerName { world with shared := { world.shared with cluster := change world.shared.cluster }
                                     history := world.states } := by
  have same := undisturbed world.shared.cluster
  have account := same .serviceAccount (by decide)
  have secret := same .secret (by decide)
  refine { bounded := kept.bounded, role := ?_, binding := ?_, fresh := ?_, established := ?_, issued := ?_ }
  · rw [same .role (by decide)]
    exact kept.role
  · rw [same .roleBinding (by decide)]
    exact kept.binding
  · intro current stored found
    rw [secret] at found
    obtain ⟨holder, present, content⟩ := kept.fresh current stored found
    exact ⟨holder, account.trans present, content⟩
  · intro thread member current entry served kind part done
    rw [same kind part]
    exact kept.established thread member current entry served kind part done
  · intro thread member current entry served token done
    rw [account]
    exact kept.issued thread member current entry served token done

section Serve
variable {world : Run} {index : Nat} {circumstance : Circumstance} {thread : Thread ApiServer Shared Actor}
  {request : Request} {rest : Response request → ApiProgram Unit}

/-- The request with its answer, and the world after it. -/
private abbrev answered (circumstance : Circumstance) (world : Run) (request : Request) : Served ApiServer Shared :=
  ⟨world.shared, request, (serve circumstance world.shared request).1⟩

private abbrev after (index : Nat) (circumstance : Circumstance) (world : Run) (thread : Thread ApiServer Shared Actor)
    (request : Request) (rest : Response request → ApiProgram Unit) : Run where
  shared := (serve circumstance world.shared request).2
  history := world.states
  threads := world.threads.set index
    { owner := thread.owner
      past := thread.past ++ [answered circumstance world request]
      rest := rest (serve circumstance world.shared request).1 }

/-- A thread after the request, and the one that it was. -/
theorem owner_before (found : world.threads[index]? = some thread) {other : Thread ApiServer Shared Actor}
    (member : other ∈ (after index circumstance world thread request rest).threads) :
    ∃ old ∈ world.threads, old.owner = other.owner ∧ ∀ entry ∈ other.past,
      entry ∈ old.past ∨ (entry = answered circumstance world request ∧ old = thread) := by
  rcases List.mem_or_eq_of_mem_set member with old | rfl
  · exact ⟨other, old, rfl, fun entry served => Or.inl served⟩
  · refine ⟨thread, List.mem_of_getElem? found, rfl, fun entry served => ?_⟩
    rcases List.mem_append.mp served with earlier | last
    · exact Or.inl earlier
    · exact Or.inr ⟨List.mem_singleton.mp last, rfl⟩

theorem Kept.deleted (kept : Kept ns triggerName world) (found : world.threads[index]? = some thread) {part : Kind}
    (now : request = .delete part (identityKey ns triggerName)) :
    Kept ns triggerName (after index circumstance world thread request rest) := by
  subst now
  have later : (serve circumstance world.shared (.delete part (identityKey ns triggerName))).2.deletions =
      world.shared.deletions + 1 := by simp [serve, deletes]
  have outdated : ∀ other ∈ (after index circumstance world thread (.delete part (identityKey ns triggerName)) rest).threads,
      ¬Current (after index circumstance world thread (.delete part (identityKey ns triggerName)) rest) other := by
    intro other member current
    obtain ⟨old, before, same, _⟩ := owner_before found member
    have bound := kept.bounded old before _ (same.trans current)
    rw [later] at bound
    omega
  refine { bounded := ?_, role := ?_, binding := ?_, fresh := ?_, established := ?_, issued := ?_ }
  · intro other member began begins
    obtain ⟨old, before, same, _⟩ := owner_before found member
    have bound := kept.bounded old before began (same.trans begins)
    rw [later]
    omega
  · intro role stored
    obtain ⟨old, before, same⟩ := content_deleted stored
    exact same.trans (kept.role old before)
  · intro binding stored
    obtain ⟨old, before, same⟩ := content_deleted stored
    exact same.trans (kept.binding old before)
  · rintro ⟨other, member, current⟩
    exact absurd current (outdated other member)
  · exact fun other member current => absurd current (outdated other member)
  · exact fun other member current => absurd current (outdated other member)

theorem Kept.provisioned (kept : Kept ns triggerName world) (found : world.threads[index]? = some thread)
    (calls : thread.rest = .call request rest) (sent : Only (ProvisionWrites ns triggerName) request)
    (issued : Issued (identityKey ns triggerName) thread.past request)
    (orderly : Orderly ns triggerName world (.serve index circumstance)) :
    Kept ns triggerName (after index circumstance world thread request rest) := by
  have same : (serve circumstance world.shared request).2.deletions = world.shared.deletions :=
    deletions_kept (deletes_of_provision ns triggerName sent)
  have grows {kind : Kind} {object : Object kind}
      (stored : world.shared.cluster.find kind (identityKey ns triggerName) = some object) :
      (serve circumstance world.shared request).2.cluster.find kind (identityKey ns triggerName) = some object :=
    find_grows sent stored
  have currently {other old : Thread ApiServer Shared Actor} (owners : old.owner = other.owner)
      (current : Current (after index circumstance world thread request rest) other) : Current world old := by
    rw [Current, owners, ← same]
    exact current
  refine { bounded := ?_, role := ?_, binding := ?_, fresh := ?_, established := ?_, issued := ?_ }
  · intro other member began begins
    obtain ⟨old, before, owners, _⟩ := owner_before found member
    rw [same]
    exact kept.bounded old before began (owners.trans begins)
  · intro role stored
    rcases found_provision sent stored with before | ⟨draft, now, _, content⟩
    · exact kept.role role before
    · subst now
      rw [content, provisioned_role sent]
  · intro binding stored
    rcases found_provision sent stored with before | ⟨draft, now, _, content⟩
    · exact kept.binding binding before
    · subst now
      rw [content, provisioned_binding sent]
  · rintro ⟨other, member, current⟩ secret stored
    obtain ⟨old, before, owners, _⟩ := owner_before found member
    have now := currently owners current
    have valid : Valid (identityKey ns triggerName) world.shared.cluster secret := by
      rcases found_provision sent stored with earlier | ⟨draft, creation, _, content⟩
      · exact kept.fresh ⟨old, before, now⟩ secret earlier
      · obtain ⟨token, rfl, entry, served, done⟩ := issued draft creation
        by_cases own : Current world thread
        · obtain ⟨account, present, uid⟩ := kept.issued thread (List.mem_of_getElem? found) own entry served token done
          exact ⟨account, present, uid ▸ content⟩
        · subst creation
          obtain ⟨account, present, same⟩ := orderly thread token rest found calls own ⟨old, before, now⟩
          exact ⟨account, present, content.trans same⟩
    obtain ⟨account, present, content⟩ := valid
    exact ⟨account, grows present, content⟩
  · intro other member current entry served kind part done
    obtain ⟨old, before, owners, past⟩ := owner_before found member
    rcases past entry served with earlier | ⟨rfl, rfl⟩
    · obtain ⟨object, stored⟩ := Option.ne_none_iff_exists'.mp
        (kept.established old before (currently owners current) entry earlier kind part done)
      rw [grows stored]
      simp
    · exact ensures_found (workloadIdentityName_ne_empty triggerName) done
  · intro other member current entry served token done
    obtain ⟨old, before, owners, past⟩ := owner_before found member
    rcases past entry served with earlier | ⟨rfl, rfl⟩
    · obtain ⟨account, stored, uid⟩ := kept.issued old before (currently owners current) entry earlier token done
      exact ⟨account, grows stored, uid⟩
    · obtain ⟨account, stored, uid⟩ := issues_found done
      exact ⟨account, grows stored, uid⟩

end Serve

theorem Kept.step {world next : Run} {move : Move Cue (Cluster → Cluster) Circumstance}
    (kept : Kept ns triggerName world)
    (uses : ∀ thread ∈ world.threads, thread.rest.Uses (Sends ns triggerName thread.owner))
    (meets : ∀ thread ∈ world.threads, thread.rest.Meets (fun _ _ _ => True) (Promises ns triggerName thread.owner)
      (fun _ _ => True) thread.past)
    (undisturbed : Undisturbed ns triggerName world move) (orderly : Orderly ns triggerName world move)
    (moved : (identities ns triggerName).step world move = some next) : Kept ns triggerName next := by
  rcases System.step_cases moved with ⟨cue, actor, rfl, found, rfl⟩ | ⟨change, rfl, rfl⟩ |
    ⟨index, circumstance, thread, request, rest, rfl, found, calls, rfl⟩
  · exact kept.spawn orderly found
  · exact kept.act undisturbed
  · have here := List.mem_of_getElem? found
    have sent := uses thread here
    have promised := meets thread here
    rw [calls] at sent promised
    rcases sends_cases sent.1 promised.1 with ⟨provisions, issued⟩ | ⟨part, deletion⟩
    · exact kept.provisioned found calls provisions issued orderly
    · exact kept.deleted found deletion

/-- In an orderly run, a call that nothing was deleted since leaves a live identity. -/
theorem provisioned_live {start world : Run} (fresh : start.threads = [])
    (role : ∀ role, start.shared.cluster.find .role (identityKey ns triggerName) = some role →
      role.content = (identityRole ns (workloadIdentityName triggerName) (configMapName triggerName)).content)
    (binding : ∀ binding, start.shared.cluster.find .roleBinding (identityKey ns triggerName) = some binding →
      binding.content = (identityRoleBinding ns (workloadIdentityName triggerName)).content)
    (reached : (identities ns triggerName).Reaches (fun world move => Undisturbed ns triggerName world move ∧
      Orderly ns triggerName world move) start world) : ProvisionedLive ns triggerName world := by
  have kept : Kept ns triggerName world := by
    refine System.Reaches.invariant (Kept.start fresh role binding) (fun before next move earlier kept allowed moved => ?_)
      reached
    have uses := System.Reaches.uses fresh (program_uses ns triggerName) earlier
    have meets := System.Reaches.meets fresh (fun _ _ _ _ _ _ _ _ _ => trivial) (program_meets ns triggerName) earlier
    exact kept.step (fun thread member => (uses thread member).2) meets allowed.1 allowed.2 moved
  exact kept.live

/-! A rerun of a Job whose first token Secret could not be deleted. -/

def empty : Run := World.initial Actor { cluster := Cluster.empty, deletions := 0 }

def circumstanceOf (fate : Fate) (uid : String) : Circumstance where
  fate := fate
  uid := uid
  time := 0

/-- An admission under way and all that it is answered. -/
def admission (thread : Nat) (uid : String) : List (Move Cue (Cluster → Cluster) Circumstance) :=
  .spawn .admission :: List.replicate 6 (.serve thread (circumstanceOf .served uid))

/-- A cleanup, with how the deletion of the Secret ends. -/
def cleanup (thread : Nat) (fate : Fate) : List (Move Cue (Cluster → Cluster) Circumstance) :=
  .spawn .cleanup :: List.replicate 3 (.serve thread (circumstanceOf .served "")) ++
    [.serve thread (circumstanceOf fate "")]

def rerun (fate : Fate) : List (Move Cue (Cluster → Cluster) Circumstance) :=
  admission 0 "first" ++ cleanup 1 fate ++ admission 2 "second"

def undisturbed : Move Cue (Cluster → Cluster) Circumstance → Bool
  | .act _ => false
  | _ => true

theorem undisturbed_of {ns triggerName : String} (world : Run) (move : Move Cue (Cluster → Cluster) Circumstance)
    (checked : undisturbed move = true) : Undisturbed ns triggerName world move := by
  cases move with
  | act change => cases checked
  | spawn cue => trivial
  | serve index circumstance => trivial

def holdsToken (key : Key) (cluster : Cluster) (secret : Secret) : Bool :=
  (cluster.find .serviceAccount key).any fun account =>
    secret.content.data.items = (tokenSecret key.1 key.2 account.metadata.uid).content.data.items

theorem holdsToken_iff {key : Key} {cluster : Cluster} {secret : Secret} :
    holdsToken key cluster secret = true ↔ Valid key cluster secret := by
  unfold holdsToken Valid
  cases found : cluster.find .serviceAccount key with
  | none => simp
  | some account =>
    simp only [Option.any_some, decide_eq_true_eq, Option.some.injEq, exists_eq_left']
    constructor
    · intro same
      have data : secret.content.data = (tokenSecret key.1 key.2 account.metadata.uid).content.data := Keyed.ext_items same
      exact congrArg SecretContent.mk data
    · intro same
      rw [same]

/-- The Secret is fresh when a call begins, and only created by a call that nothing was deleted since. -/
def orderly (key : Key) (world : Run) : Move Cue (Cluster → Cluster) Circumstance → Bool
  | .spawn .admission => (world.shared.cluster.find .secret key).all (holdsToken key world.shared.cluster)
  | .serve index _ => world.threads[index]?.all fun thread =>
    match thread.rest with
    | .call (.create .secret _) _ => thread.owner = .ensure world.shared.deletions
    | _ => true
  | _ => true

theorem orderly_of {ns triggerName : String} (world : Run) (move : Move Cue (Cluster → Cluster) Circumstance)
    (checked : orderly (identityKey ns triggerName) world move = true) : Orderly ns triggerName world move := by
  cases move with
  | spawn cue =>
    cases cue with
    | admission =>
      intro secret found
      simp only [orderly, found, Option.all_some] at checked
      exact holdsToken_iff.mp checked
    | cleanup => trivial
  | act change => trivial
  | serve index circumstance =>
    intro thread token next found calls outdated _
    simp only [orderly, found, Option.all_some, calls, decide_eq_true_eq] at checked
    exact absurd checked outdated

def permits (world : Run) (move : Move Cue (Cluster → Cluster) Circumstance) : Bool :=
  undisturbed move && orderly (identityKey "team" "train") world move

theorem permitted_of_permits (world : Run) (move : Move Cue (Cluster → Cluster) Circumstance)
    (checked : permits world move = true) : Undisturbed "team" "train" world move ∧ Orderly "team" "train" world move := by
  rw [permits, Bool.and_eq_true] at checked
  exact ⟨undisturbed_of world move checked.1, orderly_of world move checked.2⟩

/-- Whether the call of a thread has ended, with nothing deleted since it began and no error. -/
def succeeded (world : Run) (thread : Thread ApiServer Shared Actor) : Bool :=
  thread.owner = .ensure world.shared.deletions && !thread.past.any fails &&
    match thread.rest with
    | .done _ => true
    | .call _ _ => false

/-- Such a call has returned the Secret's name. -/
theorem returned_of_succeeded {start world : Run} {permitted : Run → Move Cue (Cluster → Cluster) Circumstance → Prop}
    {ns triggerName : String} (fresh : start.threads = [])
    (reached : (identities ns triggerName).Reaches permitted start world) {thread : Thread ApiServer Shared Actor}
    (member : thread ∈ world.threads) (success : succeeded world thread = true) : Current world thread ∧
      ∃ secretName, Program.Answered (provision ns triggerName) thread.past (.done (.ok secretName)) := by
  rw [succeeded, Bool.and_eq_true, Bool.and_eq_true, decide_eq_true_eq] at success
  obtain ⟨⟨current, unfailed⟩, ended⟩ := success
  refine ⟨current, ?_⟩
  have answered := System.Reaches.answered fresh reached thread member
  cases rest : thread.rest with
  | call request next =>
    rw [rest] at ended
    cases ended
  | done _ =>
    have program : (identities ns triggerName).program thread.owner =
        (provision ns triggerName >>= fun _ => (.done () : ApiProgram Unit)) := by
      rw [current]
      rfl
    rw [rest, program] at answered
    obtain ⟨value, call, _⟩ := answered.of_bind
    cases value with
    | ok secretName => exact ⟨secretName, call⟩
    | error error =>
      obtain ⟨entry, served, failed⟩ := ((provision_meets ns triggerName Shared).ended call).2 ⟨error, rfl⟩
      rw [List.nil_append] at served
      rw [List.any_eq_true.mpr ⟨entry, served, failed⟩] at unfailed
      cases unfailed

theorem provisioned_live_on_rerun : ∃ world,
    (identities "team" "train").Reaches (fun world move => Undisturbed "team" "train" world move ∧
      Orderly "team" "train" world move) empty world ∧
    (∃ thread ∈ world.threads, Current world thread ∧ ∃ secretName,
      Program.Answered (provision "team" "train") thread.past (.done (.ok secretName))) ∧
    ProvisionedLive "team" "train" world := by
  have ends : (((identities "team" "train").checkedRun permits empty (rerun .served)).map fun world =>
      world.threads.any (succeeded world)) = some true := by decide +kernel
  obtain ⟨world, ran, result⟩ := Option.map_eq_some_iff.mp ends
  obtain ⟨thread, member, success⟩ := List.any_eq_true.mp result
  have reached := System.reaches_of_checkedRun permitted_of_permits ran
  refine ⟨world, reached, ⟨thread, member, returned_of_succeeded rfl reached member success⟩, ?_⟩
  exact provisioned_live rfl (fun role found => by cases found) (fun binding found => by cases found) reached

/-- The rerun's call succeeds, and the Secret holds no token of the ServiceAccount. -/
theorem rerun_stale : (((identities "team" "train").checkedRun (fun _ move => undisturbed move) empty
    (rerun (.refused "timeout"))).map fun world => (world.threads.any (succeeded world),
      (world.shared.cluster.find .secret (identityKey "team" "train")).all fun secret =>
        !holdsToken (identityKey "team" "train") world.shared.cluster secret)) = some (true, true) := by
  with_unfolding_all decide

/-- The rerun's pods mount the token of a ServiceAccount that is gone. -/
theorem stale_token_accepted : ∃ world,
    (identities "team" "train").Reaches (Undisturbed "team" "train") empty world ∧
      ¬ProvisionedLive "team" "train" world := by
  obtain ⟨world, ran, result⟩ := Option.map_eq_some_iff.mp rerun_stale
  obtain ⟨returned, stale⟩ := Prod.mk.inj result
  obtain ⟨thread, member, success⟩ := List.any_eq_true.mp returned
  have reached : (identities "team" "train").Reaches (Undisturbed "team" "train") empty world :=
    System.reaches_of_checkedRun (fun world move checked => undisturbed_of world move checked) ran
  refine ⟨world, reached, fun live => ?_⟩
  obtain ⟨current, secretName, call⟩ := returned_of_succeeded rfl reached member success
  obtain ⟨_, ⟨secret, found, valid⟩, _, _⟩ := live thread member current secretName call
  rw [found, Option.all_some, holdsToken_iff.mpr valid] at stale
  cases stale

end AibomWebhook.LiveIdentity
