import AibomWebhook.Aibomdata
import AibomWebhook.Kubernetes

/-! The per-job workload identity that the webhook provisions at admission
(internal/webhook/identity.go): a ServiceAccount, a Role on the job's own data
ConfigMap, a RoleBinding between them, and a Secret with a token. -/

namespace AibomWebhook.Identity
open Aibomdata Kubernetes Objects Requests

def workloadIdentityTokenSecretKey : String := "token"

/-- An error of the API server with the text that the caller wraps it in. -/
structure WrappedError where
  message : String
  cause : ApiError
  deriving DecidableEq, Repr

def namedMeta (ns name : String) : ObjectMeta := { name := name, ns := ns }

/-- Create an object unless it exists. -/
def ensure {kind : Kind} (object : Object kind) : ApiProgram (Except ApiError Unit) := do
  match ← create object with
  | .ok _ => return .ok ()
  | .error .alreadyExists => return .ok ()
  | .error error => return .error error

def dataConfigMap (ns name : String) : ConfigMap := { metadata := namedMeta ns name, content := {} }

def ensureConfigMap (ns name : String) : ApiProgram (Except ApiError Unit) := ensure (dataConfigMap ns name)

def identityServiceAccount (ns name : String) : Object .serviceAccount :=
  { metadata := namedMeta ns name, content := () }

def ensureServiceAccount (ns name : String) : ApiProgram (Except ApiError Unit) :=
  ensure (identityServiceAccount ns name)

/-- Get and patch on one ConfigMap, named by `resourceNames`. -/
def identityRole (ns name configMapName : String) : Object .role where
  metadata := namedMeta ns name
  content := { rules := [{
    apiGroups := [""], resources := ["configmaps"], verbs := ["get", "patch"], resourceNames := [configMapName] }] }

def ensureRole (ns name configMapName : String) : ApiProgram (Except ApiError Unit) :=
  ensure (identityRole ns name configMapName)

def identityRoleBinding (ns name : String) : Object .roleBinding where
  metadata := namedMeta ns name
  content := { roleRefName := name, subjects := [(ns, name)] }

def ensureRoleBinding (ns name : String) : ApiProgram (Except ApiError Unit) :=
  ensure (identityRoleBinding ns name)

def requestServiceAccountToken (ns saName : String) : ApiProgram (Except ApiError String) :=
  createToken (ns, saName)

def tokenSecret (ns name token : String) : Secret where
  metadata := namedMeta ns name
  content := { data := Keyed.ofList [(workloadIdentityTokenSecretKey, token.toUTF8.toList)] }

def ensureTokenSecret (ns name token : String) : ApiProgram (Except ApiError Unit) :=
  ensure (tokenSecret ns name token)

def ensureWorkloadIdentity (ns triggerName configMapName : String) :
    ApiProgram (Except WrappedError String) := do
  let name := workloadIdentityName triggerName
  match ← ensureConfigMap ns configMapName with
  | .error error =>
    return .error { message := "ensure data configmap " ++ ns ++ "/" ++ configMapName, cause := error }
  | .ok _ =>
  match ← ensureServiceAccount ns name with
  | .error error => return .error { message := "ensure serviceaccount " ++ ns ++ "/" ++ name, cause := error }
  | .ok _ =>
  match ← ensureRole ns name configMapName with
  | .error error => return .error { message := "ensure role " ++ ns ++ "/" ++ name, cause := error }
  | .ok _ =>
  match ← ensureRoleBinding ns name with
  | .error error => return .error { message := "ensure rolebinding " ++ ns ++ "/" ++ name, cause := error }
  | .ok _ =>
  match ← requestServiceAccountToken ns name with
  | .error error => return .error { message := "request token for " ++ ns ++ "/" ++ name, cause := error }
  | .ok token =>
  match ← ensureTokenSecret ns name token with
  | .error error => return .error { message := "write token secret " ++ ns ++ "/" ++ name, cause := error }
  | .ok _ => return .ok name

/-! What the provisioning returns: an error, or the one name that all four objects have. -/

/-- A step that an error ends: a result other than an error comes from what follows it. -/
theorem returns_ok_of_step {α β : Type} {first : ApiProgram (Except ApiError β)}
    {rest : Except ApiError β → ApiProgram (Except WrappedError α)} {value : α}
    (ends : ∀ error, ¬ (rest (.error error)).Returns (.ok value)) (returned : (first >>= rest).Returns (.ok value)) :
    ∃ middle, (rest (.ok middle)).Returns (.ok value) := by
  obtain ⟨answer, _, last⟩ := Program.returns_bind.mp returned
  cases answer with
  | error error => exact absurd last (ends error)
  | ok middle => exact ⟨middle, last⟩

theorem ensureWorkloadIdentity_returns {ns triggerName configMapName name : String}
    (returned : (ensureWorkloadIdentity ns triggerName configMapName).Returns (.ok name)) :
    name = workloadIdentityName triggerName := by
  have ends : ∀ error : WrappedError, ¬ (pure (.error error) : ApiProgram (Except WrappedError String)).Returns (.ok name) :=
    fun error last => absurd last (by simp [Program.Returns])
  unfold ensureWorkloadIdentity at returned
  obtain ⟨_, returned⟩ := returns_ok_of_step (fun _ => ends _) returned
  obtain ⟨_, returned⟩ := returns_ok_of_step (fun _ => ends _) returned
  obtain ⟨_, returned⟩ := returns_ok_of_step (fun _ => ends _) returned
  obtain ⟨_, returned⟩ := returns_ok_of_step (fun _ => ends _) returned
  obtain ⟨_, returned⟩ := returns_ok_of_step (fun _ => ends _) returned
  obtain ⟨_, returned⟩ := returns_ok_of_step (fun _ => ends _) returned
  exact (Except.ok.inj returned).symm

/-- It succeeds when every object exists and the token is granted. -/
theorem ensureWorkloadIdentity_succeeds (ns triggerName configMapName : String) :
    (ensureWorkloadIdentity ns triggerName configMapName).Returns (.ok (workloadIdentityName triggerName)) :=
  ⟨.error .alreadyExists, .error .alreadyExists, .error .alreadyExists, .error .alreadyExists, .ok "",
    .error .alreadyExists, rfl⟩

end AibomWebhook.Identity
