import AibomWebhook.Library.Json
import AibomWebhook.Library.Keyed
import AibomWebhook.Library.Sha256
import Mathlib.Algebra.Ring.Int.Defs
import Mathlib.Algebra.Ring.Nat

/-! The Kubernetes objects that the webhook and the watcher read and write. An
object is its metadata and the content of its kind. The members of a pod that no
code here looks at are kept as they are sent, under `others`. -/

namespace AibomWebhook.Objects
open JsonPatch

abbrev StringMap := Keyed (Prod.fst : String × String → String)

/-- Go's `map[string]string`, with the nil map as `none`. -/
abbrev GoMap := Option StringMap

def GoMap.lookup (key : String) (map : GoMap) : Option String := ((map.getD ∅).find? key).map Prod.snd

/-- Reading an absent key of a Go map gives the empty string. -/
def GoMap.get (key : String) (map : GoMap) : String := (GoMap.lookup key map).getD ""

def GoMap.set (key value : String) (map : GoMap) : GoMap := some ((map.getD ∅).put (key, value))

def GoMap.entries (map : GoMap) : List (String × String) := (map.getD ∅).items

def GoMap.ofList (entries : List (String × String)) : GoMap := some (Keyed.ofList entries)

@[simp] theorem GoMap.lookup_none (key : String) : GoMap.lookup key none = none := rfl

@[simp] theorem GoMap.lookup_set_self (key value : String) (map : GoMap) :
    GoMap.lookup key (GoMap.set key value map) = some value := by
  simp [GoMap.lookup, GoMap.set, Keyed.find?_put]

theorem GoMap.lookup_set_of_ne {key other : String} (different : other ≠ key) (value : String) (map : GoMap) :
    GoMap.lookup other (GoMap.set key value map) = GoMap.lookup other map := by
  simp [GoMap.lookup, GoMap.set, Keyed.find?_put, Ne.symm different]

@[simp] theorem GoMap.get_set_self (key value : String) (map : GoMap) :
    GoMap.get key (GoMap.set key value map) = value := by simp [GoMap.get]

theorem GoMap.get_set_of_ne {key other : String} (different : other ≠ key) (value : String) (map : GoMap) :
    GoMap.get other (GoMap.set key value map) = GoMap.get other map := by
  simp [GoMap.get, GoMap.lookup_set_of_ne different]

/-! Quantities. -/

inductive Format where
  | decimalSI
  | binarySI
  | decimalExponent
  deriving DecidableEq, Repr

/-- An amount in units of 10⁻⁹, the finest that the API server keeps. -/
structure Quantity where
  nano : Int
  format : Format
  deriving DecidableEq, Repr

namespace Quantity

def zero : Quantity := { nano := 0, format := .decimalSI }
def ofNat (value : Nat) : Quantity := { nano := value * 10 ^ 9, format := .decimalSI }
def milli (value : Nat) : Quantity := { nano := value * 10 ^ 6, format := .decimalSI }
def mebi (value : Nat) : Quantity := { nano := value * 2 ^ 20 * 10 ^ 9, format := .binarySI }

/-- The sum takes the format of the first amount, unless that is zero. -/
def add (first second : Quantity) : Quantity where
  nano := first.nano + second.nano
  format := if first.nano = 0 then second.format else first.format

def positive (quantity : Quantity) : Bool := 0 < quantity.nano

/-- Whole units, rounded up. -/
def value (quantity : Quantity) : Int := -((-quantity.nano) / 10 ^ 9)

def milliValue (quantity : Quantity) : Int := -((-quantity.nano) / 10 ^ 6)

end Quantity

abbrev ResourceList := Keyed (Prod.fst : String × Quantity → String)

structure ResourceRequirements where
  limits : ResourceList := ∅
  requests : ResourceList := ∅
  others : Fields := noFields

def ResourceList.get (name : String) (resources : ResourceList) : Option Quantity :=
  (resources.find? name).map Prod.snd

/-! Pods. -/

inductive EnvVarSource where
  | fieldRef (fieldPath : String)
  | other (source : Json)

structure EnvVar where
  name : String
  value : String := ""
  valueFrom : Option EnvVarSource := none

structure VolumeMount where
  name : String
  mountPath : String
  readOnly : Bool := false
  subPath : String := ""
  others : Fields := noFields

structure Container where
  name : String
  image : String := ""
  command : List String := []
  args : List String := []
  env : List EnvVar := []
  resources : ResourceRequirements := {}
  volumeMounts : List VolumeMount := []
  restartPolicy : Option String := none
  others : Fields := noFields

inductive VolumeProjection where
  | serviceAccountToken (path : String) (expirationSeconds : Nat)
  | secret (name : String) (items : List (String × String))
  | configMap (name : String) (items : List (String × String))
  | downwardAPI (items : List (String × String))

inductive VolumeSource where
  | emptyDir
  | configMap (name : String) (isOptional : Bool)
  | secret (secretName : String) (isOptional : Bool)
  | projected (sources : List VolumeProjection)
  | persistentVolumeClaim (claimName : String) (readOnly : Bool)
  | other (members : Fields)

structure Volume where
  name : String
  source : VolumeSource

structure PodSpec where
  volumes : List Volume := []
  initContainers : List Container := []
  containers : List Container
  others : Fields := noFields

abbrev Time := Nat

structure ContainerStateTerminated where
  reason : String
  exitCode : Int
  finishedAt : Option Time

structure ContainerStatus where
  name : String
  imageID : String
  restartCount : Int
  terminated : Option ContainerStateTerminated
  lastTerminated : Option ContainerStateTerminated

structure PodContent where
  spec : PodSpec
  containerStatuses : List ContainerStatus := []
  others : Fields := noFields

/-! Jobs. -/

structure JobCondition where
  type : String
  status : String
  deriving DecidableEq, Repr

structure PodTemplateSpec where
  labels : GoMap := none
  spec : PodSpec

structure JobContent where
  backoffLimit : Option Nat := none
  ttlSecondsAfterFinished : Option Nat := none
  template : PodTemplateSpec
  conditions : List JobCondition := []

/-! The other kinds. -/

structure ConfigMapContent where
  data : GoMap := none

structure SecretContent where
  data : Keyed (Prod.fst : String × Sha256.Bytes → String) := ∅

structure PolicyRule where
  apiGroups : List String
  resources : List String
  verbs : List String
  resourceNames : List String
  deriving DecidableEq, Repr

structure RoleContent where
  rules : List PolicyRule

structure RoleBindingContent where
  roleRefName : String
  subjects : List (String × String)

structure EventContent where
  involvedNamespace : String
  involvedName : String
  type : String
  reason : String
  message : String

inductive Kind where
  | configMap
  | secret
  | serviceAccount
  | role
  | roleBinding
  | job
  | pod
  | namespace
  | event
  deriving DecidableEq, Repr

abbrev Content : Kind → Type
  | .configMap => ConfigMapContent
  | .secret => SecretContent
  | .serviceAccount => Unit
  | .role => RoleContent
  | .roleBinding => RoleBindingContent
  | .job => JobContent
  | .pod => PodContent
  | .namespace => Unit
  | .event => EventContent

structure OwnerReference where
  apiVersion : String
  kind : String
  name : String
  uid : String
  controller : Option Bool := none
  blockOwnerDeletion : Option Bool := none
  deriving DecidableEq, Repr

structure ObjectMeta where
  name : String
  generateName : String := ""
  ns : String
  uid : String := ""
  resourceVersion : Nat := 0
  labels : GoMap := none
  annotations : GoMap := none
  finalizers : List String := []
  ownerReferences : List OwnerReference := []
  creationTimestamp : Time := 0
  deletionTimestamp : Option Time := none
  others : Fields := noFields

structure Object (kind : Kind) where
  metadata : ObjectMeta
  content : Content kind

/-- An object's namespace and name; a kind has one object of each. -/
abbrev Key := String × String

def Object.key {kind : Kind} (object : Object kind) : Key := (object.metadata.ns, object.metadata.name)

abbrev Job := Object .job
abbrev Pod := Object .pod
abbrev ConfigMap := Object .configMap
abbrev Secret := Object .secret

def Pod.spec (pod : Pod) : PodSpec := pod.content.spec

end AibomWebhook.Objects
