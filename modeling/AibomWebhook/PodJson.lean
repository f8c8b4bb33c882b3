import AibomWebhook.Objects

/-! The JSON text of a pod, in which empty fields are omitted. The text of a
quantity depends on its format and is left to `quantityText`. -/

namespace AibomWebhook.PodJson
open Objects JsonPatch

variable (quantityText : Quantity → String)

def textUnlessEmpty (text : String) : Option Json := if text = "" then none else some (.text text)

def trueOrOmitted (value : Bool) : Option Json := if value then some (.bool true) else none

def arrayUnlessEmpty {α : Type} (encode : α → Json) (items : List α) : Option Json :=
  if items.isEmpty then none else some (.arr (items.map encode))

def single (name : String) (value : Json) : Fields := fun key => if key = name then some value else none

def object (members : List (String × Option Json)) : Json := .record members noFields

def encodeMap (map : StringMap) : Json := .obj fun key => (map.find? key).map fun entry => .text entry.2

def encodeEnvVarSource : EnvVarSource → Json
  | .fieldRef fieldPath => object [("fieldRef", some (object [("fieldPath", some (.text fieldPath))]))]
  | .other source => source

def encodeEnvVar (env : EnvVar) : Json :=
  object [("name", some (.text env.name)), ("value", textUnlessEmpty env.value),
    ("valueFrom", env.valueFrom.map encodeEnvVarSource)]

def encodeVolumeMount (mount : VolumeMount) : Json :=
  .record [("name", some (.text mount.name)), ("readOnly", trueOrOmitted mount.readOnly),
    ("mountPath", some (.text mount.mountPath)), ("subPath", textUnlessEmpty mount.subPath)] mount.others

def encodeResourceList (resources : ResourceList) : Option Json :=
  if resources.items.isEmpty then none
  else some (.obj fun key => (resources.find? key).map fun entry => .text (quantityText entry.2))

def encodeResources (resources : ResourceRequirements) : Json :=
  .record [("limits", encodeResourceList quantityText resources.limits),
    ("requests", encodeResourceList quantityText resources.requests)] resources.others

def encodeContainer (container : Container) : Json :=
  .record [("name", some (.text container.name)), ("image", textUnlessEmpty container.image),
    ("command", arrayUnlessEmpty Json.text container.command), ("args", arrayUnlessEmpty Json.text container.args),
    ("env", arrayUnlessEmpty encodeEnvVar container.env),
    ("resources", some (encodeResources quantityText container.resources)),
    ("volumeMounts", arrayUnlessEmpty encodeVolumeMount container.volumeMounts),
    ("restartPolicy", container.restartPolicy.map Json.text)] container.others

def encodeItems (items : List (String × String)) : Json :=
  .arr (items.map fun item => object [("key", some (.text item.1)), ("path", some (.text item.2))])

def encodeProjection : VolumeProjection → Json
  | .serviceAccountToken path expirationSeconds => object [("serviceAccountToken", some (object
      [("path", some (.text path)), ("expirationSeconds", some (.number expirationSeconds))]))]
  | .secret name items => object [("secret", some (object
      [("name", some (.text name)), ("items", some (encodeItems items))]))]
  | .configMap name items => object [("configMap", some (object
      [("name", some (.text name)), ("items", some (encodeItems items))]))]
  | .downwardAPI items => object [("downwardAPI", some (object [("items", some (.arr (items.map fun item =>
      object [("path", some (.text item.1)), ("fieldRef", some (object [("fieldPath", some (.text item.2))]))])))]))]

def sourceMembers : VolumeSource → Fields
  | .emptyDir => single "emptyDir" (object [])
  | .configMap name isOptional => single "configMap" (object
      [("name", textUnlessEmpty name), ("optional", trueOrOmitted isOptional)])
  | .secret secretName isOptional => single "secret" (object
      [("secretName", textUnlessEmpty secretName), ("optional", trueOrOmitted isOptional)])
  | .projected sources => single "projected" (object [("sources", some (.arr (sources.map encodeProjection)))])
  | .persistentVolumeClaim claimName readOnly => single "persistentVolumeClaim" (object
      [("claimName", some (.text claimName)), ("readOnly", trueOrOmitted readOnly)])
  | .other members => members

def encodeVolume (volume : Volume) : Json :=
  .record [("name", some (.text volume.name))] (sourceMembers volume.source)

def encodeOwnerReference (owner : OwnerReference) : Json :=
  object [("apiVersion", some (.text owner.apiVersion)), ("kind", some (.text owner.kind)),
    ("name", some (.text owner.name)), ("uid", some (.text owner.uid)),
    ("controller", owner.controller.map Json.bool), ("blockOwnerDeletion", owner.blockOwnerDeletion.map Json.bool)]

def encodeMetadata (metadata : ObjectMeta) : Json :=
  .record [("name", textUnlessEmpty metadata.name), ("generateName", textUnlessEmpty metadata.generateName),
    ("namespace", textUnlessEmpty metadata.ns), ("uid", textUnlessEmpty metadata.uid),
    ("labels", metadata.labels.map encodeMap), ("annotations", metadata.annotations.map encodeMap),
    ("finalizers", arrayUnlessEmpty Json.text metadata.finalizers),
    ("ownerReferences", arrayUnlessEmpty encodeOwnerReference metadata.ownerReferences)] metadata.others

def encodeSpec (spec : PodSpec) : Json :=
  .record [("volumes", arrayUnlessEmpty encodeVolume spec.volumes),
    ("initContainers", arrayUnlessEmpty (encodeContainer quantityText) spec.initContainers),
    ("containers", some (.arr (spec.containers.map (encodeContainer quantityText))))] spec.others

def encodePod (pod : Pod) : Json :=
  .record [("metadata", some (encodeMetadata pod.metadata)),
    ("spec", some (encodeSpec quantityText pod.content.spec))] pod.content.others

end AibomWebhook.PodJson
