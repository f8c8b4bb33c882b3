import AibomWebhook.Library.GoText
import AibomWebhook.Library.PyText
import AibomWebhook.Library.Sha256

/-! The names shared by the webhook and the watcher (internal/aibomdata), and the
copy of the data ConfigMap's name that the scripts compute (k8s_api.py). -/

namespace AibomWebhook.Aibomdata
open GoText

def maxJobNameLength : Nat := 63
def postprocessSuffix : String := "-aibom-postprocess"
def configMapSuffix : String := "-data"
def workloadIdentitySuffix : String := "-aibom-workload-identity"

def labelPostprocessFor : String := "aibom.io/postprocess-for"
def labelPostprocessNamespace : String := "aibom.io/postprocess-namespace"
def labelKServeInferenceService : String := "serving.kserve.io/inferenceservice"
def annotationKServeStorageSourceURI : String := "internal.serving.kserve.io/storage-initializer-sourceuri"

def discoverySigningKeySecretName : String := "aibom-discovery-hmac-key"
def discoverySigningKeyDataKey : String := "hmac-key"
def datasetSigningKeySecretName : String := "aibom-dataset-hmac-key"
def datasetSigningKeyDataKey : String := "hmac-key"
def compiledSigningKeySecretPrefix : String := "aibom-compiled-signing-key-"
def compiledSigningKeyDataKey : String := "ed25519-key"
def postprocessServiceAccountName : String := "aibom-postprocess"

/-- Object names are ASCII, so that a character of one is a byte of it. -/
def truncatedTriggerBase (triggerName : String) : String :=
  let maxBase := maxJobNameLength - workloadIdentitySuffix.length
  trimRight '-' (if triggerName.length > maxBase then truncate maxBase triggerName else triggerName)

def postprocessJobName (workloadNamespace triggerName : String) : String :=
  let sum := Sha256.sum256 (workloadNamespace ++ "/" ++ triggerName).toUTF8.toList
  let suffix := "-" ++ Sha256.encodeToString (sum.take 4) ++ postprocessSuffix
  let max := maxJobNameLength - suffix.length
  trimRight '-' (if triggerName.length > max then truncate max triggerName else triggerName) ++ suffix

def postprocessInputsConfigMapName (postprocessJobName : String) : String := postprocessJobName ++ configMapSuffix

def compiledSigningKeySecretName (workloadNamespace : String) : String :=
  compiledSigningKeySecretPrefix ++ workloadNamespace

def configMapName (triggerName : String) : String :=
  let name := truncatedTriggerBase triggerName ++ postprocessSuffix ++ configMapSuffix
  if name.length > 253 then trimRight '-' (truncate 253 name) else name

def workloadIdentityName (triggerName : String) : String :=
  truncatedTriggerBase triggerName ++ workloadIdentitySuffix

/-! The constants of k8s_api.py, which repeats those of the watcher. -/

def pythonMaxJobNameLength : Nat := 63
def pythonPostprocessSuffix : String := "-aibom-postprocess"
def pythonConfigMapSuffix : String := "-data"
def pythonWorkloadIdentitySuffixLen : Nat := "-aibom-workload-identity".length

/-- `_postprocess_job_name` of k8s_api.py. Python's slice needs no length check. -/
def pythonPostprocessJobName (triggerName : String) : String :=
  let maxBase := pythonMaxJobNameLength - pythonWorkloadIdentitySuffixLen
  PyText.rstrip '-' (PyText.upTo maxBase triggerName) ++ pythonPostprocessSuffix

/-- `resolve_data_configmap_name` of k8s_api.py, of the two variables it reads. -/
def resolveDataConfigMapName (AIBOM_DATA_CONFIGMAP POD_NAME : String) : String :=
  if AIBOM_DATA_CONFIGMAP ≠ "" then AIBOM_DATA_CONFIGMAP
  else if POD_NAME = "" then ""
  else pythonPostprocessJobName POD_NAME ++ pythonConfigMapSuffix

/-! What decides whether two workloads share these names. -/

def baseLength : Nat := 39

/-- The first 39 characters of the two names differ by trailing hyphens at most. -/
def AgreeUpToHyphens (first second : String) : Prop :=
  ∃ stem m n, first.toList.take baseLength = stem ++ List.replicate m '-' ∧
    second.toList.take baseLength = stem ++ List.replicate n '-'

theorem truncate_of_le {length : Nat} {text : String} (short : text.length ≤ length) :
    truncate length text = text := by
  have all : text.toList.length ≤ length := by rwa [String.length_toList]
  rw [truncate, List.take_of_length_le all, String.ofList_toList]

theorem truncatedTriggerBase_eq (triggerName : String) :
    truncatedTriggerBase triggerName = trimRight '-' (truncate baseLength triggerName) := by
  have budget : maxJobNameLength - workloadIdentitySuffix.length = baseLength := by decide
  simp only [truncatedTriggerBase, budget]
  split
  · rfl
  · rename_i short
    rw [truncate_of_le (by omega)]

theorem truncatedTriggerBase_toList (triggerName : String) :
    (truncatedTriggerBase triggerName).toList =
      (triggerName.toList.take baseLength).rdropWhile (· = '-') := by
  simp [truncatedTriggerBase_eq, trimRight, truncate]

theorem truncatedTriggerBase_eq_iff (first second : String) :
    truncatedTriggerBase first = truncatedTriggerBase second ↔ AgreeUpToHyphens first second := by
  rw [← String.toList_inj, truncatedTriggerBase_toList, truncatedTriggerBase_toList, rdropWhile_eq_iff]
  rfl

theorem length_truncatedTriggerBase_le (triggerName : String) :
    (truncatedTriggerBase triggerName).length ≤ baseLength := by
  rw [← String.length_toList, truncatedTriggerBase_toList]
  exact (length_rdropWhile_le '-' _).trans (List.length_take_le _ _)

/-- The limit of 253 characters is never reached. -/
theorem configMapName_eq (triggerName : String) :
    configMapName triggerName = truncatedTriggerBase triggerName ++ postprocessSuffix ++ configMapSuffix := by
  have bound := length_truncatedTriggerBase_le triggerName
  have suffixes : postprocessSuffix.length = 18 ∧ configMapSuffix.length = 5 := by decide
  have short : ¬ (truncatedTriggerBase triggerName ++ postprocessSuffix ++ configMapSuffix).length > 253 := by
    simp only [String.length_append, suffixes]
    simp only [baseLength] at bound
    omega
  simp only [configMapName, if_neg short]

theorem configMapName_eq_iff (first second : String) :
    configMapName first = configMapName second ↔ AgreeUpToHyphens first second := by
  rw [configMapName_eq, configMapName_eq, String.append_left_inj, String.append_left_inj,
    truncatedTriggerBase_eq_iff]

theorem workloadIdentityName_eq_iff (first second : String) :
    workloadIdentityName first = workloadIdentityName second ↔ AgreeUpToHyphens first second := by
  rw [workloadIdentityName, workloadIdentityName, String.append_left_inj, truncatedTriggerBase_eq_iff]

theorem python_constants_agree : pythonMaxJobNameLength = maxJobNameLength ∧
    pythonPostprocessSuffix = postprocessSuffix ∧ pythonConfigMapSuffix = configMapSuffix ∧
    pythonWorkloadIdentitySuffixLen = workloadIdentitySuffix.length :=
  ⟨rfl, rfl, rfl, rfl⟩

/-- The scripts and the watcher agree on the name of a pod's own data ConfigMap. -/
theorem pythonPostprocessJobName_eq (triggerName : String) :
    pythonPostprocessJobName triggerName ++ pythonConfigMapSuffix = configMapName triggerName := by
  have budget : maxJobNameLength - workloadIdentitySuffix.length = baseLength := by decide
  obtain ⟨longest, postprocess, configMap, identity⟩ := python_constants_agree
  rw [configMapName_eq, truncatedTriggerBase_eq, pythonPostprocessJobName, longest, postprocess, configMap, identity, budget]
  rfl

theorem configMapName_ne_empty (triggerName : String) : configMapName triggerName ≠ "" := by
  intro empty
  have length := congrArg String.length empty
  rw [configMapName_eq] at length
  simp only [String.length_append] at length
  have suffixes : postprocessSuffix.length = 18 := by decide
  simp [suffixes] at length

theorem workloadIdentityName_ne_empty (triggerName : String) : workloadIdentityName triggerName ≠ "" := by
  intro empty
  have length := congrArg String.length empty
  have suffix : workloadIdentitySuffix.length = 24 := by decide
  simp [workloadIdentityName, suffix] at length

theorem postprocessJobName_toList (ns triggerName : String) : ∃ hash : List Char, hash.length = 8 ∧
    (∀ c ∈ hash, c ∈ Sha256.hexDigits) ∧ (postprocessJobName ns triggerName).toList =
      (triggerName.toList.take 36).rdropWhile (· = '-') ++ '-' :: hash ++ postprocessSuffix.toList := by
  have sum := Sha256.length_sum256 (ns ++ "/" ++ triggerName).toUTF8.toList
  rw [postprocessJobName]
  generalize Sha256.sum256 (ns ++ "/" ++ triggerName).toUTF8.toList = sum256 at sum
  have chars : (Sha256.encodeChars (sum256.take 4)).length = 8 := by simp [Sha256.encodeChars, sum]
  refine ⟨Sha256.encodeChars (sum256.take 4), chars, Sha256.encodeChars_subset _, ?_⟩
  have hash : (Sha256.encodeToString (sum256.take 4)).length = 8 := by
    rw [Sha256.encodeToString, String.length_ofList, chars]
  have budget : maxJobNameLength - ("-" ++ Sha256.encodeToString (sum256.take 4) ++ postprocessSuffix).length = 36 := by
    have parts : "-".length = 1 ∧ postprocessSuffix.length = 18 := by decide
    simp only [String.length_append, hash, parts, maxJobNameLength]
  have cut : (if triggerName.length > 36 then truncate 36 triggerName else triggerName) = truncate 36 triggerName := by
    split
    · rfl
    · rename_i short
      rw [truncate_of_le (by omega)]
  simp only [budget, cut]
  simp [trimRight, truncate, Sha256.encodeToString]

/-- The hash in its name keeps the ConfigMap of a run's inputs apart from that of its pods' data. -/
theorem configMapName_ne_inputs (ns triggerName : String) :
    configMapName triggerName ≠ postprocessInputsConfigMapName (postprocessJobName ns triggerName) := by
  intro same
  obtain ⟨hash, length, digits, name⟩ := postprocessJobName_toList ns triggerName
  rw [configMapName_eq, postprocessInputsConfigMapName, String.append_left_inj, ← String.toList_inj, name,
    String.toList_append, List.append_left_inj, truncatedTriggerBase_toList] at same
  obtain ⟨short, first⟩ := exists_rdropWhile_append '-' (triggerName.toList.take 36)
  obtain ⟨long, second⟩ := exists_rdropWhile_append '-' (triggerName.toList.take baseLength)
  generalize (triggerName.toList.take 36).rdropWhile (· = '-') = stem at *
  rw [same] at second
  have bound : stem.length + 9 ≤ 39 := by
    have le := List.length_take_le baseLength triggerName.toList
    rw [second] at le
    simp only [List.length_append, List.length_cons, length, baseLength] at le
    omega
  obtain ⟨digit, rest, rfl⟩ : ∃ digit rest, hash = digit :: rest := by
    cases hash with
    | nil => cases length
    | cons digit rest => exact ⟨digit, rest, rfl⟩
  -- what follows the stem and its hyphen is a digit of the hash, and yet has been cut off as a hyphen
  have here : (triggerName.toList.take 36)[stem.length + 1]? = some digit := by
    rw [List.getElem?_take_of_lt (by omega), ← List.getElem?_take_of_lt (show _ < baseLength by simp only [baseLength]; omega),
      second]
    simp
  rw [first, List.getElem?_append_right (by omega)] at here
  have hyphen := List.eq_of_mem_replicate (List.mem_of_getElem? here)
  exact absurd (hyphen ▸ digits digit List.mem_cons_self) (by decide)

theorem AgreeUpToHyphens.refl (name : String) : AgreeUpToHyphens name name :=
  ⟨name.toList.take baseLength, 0, 0, by simp, by simp⟩

theorem AgreeUpToHyphens.symm {first second : String} (agree : AgreeUpToHyphens first second) :
    AgreeUpToHyphens second first := by
  obtain ⟨stem, m, n, left, right⟩ := agree
  exact ⟨stem, n, m, right, left⟩

instance (first second : String) : Decidable (AgreeUpToHyphens first second) :=
  decidable_of_iff (truncatedTriggerBase first = truncatedTriggerBase second)
    (truncatedTriggerBase_eq_iff first second)

end AibomWebhook.Aibomdata
