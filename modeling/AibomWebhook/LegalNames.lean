import AibomWebhook.Library.Dns1123
import AibomWebhook.Creation

/-! Which names of triggers leave all names and label values that are derived from them
legal: those of the objects, and those that a postprocess Job is created and looked for with. -/

namespace AibomWebhook.LegalNames
open Aibomdata Dns1123 Kubernetes Objects Postprocess PostprocessData Requests Writes

/-! The names. -/

theorem legal_ending {hash : List Char} (digits : ∀ c ∈ hash, c ∈ Sha256.hexDigits) (ending : List Char)
    (legal : IsEnding ending) : IsEnding ('-' :: hash ++ ending) := by
  obtain ⟨middle, last, rfl, plain, word⟩ := legal
  refine ⟨hash ++ '-' :: middle, last, by simp, fun c member => ?_, word⟩
  rcases List.mem_append.mp member with digit | rest
  · have all : ∀ c ∈ Sha256.hexDigits, isWord c = true := List.all_eq_true.mp (by decide)
    exact Or.inl (all c (digits c digit))
  · rcases List.mem_cons.mp rest with rfl | inside
    · exact Or.inr rfl
    · exact plain c inside

theorem postprocess_ending : IsEnding postprocessSuffix.toList :=
  ⟨"aibom-postproces".toList, 's', by decide, List.all_iff_forall_prop.mp (by decide), by decide⟩

theorem data_ending : IsEnding (postprocessSuffix ++ configMapSuffix).toList :=
  ⟨"aibom-postprocess-dat".toList, 'a', by decide, List.all_iff_forall_prop.mp (by decide), by decide⟩

theorem identity_ending : IsEnding workloadIdentitySuffix.toList :=
  ⟨"aibom-workload-identit".toList, 'y', by decide, List.all_iff_forall_prop.mp (by decide), by decide⟩

structure NamesLegal (ns triggerName : String) : Prop where
  job : IsSubdomain (postprocessJobName ns triggerName) ∧ (postprocessJobName ns triggerName).length ≤ maxJobNameLength
  inputs : IsSubdomain (postprocessInputsConfigMapName (postprocessJobName ns triggerName))
  data : IsSubdomain (configMapName triggerName)
  identity : IsSubdomain (workloadIdentityName triggerName) ∧
    (workloadIdentityName triggerName).length ≤ maxJobNameLength

section Names
variable {triggerName : String}

theorem eval_truncated (accepted : subdomain.eval triggerName.toList = .word) {ending : List Char}
    (legal : IsEnding ending) :
    subdomain.eval ((truncatedTriggerBase triggerName).toList ++ ending) = .word ↔ triggerName.toList[38]? ≠ some '.' := by
  rw [truncatedTriggerBase_toList]
  exact eval_cut accepted legal 38

theorem configMapName_legal_iff (accepted : subdomain.eval triggerName.toList = .word) :
    IsSubdomain (configMapName triggerName) ↔ triggerName.toList[38]? ≠ some '.' := by
  have bound := length_truncatedTriggerBase_le triggerName
  have chars : (configMapName triggerName).toList =
      (truncatedTriggerBase triggerName).toList ++ (postprocessSuffix ++ configMapSuffix).toList := by
    rw [configMapName_eq, String.append_assoc, String.toList_append]
  have suffix : (postprocessSuffix ++ configMapSuffix).toList.length = 23 := by decide
  have short : (configMapName triggerName).length ≤ 253 := by
    rw [← String.length_toList, chars, List.length_append, suffix, String.length_toList]
    simp only [baseLength] at bound
    omega
  rw [IsSubdomain, chars, eval_truncated accepted data_ending]
  exact and_iff_right short

theorem length_workloadIdentityName (triggerName : String) :
    (workloadIdentityName triggerName).length ≤ maxJobNameLength := by
  have bound := length_truncatedTriggerBase_le triggerName
  have suffix : workloadIdentitySuffix.length = 24 := by decide
  rw [workloadIdentityName, String.length_append, suffix, maxJobNameLength]
  simp only [baseLength] at bound
  omega

theorem workloadIdentityName_legal_iff (accepted : subdomain.eval triggerName.toList = .word) :
    IsSubdomain (workloadIdentityName triggerName) ↔ triggerName.toList[38]? ≠ some '.' := by
  have short := length_workloadIdentityName triggerName
  simp only [maxJobNameLength] at short
  rw [IsSubdomain, workloadIdentityName, String.toList_append, eval_truncated accepted identity_ending]
  exact and_iff_right (by rw [← workloadIdentityName]; omega)

theorem length_postprocessJobName (ns triggerName : String) :
    (postprocessJobName ns triggerName).length ≤ maxJobNameLength := by
  obtain ⟨hash, length, -, name⟩ := postprocessJobName_toList ns triggerName
  have base := (GoText.length_rdropWhile_le '-' (triggerName.toList.take 36)).trans (List.length_take_le _ _)
  have suffix : postprocessSuffix.toList.length = 18 := by decide
  rw [← String.length_toList, name, maxJobNameLength]
  simp only [List.length_append, List.length_cons, length, suffix]
  omega

/-- With any ending of its own, the Job's name is legal unless its cut is right after a dot. -/
theorem eval_postprocessJobName (accepted : subdomain.eval triggerName.toList = .word) (ns : String)
    {ending : List Char} (legal : IsEnding (postprocessSuffix.toList ++ ending)) :
    subdomain.eval ((postprocessJobName ns triggerName).toList ++ ending) = .word ↔
      triggerName.toList[35]? ≠ some '.' := by
  obtain ⟨hash, -, digits, name⟩ := postprocessJobName_toList ns triggerName
  have chars : (postprocessJobName ns triggerName).toList ++ ending =
      (triggerName.toList.take (35 + 1)).rdropWhile (· = '-') ++
        ('-' :: hash ++ (postprocessSuffix.toList ++ ending)) := by
    rw [name]
    simp
  rw [chars]
  exact eval_cut accepted (legal_ending digits _ legal) 35

theorem postprocessJobName_legal_iff (accepted : subdomain.eval triggerName.toList = .word) (ns : String) :
    IsSubdomain (postprocessJobName ns triggerName) ↔ triggerName.toList[35]? ≠ some '.' := by
  have short := length_postprocessJobName ns triggerName
  simp only [maxJobNameLength] at short
  have legal : IsEnding (postprocessSuffix.toList ++ []) := postprocess_ending
  have whole := eval_postprocessJobName accepted ns legal
  rw [List.append_nil] at whole
  rw [IsSubdomain, whole]
  exact and_iff_right (by omega)

theorem inputsName_legal_iff (accepted : subdomain.eval triggerName.toList = .word) (ns : String) :
    IsSubdomain (postprocessInputsConfigMapName (postprocessJobName ns triggerName)) ↔
      triggerName.toList[35]? ≠ some '.' := by
  have short := length_postprocessJobName ns triggerName
  have suffix : configMapSuffix.length = 5 := by decide
  have legal : IsEnding (postprocessSuffix.toList ++ configMapSuffix.toList) := by
    rw [← String.toList_append]
    exact data_ending
  simp only [maxJobNameLength] at short
  rw [postprocessInputsConfigMapName, IsSubdomain, String.toList_append, eval_postprocessJobName accepted ns legal,
    String.length_append, suffix]
  exact and_iff_right (by omega)

theorem namesLegal_iff (accepted : IsSubdomain triggerName) (ns : String) :
    NamesLegal ns triggerName ↔ triggerName.toList[35]? ≠ some '.' ∧ triggerName.toList[38]? ≠ some '.' := by
  constructor
  · intro legal
    exact ⟨(postprocessJobName_legal_iff accepted.2 ns).mp legal.job.1, (configMapName_legal_iff accepted.2).mp legal.data⟩
  · rintro ⟨first, second⟩
    exact { job := ⟨(postprocessJobName_legal_iff accepted.2 ns).mpr first, length_postprocessJobName ns triggerName⟩
            inputs := (inputsName_legal_iff accepted.2 ns).mpr first
            data := (configMapName_legal_iff accepted.2).mpr second
            identity := ⟨(workloadIdentityName_legal_iff accepted.2).mpr second, length_workloadIdentityName triggerName⟩ }

end Names

/-! The label values. -/

def AllLegal (labels : GoMap) : Prop := ∀ label ∈ GoMap.entries labels, IsLabelValue label.2

/-- The label values that a request sets or selects on. Of an updated ConfigMap, all others were there before. -/
def LabelsLegal : Request → Prop
  | .list _ _ selector => ∀ wanted ∈ selector, IsLabelValue wanted.2
  | .create .job job => AllLegal job.metadata.labels ∧ AllLegal job.content.template.labels
  | .create _ object => AllLegal object.metadata.labels
  | .update _ object => IsLabelValue (GoMap.get labelPostprocessFor object.metadata.labels)
  | _ => True

section Labels
variable {ns triggerName : String}

theorem allLegal_ofList {entries : List (String × String)} (legal : ∀ entry ∈ entries, IsLabelValue entry.2) :
    AllLegal (GoMap.ofList entries) :=
  fun label member => legal label (Keyed.mem_ofList member)

theorem buildPostprocessInputs_labels (w : Watcher) (name : String) (pods : List Pod) (jobResults : GoMap) :
    (w.buildPostprocessInputs ns name pods jobResults).Uses LabelsLegal := by
  have fetches (secretName dataKey : String) : (fetchSigningKey ns secretName dataKey).Uses LabelsLegal := by
    rw [fetchSigningKey, get_bind, Program.uses_call]
    refine ⟨trivial, fun response => ?_⟩
    split <;> trivial
  rw [Watcher.buildPostprocessInputs, get_bind, Program.uses_call]
  refine ⟨trivial, fun response => ?_⟩
  refine Program.Uses.bind (fetches _ _) fun discovery => ?_
  exact Program.Uses.bind (fetches _ _) fun dataset => trivial

theorem createDataConfigMap_labels (name : String) (data : List (String × String)) (legal : IsLabelValue triggerName) :
    (createDataConfigMap ns name triggerName data).Uses LabelsLegal := by
  rw [createDataConfigMap, get_bind, Program.uses_call]
  refine ⟨trivial, fun response => ?_⟩
  split
  · rw [create_bind, Program.uses_call]
    refine ⟨allLegal_ofList (by simpa using legal), fun response => ?_⟩
    split <;> trivial
  · trivial
  · rw [update_bind, Program.uses_call]
    refine ⟨?_, fun response => ?_⟩
    · simpa [LabelsLegal, mergedConfigMap] using legal
    · split <;> trivial

theorem examineJobs_labels (w : Watcher) (triggerUID postprocessName inputsName : String) (jobs : List Job) :
    (w.examineJobs triggerUID postprocessName inputsName jobs).Uses LabelsLegal := by
  induction jobs with
  | nil => trivial
  | cons old rest ih =>
    rw [Watcher.examineJobs]
    split
    · exact ih
    · split
      · exact ⟨trivial, fun _ => ⟨trivial, fun _ => ih⟩⟩
      · dsimp only
        split <;> trivial

theorem launchPostprocessJob_labels (w : Watcher) (triggerKind triggerUID : String) (pods : List Pod)
    (annotations : StringMap) (jobResults : GoMap) (named : IsLabelValue triggerName) (namespaced : IsLabelValue ns) :
    (w.launchPostprocessJob ns triggerName triggerKind triggerUID pods annotations jobResults).Uses LabelsLegal := by
  unfold Watcher.launchPostprocessJob
  refine Program.Uses.bind (buildPostprocessInputs_labels w _ pods jobResults) fun inputs => ?_
  refine Program.Uses.bind (createDataConfigMap_labels _ _ named) fun _ => ?_
  refine Program.Uses.bind ?_ fun _ => ?_
  · rw [Watcher.ensureCompiledSigningKey, generateKey_bind, Program.uses_call]
    refine ⟨trivial, fun response => ?_⟩
    split
    · trivial
    · exact ensure_uses _ fun label member => by cases member
  have labels : AllLegal (GoMap.ofList [(labelPostprocessFor, triggerName), (labelPostprocessNamespace, ns)]) :=
    allLegal_ofList (by simpa using ⟨named, namespaced⟩)
  rw [create_bind, Program.uses_call]
  refine ⟨⟨labels, labels⟩, fun response => ?_⟩
  split
  · refine Program.Uses.bind ((ownDataConfigMap_uses _ _).mono ?_) fun _ => trivial
    rintro request ⟨place, owner, rfl⟩
    trivial
  · trivial
  · trivial

theorem core_labels_iff (w : Watcher) (triggerKind triggerUID : String) (pods : List Pod) (annotations : StringMap)
    (jobResults : GoMap) (namespaced : IsLabelValue ns) :
    (w.createPostprocessJobCore ns triggerName triggerKind triggerUID pods annotations jobResults).Uses LabelsLegal ↔
      IsLabelValue triggerName := by
  unfold Watcher.createPostprocessJobCore Watcher.existingPostprocessJob
  rw [bind_assoc, list_bind, Program.uses_call]
  constructor
  · rintro ⟨selected, -⟩
    exact selected (labelPostprocessFor, triggerName) List.mem_cons_self
  · intro named
    refine ⟨by simpa [LabelsLegal] using ⟨named, namespaced⟩, fun response => ?_⟩
    refine Program.Uses.bind ?_ fun occupant => ?_
    · split
      · trivial
      · exact examineJobs_labels w _ _ _ _
    · cases occupant with
      | otherRun => trivial
      | sameRun => trivial
      | neither => exact launchPostprocessJob_labels w triggerKind triggerUID pods annotations jobResults named namespaced

end Labels

/-! Both. -/

def DerivedLegal (w : Watcher) (ns triggerName : String) : Prop :=
  NamesLegal ns triggerName ∧ ∀ triggerKind triggerUID pods annotations jobResults,
    (w.createPostprocessJobCore ns triggerName triggerKind triggerUID pods annotations jobResults).Uses LabelsLegal

/-- A name of at most 63 characters that neither cut splits right after a dot. -/
theorem derivedLegal_iff (w : Watcher) {ns triggerName : String} (accepted : IsSubdomain triggerName)
    (namespaced : IsLabel ns) : DerivedLegal w ns triggerName ↔
      triggerName.length ≤ 63 ∧ triggerName.toList[35]? ≠ some '.' ∧ triggerName.toList[38]? ≠ some '.' := by
  have legal : IsLabelValue ns := (isLabelValue_iff namespaced.2.2).mpr namespaced.1
  have labels := isLabelValue_iff accepted.2
  rw [DerivedLegal, namesLegal_iff accepted]
  constructor
  · rintro ⟨names, requests⟩
    exact ⟨labels.mp ((core_labels_iff w "Pod" "" [] ∅ none legal).mp (requests _ _ _ _ _)), names⟩
  · rintro ⟨short, names⟩
    exact ⟨names, fun kind uid pods annotations results =>
      (core_labels_iff w kind uid pods annotations results legal).mpr (labels.mpr short)⟩

theorem derivedLegal_train : DerivedLegal Creation.exampleWatcher "team" "train.v2" :=
  (derivedLegal_iff Creation.exampleWatcher (by decide) (by decide)).mpr (by decide)

def longName : String := String.ofList (List.replicate 64 'a')

def dottedName : String := String.ofList (List.replicate 35 'a') ++ ".b"

/-- A pod's name may be too long for a label value, or be cut right after a dot. -/
theorem derived_illegal : (IsSubdomain longName ∧ ∀ w, ¬ DerivedLegal w "team" longName) ∧
    IsSubdomain dottedName ∧ ∀ w, ¬ DerivedLegal w "team" dottedName := by
  have namespaced : IsLabelValue "team" := by decide
  refine ⟨⟨by decide +kernel, fun w legal => ?_⟩, by decide +kernel, fun w legal => ?_⟩
  · have named := (core_labels_iff w "Pod" "" [] ∅ none namespaced).mp (legal.2 _ _ _ _ _)
    exact absurd named.1 (by decide)
  · have accepted : IsSubdomain dottedName := by decide
    exact ((namesLegal_iff accepted "team").mp legal.1).1 (by decide)

end AibomWebhook.LegalNames
