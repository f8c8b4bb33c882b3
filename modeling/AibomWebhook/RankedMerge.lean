import AibomWebhook.FirstWins
import AibomWebhook.Creation
import Mathlib.Data.List.Pairwise
import Mathlib.Order.WithBot

/-! The order in which the pods' dataset payloads are merged (internal/watcher/watcher.go,
`buildPostprocessInputs`): by rank, whatever the order in which the API server lists the pods. -/

namespace AibomWebhook.RankedMerge
open Aibomdata DatasetFiles DatasetMerge FirstWins GoText Kubernetes Objects Postprocess PostprocessData Requests

/-! What the function goes by. -/

section Inputs
variable (w : Watcher) (answer : (request : Request) → Response request) (ns configMapName : String)

/-- What is returned when the requests have these answers. -/
def answered (pods : List Pod) (jobResults : GoMap) : PostprocessInputs :=
  ((w.buildPostprocessInputs ns configMapName pods jobResults).run (fun (_ : Unit) request => (answer request, ())) ()).1

def dataCM : Option ConfigMap := (answer (.get .configMap (ns, configMapName))).toOption

def datasetSigningKey : Option Sha256.Bytes :=
  keyOrNone ((fetchDatasetSigningKey ns).run (fun (_ : Unit) request => (answer request, ())) ()).1

/-- A pod's dataset payload, or the empty string where there is none or it does not verify. -/
def accepted (pod : Pod) : String :=
  verifiedData (datasetSigningKey answer ns) .dataset pod (dataCM answer ns configMapName)

/-- What a pod reports for a key of `runtime_info`. -/
def reported (codec : GoJson) (pod : Pod) (key : String) : Option (String × String) :=
  if accepted answer ns configMapName pod = "" then none
  else (codec.unmarshalDatasets (accepted answer ns configMapName pod)).bind fun file => file.runtimeInfo.find? key

end Inputs

/-! Ranks. -/

section Rank
variable {ι : Type} [LinearOrder ι] (index : Pod → ι)

/-- A lower index, or a newer attempt of the same index. -/
def Ahead (first second : Pod) : Prop :=
  index first < index second ∨
    index first = index second ∧ second.metadata.creationTimestamp < first.metadata.creationTimestamp

structure InRank (pods ordered : List Pod) : Prop where
  perm : ordered.Perm pods
  order : ordered.Pairwise fun first second => ¬Ahead index second first

/-- No two pods share both index and creation time. -/
def Untied (pods : List Pod) : Prop :=
  pods.Pairwise fun first second =>
    index first ≠ index second ∨ first.metadata.creationTimestamp ≠ second.metadata.creationTimestamp

end Rank

/-- The index that a pod is annotated with; a pod without one comes last. -/
def annotatedIndex (pod : Pod) : WithTop Int :=
  match atoi (GoMap.get "batch.kubernetes.io/job-completion-index" pod.metadata.annotations) with
  | some index => index
  | none => ⊤

section Property
variable (visit : Visit) (containers : List ContainerInfo → String) (time : Time → String)

/-- A watcher with the JSON of Go, which goes through maps in any order. -/
def speaking (w : Watcher) : Watcher := { w with codec := goJson visit containers time }

/-- Rank decides what is merged. -/
structure RankDecides {ι : Type} [LinearOrder ι] (index : Pod → ι) (w : Watcher)
    (answer : (request : Request) → Response request) (ns configMapName : String) (pods : List Pod) (jobResults : GoMap) :
    Prop where
  passed : ∃ ordered, InRank index pods ordered ∧
    (answered (speaking visit containers time w) answer ns configMapName pods jobResults).datasets =
      ordered.map (accepted answer ns configMapName)
  same : Untied index pods → ∀ others, others.Perm pods → ∀ another : Visit,
    mergeDatasets (goJson another containers time)
        (answered (speaking another containers time w) answer ns configMapName others jobResults).datasets =
      mergeDatasets (goJson visit containers time)
        (answered (speaking visit containers time w) answer ns configMapName pods jobResults).datasets
  newest : Untied index pods → ∃ file, (goJson visit containers time).unmarshalDatasets
      (mergeDatasets (goJson visit containers time)
        (answered (speaking visit containers time w) answer ns configMapName pods jobResults).datasets) = some file ∧
    ∀ key, isGit key = false →
      (∀ pod ∈ pods, reported answer ns configMapName (goJson visit containers time) pod key = none) ∧
          file.runtimeInfo.find? key = none ∨
        ∃ pod ∈ pods, (reported answer ns configMapName (goJson visit containers time) pod key).isSome = true ∧
          file.runtimeInfo.find? key = reported answer ns configMapName (goJson visit containers time) pod key ∧
          ∀ other ∈ pods, (reported answer ns configMapName (goJson visit containers time) other key).isSome = true →
            other = pod ∨ Ahead index pod other

end Property

/-! The inputs. -/

section Answered
variable {answer : (request : Request) → Response request} {ns configMapName : String}

theorem answered_eq (w : Watcher) (pods : List Pod) (jobResults : GoMap) : ∃ signingKey,
    answered w answer ns configMapName pods jobResults =
      inputsOf w.codec (dataCM answer ns configMapName) signingKey (datasetSigningKey answer ns) pods jobResults := by
  unfold answered Watcher.buildPostprocessInputs
  simp only [get_bind, Program.run_call, Program.run_bind]
  exact ⟨_, rfl⟩

theorem answered_datasets (w : Watcher) (pods : List Pod) (jobResults : GoMap) :
    (answered w answer ns configMapName pods jobResults).datasets = (ranked pods).map (accepted answer ns configMapName) := by
  obtain ⟨signingKey, same⟩ := @answered_eq answer ns configMapName w pods jobResults
  rw [same]
  exact List.map_congr_left fun pod member => get_byName ((List.mem_insertionSort _).mp member)

end Answered

/-! Sorting by rank. -/

section Sorted
variable {ι : Type} [LinearOrder ι] {index : Pod → ι} {pods : List Pod}

theorem not_ahead_iff {first second : Pod} : ¬Ahead index second first ↔ index first < index second ∨
    index first = index second ∧ second.metadata.creationTimestamp ≤ first.metadata.creationTimestamp := by
  unfold Ahead
  rcases lt_trichotomy (index first) (index second) with lower | same | higher
  · simp [lower, not_lt_of_gt lower, ne_of_gt lower]
  · simp [same]
  · simp [higher, not_lt_of_gt higher, ne_of_gt higher]

theorem rankedBefore_iff {first second : Pod} : rankedBefore first second = true ↔ Ahead completionIndex first second := by
  unfold rankedBefore Ahead
  by_cases same : completionIndex first = completionIndex second
  · simp [same]
  · simp [same]

/-- One of two pods does not come after the other. -/
theorem not_ahead_total (first second : Pod) : ¬Ahead index second first ∨ ¬Ahead index first second := by
  rw [not_ahead_iff, not_ahead_iff]
  rcases lt_trichotomy (index first) (index second) with lower | same | higher
  · exact Or.inl (Or.inl lower)
  · rcases le_total second.metadata.creationTimestamp first.metadata.creationTimestamp with newer | older
    · exact Or.inl (Or.inr ⟨same, newer⟩)
    · exact Or.inr (Or.inr ⟨same.symm, older⟩)
  · exact Or.inr (Or.inl higher)

theorem not_ahead_trans {first second third : Pod} (one : ¬Ahead index second first) (two : ¬Ahead index third second) :
    ¬Ahead index third first := by
  rw [not_ahead_iff] at one two ⊢
  rcases one with lower | ⟨same, newer⟩
  · rcases two with below | ⟨equal, _⟩
    · exact Or.inl (lower.trans below)
    · exact Or.inl (lower.trans_eq equal)
  · rcases two with below | ⟨equal, younger⟩
    · exact Or.inl (same.trans_lt below)
    · exact Or.inr ⟨same.trans equal, younger.trans newer⟩

theorem inRank_ranked (pods : List Pod) : InRank completionIndex pods (ranked pods) := by
  have total : Std.Total fun first second : Pod => ¬rankedBefore second first = true := by
    refine ⟨fun first second => ?_⟩
    rw [rankedBefore_iff, rankedBefore_iff]
    exact not_ahead_total first second
  have trans : IsTrans Pod fun first second => ¬rankedBefore second first = true := by
    refine ⟨fun first second third one two => ?_⟩
    rw [rankedBefore_iff] at one two ⊢
    exact not_ahead_trans one two
  refine ⟨List.perm_insertionSort _ pods, (List.pairwise_insertionSort _ pods).imp fun {first second} kept => ?_⟩
  rwa [rankedBefore_iff] at kept

/-- Of two pods that do not share their rank, one is ahead. -/
theorem Untied.ahead (untied : Untied index pods) {first second : Pod} (one : first ∈ pods) (two : second ∈ pods)
    (behind : ¬Ahead index second first) : second = first ∨ Ahead index first second := by
  have symm : Std.Symm fun first second : Pod =>
      index first ≠ index second ∨ first.metadata.creationTimestamp ≠ second.metadata.creationTimestamp :=
    ⟨fun _ _ apart => apart.imp Ne.symm Ne.symm⟩
  refine or_iff_not_imp_left.mpr fun different => ?_
  have apart := List.Pairwise.forall untied one two (Ne.symm different)
  rcases not_ahead_iff.mp behind with lower | ⟨same, newer⟩
  · exact Or.inl lower
  · exact Or.inr ⟨same, lt_of_le_of_ne newer (apart.resolve_left (not_not_intro same)).symm⟩

/-- Where no two pods share their rank, there is one order. -/
theorem InRank.unique {others ordered reordered : List Pod} (untied : Untied index pods) (perm : others.Perm pods)
    (first : InRank index pods ordered) (second : InRank index others reordered) : reordered = ordered := by
  refine List.Perm.eq_of_pairwise (fun one two here there before after => ?_) second.order first.order
    (second.perm.trans (perm.trans first.perm.symm))
  have present := perm.mem_iff.mp (second.perm.mem_iff.mp here)
  exact ((untied.ahead present (first.perm.mem_iff.mp there) before).resolve_right after).symm

end Sorted

/-! The merge. -/

section Merge
variable {visit : Visit} {containers : List ContainerInfo → String} {time : Time → String}
  {answer : (request : Request) → Response request} {ns configMapName : String}

/-- The first of the files that has a key is that of the first pod that reports it. -/
theorem firstValue_files (pods : List Pod) (key : String) :
    firstValue (files (goJson visit containers time) (pods.map (accepted answer ns configMapName))) key =
      pods.findSome? fun pod => reported answer ns configMapName (goJson visit containers time) pod key := by
  rw [firstValue, files]
  induction pods with
  | nil => rfl
  | cons pod rest ih =>
    rw [List.map_cons, List.filterMap_cons, List.findSome?_cons, reported]
    by_cases empty : accepted answer ns configMapName pod = ""
    · rw [if_pos empty, if_pos empty]
      exact ih
    · rw [if_neg empty, if_neg empty]
      cases (goJson visit containers time).unmarshalDatasets (accepted answer ns configMapName pod) with
      | none => exact ih
      | some file => rw [List.findSome?_cons, ih, Option.bind_some]

/-- The first pod in the order that reports a key is ahead of all others that do. -/
theorem findSome?_inRank {ι : Type} [LinearOrder ι] {index : Pod → ι} {pods ordered : List Pod} (untied : Untied index pods)
    (ranks : InRank index pods ordered) {α : Type} (report : Pod → Option α) :
    (∀ pod ∈ pods, report pod = none) ∧ ordered.findSome? report = none ∨
      ∃ pod ∈ pods, (report pod).isSome = true ∧ ordered.findSome? report = report pod ∧
        ∀ other ∈ pods, (report other).isSome = true → other = pod ∨ Ahead index pod other := by
  cases found : ordered.findSome? report with
  | none =>
    rw [List.findSome?_eq_none_iff] at found
    exact Or.inl ⟨fun pod member => found pod (ranks.perm.mem_iff.mpr member), rfl⟩
  | some value =>
    obtain ⟨before, pod, after, split, here, silent⟩ := List.findSome?_eq_some_iff.mp found
    have order := ranks.order
    rw [split] at order
    have present : pod ∈ pods := ranks.perm.mem_iff.mp (split ▸ List.mem_append_right _ List.mem_cons_self)
    refine Or.inr ⟨pod, present, by rw [here]; rfl, here.symm, fun other member reports => ?_⟩
    have placed : other ∈ before ++ pod :: after := split ▸ ranks.perm.mem_iff.mpr member
    rcases List.mem_append.mp placed with early | late
    · rw [silent other early] at reports
      cases reports
    · rcases List.mem_cons.mp late with rfl | later
      · exact Or.inl rfl
      · have behind := (List.pairwise_cons.mp (List.pairwise_append.mp order).2.1).1 other later
        exact untied.ahead present member behind

/-- The pods' payloads are merged by rank, where a pod without an index counts as having the largest one. -/
theorem rank_decides (visit : Visit) (containers : List ContainerInfo → String) (time : Time → String) (w : Watcher)
    (answer : (request : Request) → Response request) (ns configMapName : String) (pods : List Pod) (jobResults : GoMap) :
    RankDecides visit containers time completionIndex w answer ns configMapName pods jobResults where
  passed := ⟨ranked pods, inRank_ranked pods, answered_datasets _ pods jobResults⟩
  same := by
    intro untied others perm another
    rw [answered_datasets, answered_datasets, (inRank_ranked pods).unique untied perm (inRank_ranked others)]
    rw [mergeDatasets_visit another containers time visit, mergeDatasets_eq_render]
  newest := by
    intro untied
    rw [answered_datasets]
    refine ⟨_, unmarshal_mergeDatasets visit containers time _, fun key plain => ?_⟩
    rw [(firstWins visit containers time _).values key plain, firstValue_files]
    exact findSome?_inRank untied (inRank_ranked pods) _

end Merge

/-! A pod with the largest index, and a newer one without an index. -/

def largestIndex : Pod :=
  { metadata := { name := "train-0", ns := "team", creationTimestamp := 1
                  annotations := GoMap.ofList [("batch.kubernetes.io/job-completion-index", "9223372036854775807")] }
    content := { spec := { containers := [{ name := "main" }] } } }

def withoutIndex : Pod :=
  { metadata := { name := "train-1", ns := "team", creationTimestamp := 2 }
    content := { spec := { containers := [{ name := "main" }] } } }

def twoPayloads : Cluster :=
  let dataCM : ConfigMap :=
    { metadata := { name := "train-data", ns := "team" }
      content := { data := GoMap.ofList [(jsonKey .dataset "train-0", "\x7b\"runtime_info\": \x7b\"seed\": 1\x7d\x7d"),
        (jsonKey .dataset "train-1", "\x7b\"runtime_info\": \x7b\"seed\": 2\x7d\x7d")] } }
  Cluster.empty.write dataCM

def answerTwo (request : Request) : Response request := (perform "" 0 twoPayloads request).1

theorem unindexed_not_last : ¬RankDecides PayloadIsolation.exampleVisit (fun _ => "[]") (fun _ => "") annotatedIndex
    Creation.exampleWatcher answerTwo "team" "train-data" [largestIndex, withoutIndex] none := by
  intro decides
  obtain ⟨ordered, ranks, passed⟩ := decides.passed
  rw [answered_datasets] at passed
  have order : (ranked [largestIndex, withoutIndex]).map (accepted answerTwo "team" "train-data") =
      [accepted answerTwo "team" "train-data" withoutIndex, accepted answerTwo "team" "train-data" largestIndex] := by
    decide
  have apart : accepted answerTwo "team" "train-data" largestIndex ≠ accepted answerTwo "team" "train-data" withoutIndex := by
    decide
  have two {pod : Pod} (member : pod ∈ ordered) : pod = largestIndex ∨ pod = withoutIndex := by
    simpa using ranks.perm.mem_iff.mp member
  obtain ⟨first, rest, rfl, isFirst, more⟩ := List.map_eq_cons_iff.mp (passed.symm.trans order)
  obtain ⟨second, others, rfl, isSecond, _⟩ := List.map_eq_cons_iff.mp more
  have ahead : Ahead annotatedIndex largestIndex withoutIndex := by
    have index : annotatedIndex largestIndex = ((9223372036854775807 : Int) : WithTop Int) := by
      have found : atoi (GoMap.get "batch.kubernetes.io/job-completion-index" largestIndex.metadata.annotations) =
          some 9223372036854775807 := by decide
      rw [annotatedIndex, found]
    refine Or.inl ?_
    rw [index]
    exact WithTop.coe_lt_top _
  rcases two List.mem_cons_self with rfl | rfl
  · exact apart isFirst
  · rcases two (List.mem_cons_of_mem _ List.mem_cons_self) with rfl | rfl
    · exact (List.pairwise_cons.mp ranks.order).1 _ List.mem_cons_self ahead
    · exact apart isSecond.symm

end AibomWebhook.RankedMerge
