import AibomWebhook.PayloadIsolation

/-! The status of a workload (postprocess.py, `compile_aibom`): the states of the
containers are reduced to one for each pod, and those of the pods to one for all of
them, with the results of their Jobs. -/

namespace AibomWebhook.WorkloadStatus
open Objects PostprocessData

/-! The rollup. -/

/-- What a discovery file says of its pod. -/
structure PodMetadata where
  name : Option String
  uid : Option String := none
  ns : Option String := none
  ip : Option String := none
  node : Option String := none
  startTime : Option String := none

def exitedBadly (c : ContainerInfo) : Bool := c.exitCode ≠ some 0 && c.exitCode ≠ none

/-- The list that the watcher records. -/
def recordedContainers (codec : GoJson) (jobResults : GoMap) (pods : List Pod) : List ContainerInfo :=
  pods.flatMap fun pod => pod.spec.containers.map (containerInfo codec jobResults pod)

/-! What the list says of a pod, whatever the order of its containers. -/

/-- Some terminated container of the pod. -/
def HasEnded (containers : List ContainerInfo) (pod : String) (kind : ContainerInfo → Prop) : Prop :=
  ∃ c ∈ containers, c.podName = pod ∧ c.terminatedReason ≠ "" ∧ kind c

def OOMKilled (containers : List ContainerInfo) (pod : String) : Prop :=
  HasEnded containers pod fun c => c.terminatedReason = "OOMKilled"

/-- Some container of the pod ended in another state than `Completed`. -/
def EndedOtherwise (containers : List ContainerInfo) (pod : String) : Prop :=
  HasEnded containers pod fun c => c.terminatedReason ≠ "Completed"

/-- The Job that owns the pod came to this result. -/
def JobResult (containers : List ContainerInfo) (pod result : String) : Prop :=
  ∃ c ∈ containers, c.podName = pod ∧ c.jobResult = result

/-- A pod that is not an attempt of a Job that completed. -/
def Counts (containers : List ContainerInfo) (pod : String) : Prop := ¬ JobResult containers pod "Complete"

def Killed (containers : List ContainerInfo) : Prop := ∃ pod, OOMKilled containers pod ∧ Counts containers pod

def Failure (containers : List ContainerInfo) : Prop :=
  ∃ pod, JobResult containers pod "Failed" ∨ EndedOtherwise containers pod ∧ Counts containers pod

def Finished (containers : List ContainerInfo) : Prop := ∃ pod, JobResult containers pod "Complete"

/-- The pod's state is not `Completed` in any order of its containers: one was OOM-killed, or all that exited with
another code than zero have another reason, or there are none of these and all have. -/
def SurelyFailed (containers : List ContainerInfo) (pod : String) : Prop :=
  OOMKilled containers pod ∨
  (HasEnded containers pod fun c => exitedBadly c = true) ∧
    (¬ HasEnded containers pod fun c => exitedBadly c = true ∧ c.terminatedReason = "Completed") ∨
  (HasEnded containers pod fun _ => True) ∧ (¬ HasEnded containers pod fun c => exitedBadly c = true) ∧
    ¬ HasEnded containers pod fun c => c.terminatedReason = "Completed"

/-- What some pod of the list shows, a pod with discovery data shows. -/
structure Shown (discoveries : List PodMetadata) (containers : List ContainerInfo) : Prop where
  killed : Killed containers → ∃ pod, some pod ∈ discoveries.map PodMetadata.name ∧ OOMKilled containers pod ∧
    Counts containers pod
  failure : Failure containers → ∃ pod, some pod ∈ discoveries.map PodMetadata.name ∧
    (JobResult containers pod "Failed" ∨ SurelyFailed containers pod ∧ Counts containers pod)
  finished : Finished containers → ¬ Failure containers → ∃ pod, some pod ∈ discoveries.map PodMetadata.name ∧
    (JobResult containers pod "Complete" ∨ HasEnded containers pod fun _ => True)

/-- All the containers of a pod have the same Job. -/
def OneResult (containers : List ContainerInfo) : Prop :=
  ∀ first ∈ containers, ∀ second ∈ containers, first.podName = second.podName → first.jobResult = second.jobResult

section Pod
variable {containers : List ContainerInfo} {pod : String}

theorem HasEnded.congr {other : List ContainerInfo} (perm : containers.Perm other) {kind : ContainerInfo → Prop} :
    HasEnded containers pod kind ↔ HasEnded other pod kind :=
  exists_congr fun _ => and_congr_left fun _ => perm.mem_iff

end Pod

/-! The status of the workload. -/

section Workload
variable {discoveries : List PodMetadata} {containers : List ContainerInfo}

end Workload

/-! Other orders. -/

section Orders
variable {discoveries otherDiscoveries : List PodMetadata} {containers otherContainers : List ContainerInfo}

theorem JobResult.congr (perm : containers.Perm otherContainers) {pod result : String} :
    JobResult containers pod result ↔ JobResult otherContainers pod result :=
  exists_congr fun _ => and_congr_left fun _ => perm.mem_iff

theorem OneResult.congr (perm : containers.Perm otherContainers) (one : OneResult containers) : OneResult otherContainers :=
  fun first inFirst second inSecond => one first (perm.mem_iff.mpr inFirst) second (perm.mem_iff.mpr inSecond)

theorem Killed.congr (perm : containers.Perm otherContainers) : Killed containers ↔ Killed otherContainers :=
  exists_congr fun _ => and_congr (HasEnded.congr perm) (not_congr (JobResult.congr perm))

theorem Failure.congr (perm : containers.Perm otherContainers) : Failure containers ↔ Failure otherContainers :=
  exists_congr fun _ => or_congr (JobResult.congr perm) (and_congr (HasEnded.congr perm) (not_congr (JobResult.congr perm)))

theorem Finished.congr (perm : containers.Perm otherContainers) : Finished containers ↔ Finished otherContainers :=
  exists_congr fun _ => JobResult.congr perm

theorem SurelyFailed.congr (perm : containers.Perm otherContainers) {pod : String} :
    SurelyFailed containers pod ↔ SurelyFailed otherContainers pod :=
  or_congr (HasEnded.congr perm) (or_congr (and_congr (HasEnded.congr perm) (not_congr (HasEnded.congr perm)))
    (and_congr (HasEnded.congr perm) (and_congr (not_congr (HasEnded.congr perm)) (not_congr (HasEnded.congr perm)))))

theorem Shown.congr (pods : discoveries.Perm otherDiscoveries) (perm : containers.Perm otherContainers)
    (shown : Shown discoveries containers) : Shown otherDiscoveries otherContainers where
  killed := by
    intro killed
    obtain ⟨pod, here, ends, counts⟩ := shown.killed ((Killed.congr perm).mpr killed)
    exact ⟨pod, (pods.map _).mem_iff.mp here, (HasEnded.congr perm).mp ends, (not_congr (JobResult.congr perm)).mp counts⟩
  failure := by
    intro failure
    obtain ⟨pod, here, ends⟩ := shown.failure ((Failure.congr perm).mpr failure)
    refine ⟨pod, (pods.map _).mem_iff.mp here, ends.imp (JobResult.congr perm).mp fun both => ?_⟩
    exact ⟨(SurelyFailed.congr perm).mp both.1, (not_congr (JobResult.congr perm)).mp both.2⟩
  finished := by
    intro finished unfailed
    obtain ⟨pod, here, ends⟩ := shown.finished ((Finished.congr perm).mpr finished) fun failure =>
      unfailed ((Failure.congr perm).mp failure)
    exact ⟨pod, (pods.map _).mem_iff.mp here, ends.imp (JobResult.congr perm).mp (HasEnded.congr perm).mp⟩

end Orders

end AibomWebhook.WorkloadStatus
