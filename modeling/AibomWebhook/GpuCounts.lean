import AibomWebhook.PatchApplies
import AibomWebhook.PostprocessData
import Mathlib.Algebra.Order.BigOperators.Group.List

/-! The GPUs of a pod: what the scheduler counts before and after the admission patch,
what the discovery container claims, what the watcher records about each container,
and what postprocess.py makes of the records. -/

namespace AibomWebhook.GpuCounts
open Aibomdata JsonPatch Kubernetes Objects PatchApplies PodJson PodPatch Requests Webhook
open PostprocessData hiding gpuResource positiveAmount

/-! The scheduler's rule, on amounts. An init container is given as whether it is
restartable, and its amount. -/

def restartableSum (inits : List (Bool × Int)) : Int := ((inits.filter Prod.fst).map Prod.snd).sum

/-- The most that an ordinary init container needs, with the restartable ones before it. -/
def initPeak (running : Int) : List (Bool × Int) → Int
  | [] => 0
  | (true, amount) :: rest => initPeak (running + amount) rest
  | (false, amount) :: rest => max (running + amount) (initPeak running rest)

def effective (apps : List Int) (inits : List (Bool × Int)) : Int :=
  max (apps.sum + restartableSum inits) (initPeak 0 inits)

theorem initPeak_append (running : Int) (first second : List (Bool × Int)) (nonneg : 0 ≤ initPeak (running + restartableSum first) second) :
    initPeak running (first ++ second) = max (initPeak running first) (initPeak (running + restartableSum first) second) := by
  induction first generalizing running with
  | nil => simpa [initPeak, restartableSum] using nonneg
  | cons entry rest ih =>
    obtain ⟨restartable, amount⟩ := entry
    cases restartable with
    | true =>
      have sum : running + restartableSum ((true, amount) :: rest) = running + amount + restartableSum rest := by
        simp only [restartableSum, List.filter_cons_of_pos, List.map_cons, List.sum_cons]
        omega
      rw [sum] at nonneg ⊢
      exact ih (running + amount) nonneg
    | false =>
      have sum : restartableSum ((false, amount) :: rest) = restartableSum rest := by simp [restartableSum]
      rw [sum] at nonneg ⊢
      simp only [List.cons_append, initPeak, ih running nonneg, max_assoc]

/-- One more init container at the end costs nothing if it claims no more than the
application containers together. -/
theorem effective_append_ordinary {apps : List Int} {inits : List (Bool × Int)} {amount : Int}
    (restartable : 0 ≤ restartableSum inits) (nonneg : 0 ≤ amount) (bounded : amount ≤ apps.sum) :
    effective apps (inits ++ [(false, amount)]) = effective apps inits := by
  have sum : restartableSum (inits ++ [(false, amount)]) = restartableSum inits := by simp [restartableSum]
  have peak : initPeak (0 + restartableSum inits) [(false, amount)] = restartableSum inits + amount := by
    simp only [initPeak]
    omega
  rw [effective, effective, sum, initPeak_append 0 inits _ (by rw [peak]; omega), peak]
  omega

theorem effective_append_free {apps : List Int} (inits : List (Bool × Int)) :
    effective apps (inits ++ [(true, 0)]) = effective apps inits := by
  have sum : restartableSum (inits ++ [(true, 0)]) = restartableSum inits := by simp [restartableSum]
  have peak : initPeak (0 + restartableSum inits) [(true, 0)] = 0 := rfl
  have floor (running : Int) (inits : List (Bool × Int)) : 0 ≤ initPeak running inits := by
    induction inits generalizing running with
    | nil => exact le_refl 0
    | cons entry rest ih =>
      obtain ⟨restartable, amount⟩ := entry
      cases restartable with
      | true => exact ih _
      | false => exact (ih running).trans (le_max_right _ _)
  rw [effective, effective, sum, initPeak_append 0 inits _ (le_refl 0), peak, max_eq_left (floor 0 inits)]

/-! A pod's amounts. -/

def amount (resources : ResourceList) : Int := ((ResourceList.get gpuResource resources).map Quantity.nano).getD 0

/-- A request that is not given is the limit. -/
def gpuRequest (container : Container) : Int :=
  match ResourceList.get gpuResource container.resources.requests with
  | some request => request.nano
  | none => amount container.resources.limits

def isRestartable (container : Container) : Bool := container.restartPolicy = some "Always"

def effectiveGPU (pod : Pod) : Int :=
  effective (pod.spec.containers.map gpuRequest)
    (pod.spec.initContainers.map fun container => (isRestartable container, gpuRequest container))

/-- What the API server accepts of an extended resource: whole amounts, and a request
only along with a limit of the same amount. -/
structure AcceptedGPUs (container : Container) : Prop where
  limit : ∀ quantity, ResourceList.get gpuResource container.resources.limits = some quantity →
    0 ≤ quantity.nano ∧ 10 ^ 9 ∣ quantity.nano
  request : ∀ quantity, ResourceList.get gpuResource container.resources.requests = some quantity →
    ∃ limit, ResourceList.get gpuResource container.resources.limits = some limit ∧ limit.nano = quantity.nano

/-! What the watcher records and postprocess.py adds up. -/

/-- The containers of which `buildPostprocessInputs` writes containers.json. -/
def recordedContainers (codec : GoJson) (jobResults : GoMap) (pods : List Pod) : List ContainerInfo :=
  pods.flatMap fun pod => pod.spec.containers.map (containerInfo codec jobResults pod)

/-- The sum of some counts, if there are any. -/
def total (counts : List Int) : Option Int := if counts.isEmpty then none else some counts.sum

/-- `pod_gpu_count` of postprocess.py, on the decoded containers.json. -/
def podGpuCount (podName : String) (containers : List ContainerInfo) : Option Int :=
  total (containers.filterMap fun c => if c.podName = podName then c.gpuLimit else none)

/-- The gpu_limit values that are recorded for one pod. -/
def gpuLimits (codec : GoJson) (jobResults : GoMap) (pod : Pod) : List Int :=
  (pod.spec.containers.map (containerInfo codec jobResults pod)).filterMap ContainerInfo.gpuLimit

/-- The discovery container's claim. -/
def claimed (m : Mutator) (pod : Pod) : Option Quantity :=
  ResourceList.get gpuResource (discoveryContainer m pod).resources.limits

/-! One container. -/

/-- What `podGPUResource` counts of a container. -/
def claim (container : Container) : Option Quantity :=
  (positiveAmount gpuResource container.resources.limits).or (positiveAmount gpuResource container.resources.requests)

theorem value_positive (quantity : Quantity) : 0 < quantity.value ↔ 0 < quantity.nano := by
  rw [Quantity.value]
  omega

theorem filter_value (quantity : Option Quantity) :
    (quantity.map Quantity.value).filter (0 < ·) = (quantity.filter Quantity.positive).map Quantity.value := by
  cases quantity with
  | none => rfl
  | some quantity =>
    by_cases positive : 0 < quantity.nano
    · simp [Option.filter, Quantity.positive, positive, value_positive]
    · simp [Option.filter, Quantity.positive, positive, value_positive]

theorem gpuLimit_eq (codec : GoJson) (jobResults : GoMap) (pod : Pod) (container : Container) :
    (containerInfo codec jobResults pod container).gpuLimit = (claim container).map Quantity.value := by
  simp only [containerInfo, claim, positiveAmount, PostprocessData.gpuResource, gpuResource, filter_value, Option.map_or]

theorem claim_whole {container : Container} (accepted : AcceptedGPUs container) {quantity : Quantity}
    (claims : claim container = some quantity) : 0 < quantity.nano ∧ 10 ^ 9 ∣ quantity.nano := by
  rw [claim, Option.or_eq_some_iff] at claims
  rcases claims with limit | ⟨-, request⟩
  · obtain ⟨found, positive⟩ := Option.filter_eq_some_iff.mp limit
    exact ⟨by simpa [Quantity.positive] using positive, (accepted.limit quantity found).2⟩
  · obtain ⟨found, positive⟩ := Option.filter_eq_some_iff.mp request
    obtain ⟨limit, given, same⟩ := accepted.request quantity found
    exact ⟨by simpa [Quantity.positive] using positive, same ▸ (accepted.limit limit given).2⟩

theorem gpuRequest_eq {container : Container} (accepted : AcceptedGPUs container) :
    gpuRequest container = ((claim container).map Quantity.nano).getD 0 := by
  have limits : amount container.resources.limits =
      ((positiveAmount gpuResource container.resources.limits).map Quantity.nano).getD 0 := by
    rw [amount, positiveAmount]
    cases found : ResourceList.get gpuResource container.resources.limits with
    | none => rfl
    | some quantity =>
      have nonneg := (accepted.limit quantity found).1
      by_cases positive : 0 < quantity.nano
      · simp [Option.filter, Quantity.positive, positive]
      · have zero : quantity.nano = 0 := by omega
        simp [Option.filter, Quantity.positive, zero]
  rw [gpuRequest, claim]
  cases requested : ResourceList.get gpuResource container.resources.requests with
  | none =>
    have none : positiveAmount gpuResource container.resources.requests = .none := by rw [positiveAmount, requested]; rfl
    rw [none, Option.or_none, ← limits]
  | some request =>
    obtain ⟨limit, given, same⟩ := accepted.request request requested
    have nonneg := (accepted.limit limit given).1
    by_cases positive : 0 < limit.nano
    · have first : positiveAmount gpuResource container.resources.limits = some limit := by
        simp [positiveAmount, given, Option.filter, Quantity.positive, positive]
      simp [first, same]
    · have zero : request.nano = 0 := by omega
      have first : positiveAmount gpuResource container.resources.limits = none := by
        simp [positiveAmount, given, Option.filter, Quantity.positive, positive]
      have second : positiveAmount gpuResource container.resources.requests = none := by
        simp [positiveAmount, requested, Option.filter, Quantity.positive, zero]
      simp [first, second, zero]

/-! The sums. -/

section Sums
variable {pod : Pod}

def claims (pod : Pod) : List Quantity := pod.spec.containers.filterMap claim

theorem podGPUResource_nano (pod : Pod) :
    (podGPUResource pod).map Quantity.nano = total ((claims pod).map Quantity.nano) := by
  have folded {step : Option Quantity → Container → Option Quantity} (steps : ∀ start container, step start container =
      (claim container).elim start fun quantity => some ((start.getD Quantity.zero).add quantity))
      (containers : List Container) (start : Option Quantity) : (containers.foldl step start).map Quantity.nano =
      total ((start.toList ++ containers.filterMap claim).map Quantity.nano) := by
    induction containers generalizing start with
    | nil => cases start <;> simp [total]
    | cons container rest ih =>
      rw [List.foldl_cons, steps, ih]
      cases here : claim container with
      | none => simp [here]
      | some quantity => cases start <;> simp [here, total, Quantity.add, Quantity.zero, add_assoc]
  refine folded (fun start container => ?_) pod.spec.containers none
  unfold claim
  split
  · rename_i nothing
    rw [nothing, Option.elim_none]
  · rename_i something
    rw [something, Option.elim_some]

theorem sum_gpuRequest {containers : List Container} (accepted : ∀ container ∈ containers, AcceptedGPUs container) :
    (containers.map gpuRequest).sum = ((containers.filterMap claim).map Quantity.nano).sum := by
  induction containers with
  | nil => rfl
  | cons container rest ih =>
    have tail := ih fun other member => accepted other (List.mem_cons_of_mem container member)
    rw [List.map_cons, List.sum_cons, tail, gpuRequest_eq (accepted container List.mem_cons_self)]
    cases here : claim container <;> simp [here]

theorem sum_value {quantities : List Quantity} (whole : ∀ quantity ∈ quantities, 10 ^ 9 ∣ quantity.nano) :
    (quantities.map Quantity.nano).sum = 10 ^ 9 * (quantities.map Quantity.value).sum := by
  induction quantities with
  | nil => rfl
  | cons quantity rest ih =>
    have tail := ih fun other member => whole other (List.mem_cons_of_mem quantity member)
    obtain ⟨count, amount⟩ := whole quantity List.mem_cons_self
    have here : quantity.value = count := by
      rw [Quantity.value, amount]
      omega
    simp only [List.map_cons, List.sum_cons, tail, here, amount]
    omega

theorem gpuLimits_eq (codec : GoJson) (jobResults : GoMap) (pod : Pod) :
    gpuLimits codec jobResults pod = (claims pod).map Quantity.value := by
  rw [gpuLimits, claims, List.filterMap_map, List.map_filterMap]
  exact List.filterMap_congr fun container _ => gpuLimit_eq codec jobResults pod container

theorem discovery_resources (m : Mutator) (pod : Pod) :
    (discoveryContainer m pod).resources = (m.buildDiscoveryInitContainer pod).resources := by
  simp only [discoveryContainer]
  split <;> rfl

theorem claimed_eq (m : Mutator) (pod : Pod) : claimed m pod = podGPUResource pod := by
  rw [claimed, discovery_resources, Mutator.buildDiscoveryInitContainer]
  cases podGPUResource pod with
  | none => rfl
  | some quantity => simp [ResourceList.get, Keyed.find?_put]

/-- The claim in whole GPUs, which it is a multiple of. -/
theorem claimed_value (m : Mutator) (accepted : ∀ container ∈ pod.spec.containers, AcceptedGPUs container) :
    (claimed m pod).map Quantity.value = total ((claims pod).map Quantity.value) := by
  have whole : ∀ quantity ∈ claims pod, 10 ^ 9 ∣ quantity.nano := by
    intro quantity member
    obtain ⟨container, inside, claims⟩ := List.mem_filterMap.mp member
    exact (claim_whole (accepted container inside) claims).2
  have nano := podGPUResource_nano pod
  rw [claimed_eq]
  rw [total] at nano ⊢
  rw [List.isEmpty_map] at nano ⊢
  split at nano
  · rename_i nothing
    rw [Option.map_eq_none_iff.mp nano, if_pos nothing]
    rfl
  · rename_i something
    obtain ⟨quantity, found, amount⟩ := Option.map_eq_some_iff.mp nano
    rw [found, if_neg something, Option.map_some, Quantity.value, amount, sum_value whole]
    congr 1
    omega

end Sums

/-! The records of one pod among those of others. -/

theorem podGpuCount_eq (codec : GoJson) (jobResults : GoMap) {pods : List Pod} {pod : Pod} (member : pod ∈ pods)
    (distinct : (pods.map fun pod => pod.metadata.name).Nodup) :
    podGpuCount pod.metadata.name (recordedContainers codec jobResults pods) = total (gpuLimits codec jobResults pod) := by
  have own (other : Pod) : (other.spec.containers.map (containerInfo codec jobResults other)).filterMap
      (fun c => if c.podName = pod.metadata.name then c.gpuLimit else none) =
        if other.metadata.name = pod.metadata.name then gpuLimits codec jobResults other else [] := by
    rw [gpuLimits, List.filterMap_map, List.filterMap_map]
    split
    · rename_i same
      refine List.filterMap_congr fun container _ => if_pos same
    · rename_i different
      refine List.filterMap_eq_nil_iff.mpr fun container _ => if_neg different
  rw [podGpuCount, recordedContainers, List.filterMap_flatMap]
  simp only [own]
  congr 1
  induction pods with
  | nil => cases member
  | cons first rest ih =>
    rw [List.map_cons, List.nodup_cons] at distinct
    rw [List.flatMap_cons]
    rcases List.mem_cons.mp member with rfl | later
    · have others : rest.flatMap (fun other =>
          if other.metadata.name = pod.metadata.name then gpuLimits codec jobResults other else []) = [] := by
        refine List.flatMap_eq_nil_iff.mpr fun other inside => if_neg fun same => distinct.1 ?_
        exact List.mem_map.mpr ⟨other, inside, same⟩
      rw [others, if_pos rfl, List.append_nil]
    · have different : first.metadata.name ≠ pod.metadata.name := by
        intro same
        exact distinct.1 (List.mem_map.mpr ⟨pod, later, same.symm⟩)
      rw [if_neg different, List.nil_append]
      exact ih later distinct.2

/-! The patch. -/

theorem total_getD (counts : List Int) : (total counts).getD 0 = counts.sum := by
  cases counts <;> rfl

theorem gpuRequest_nonneg {container : Container} (accepted : AcceptedGPUs container) : 0 ≤ gpuRequest container := by
  rw [gpuRequest_eq accepted]
  cases here : claim container with
  | none => exact le_refl 0
  | some quantity => exact (claim_whole accepted here).1.le

theorem discovery_restartable (m : Mutator) (pod : Pod) : isRestartable (discoveryContainer m pod) = false := by
  have plain : (discoveryContainer m pod).restartPolicy = none := by
    simp only [discoveryContainer]
    split <;> rfl
  rw [isRestartable, plain]
  rfl

theorem gpuRequest_discovery (m : Mutator) {pod : Pod}
    (accepted : ∀ container ∈ pod.spec.containers, AcceptedGPUs container) :
    gpuRequest (discoveryContainer m pod) = (pod.spec.containers.map gpuRequest).sum := by
  have unrequested : ResourceList.get gpuResource (discoveryContainer m pod).resources.requests = none := by
    rw [discovery_resources]
    rfl
  have limit : amount (discoveryContainer m pod).resources.limits = ((claimed m pod).map Quantity.nano).getD 0 := rfl
  rw [sum_gpuRequest accepted, gpuRequest, unrequested]
  dsimp only
  rw [limit, claimed_eq, podGPUResource_nano, total_getD]
  rfl

/-- A running pod has the resources that it was admitted with. -/
def SameResources (before after : Pod) : Prop :=
  after.spec.containers.map Container.resources = before.spec.containers.map Container.resources

theorem sameResources_instrumented (m : Mutator) (pod : Pod) (identitySecretName : String) :
    SameResources pod (instrumented m pod identitySecretName) := by
  simp only [SameResources, instrumented, Pod.spec]
  split
  · rw [List.map_map]
    rfl
  · rfl

theorem map_of_resources {α : Type} (read : ResourceRequirements → α) {before after : Pod}
    (same : SameResources before after) :
    after.spec.containers.map (fun container => read container.resources) =
      before.spec.containers.map fun container => read container.resources := by
  have mapped := congrArg (List.map read) same
  rwa [List.map_map, List.map_map] at mapped

theorem effectiveGPU_instrumented (m : Mutator) {pod : Pod} (identitySecretName : String)
    (apps : ∀ container ∈ pod.spec.containers, AcceptedGPUs container)
    (inits : ∀ container ∈ pod.spec.initContainers, AcceptedGPUs container) :
    effectiveGPU (instrumented m pod identitySecretName) = effectiveGPU pod := by
  have same : (instrumented m pod identitySecretName).spec.containers.map gpuRequest =
      pod.spec.containers.map gpuRequest :=
    map_of_resources (fun resources => gpuRequest { name := "", resources := resources })
      (sameResources_instrumented m pod identitySecretName)
  have sum : 0 ≤ (pod.spec.containers.map gpuRequest).sum := by
    refine List.sum_nonneg fun amount member => ?_
    obtain ⟨container, inside, rfl⟩ := List.mem_map.mp member
    exact gpuRequest_nonneg (apps container inside)
  have restartable : 0 ≤ restartableSum
      (pod.spec.initContainers.map fun container => (isRestartable container, gpuRequest container)) := by
    refine List.sum_nonneg fun amount member => ?_
    obtain ⟨entry, inside, rfl⟩ := List.mem_map.mp member
    obtain ⟨container, here, rfl⟩ := List.mem_map.mp (List.mem_filter.mp inside).1
    exact gpuRequest_nonneg (inits container here)
  have discovered := effective_append_ordinary restartable sum (le_refl _)
  have added : (instrumented m pod identitySecretName).spec.initContainers =
      pod.spec.initContainers ++ injectedInitContainers m pod := rfl
  rw [effectiveGPU, effectiveGPU, same, added, injectedInitContainers, List.map_append, List.map_append, List.map_singleton,
    discovery_restartable, gpuRequest_discovery m apps]
  cases m.datasetDetection with
  | false => simpa using discovered
  | true =>
    have sidecar : (isRestartable (m.buildDatasetSidecarContainer pod), gpuRequest (m.buildDatasetSidecarContainer pod)) =
        (true, 0) := rfl
    rw [if_pos rfl, List.map_singleton, sidecar, ← List.append_assoc, effective_append_free, discovered]

/-! The counts. -/

theorem requestsGPU_eq (pod : Pod) : requestsGPU pod = !(claims pod).isEmpty := by
  rw [Bool.eq_iff_iff, Bool.not_eq_true', List.isEmpty_eq_false_iff_exists_mem, requestsGPU, List.any_eq_true]
  constructor
  · rintro ⟨container, member, either⟩
    have claims : (claim container).isSome = true := by
      rw [claim, Option.isSome_or]
      exact either
    obtain ⟨quantity, here⟩ := Option.isSome_iff_exists.mp claims
    exact ⟨quantity, List.mem_filterMap.mpr ⟨container, member, here⟩⟩
  · rintro ⟨quantity, member⟩
    obtain ⟨container, inside, here⟩ := List.mem_filterMap.mp member
    refine ⟨container, inside, ?_⟩
    rw [← Option.isSome_or, ← claim, here]
    rfl

theorem claims_of_resources {before after : Pod} (same : SameResources before after) : claims after = claims before := by
  have mapped : after.spec.containers.map claim = before.spec.containers.map claim :=
    map_of_resources (fun resources => claim { name := "", resources := resources }) same
  have through (containers : List Container) : containers.filterMap claim = (containers.map claim).filterMap id := by
    rw [List.filterMap_map]
    rfl
  rw [claims, claims, through, through, mapped]

/-- A patch that applies leaves the scheduler's count as it is, and the pod with the resources it has. -/
theorem patched_gpus (qt : Quantity → String) (m : Mutator) {pod : Pod} {requesterUsername : String}
    {patches : List PatchOperation} (apps : ∀ container ∈ pod.spec.containers, AcceptedGPUs container)
    (inits : ∀ container ∈ pod.spec.initContainers, AcceptedGPUs container)
    (returned : (m.mutate pod requesterUsername).Returns (.ok patches)) (applied : ¬ Fails qt patches pod) :
    ∃ result, Applies qt patches pod result ∧ effectiveGPU result = effectiveGPU pod ∧ SameResources pod result ∧
      (m.shouldMutate pod requesterUsername = true → discoveryContainer m pod ∈ result.spec.initContainers) := by
  cases decision : m.shouldMutate pod requesterUsername with
  | false =>
    obtain rfl := Except.ok.inj ((mutate_returns_rejected decision _).mp returned)
    exact ⟨stripped pod, strip_applies pod, rfl, rfl, fun accepted => by cases accepted⟩
  | true =>
    obtain ⟨identitySecretName, _, returned⟩ := (mutate_returns_accepted decision _).mp returned
    obtain rfl := Except.ok.inj returned
    have set_ : m.datasetDetection = true → ∀ container ∈ pod.spec.containers, emptyPythonPath container = false := by
      intro detection container member
      by_contra unset
      exact applied (instrument_fails identitySecretName detection ⟨container, member, by simpa using unset⟩)
    refine ⟨_, instrument_applies identitySecretName set_, effectiveGPU_instrumented m identitySecretName apps inits,
      sameResources_instrumented m pod identitySecretName, fun _ => ?_⟩
    exact List.mem_append_right _ (List.mem_append_left _ (List.mem_singleton_self _))

/-- Of a pod that the API server accepts: the patch does not change what the scheduler counts, and what the
discovery container claims is what is recorded and counted of the running pod, if it requests any. -/
theorem gpu_counts_agree (qt : Quantity → String) (m : Mutator) {pod : Pod}
    (apps : ∀ container ∈ pod.spec.containers, AcceptedGPUs container)
    (inits : ∀ container ∈ pod.spec.initContainers, AcceptedGPUs container) :
    (∀ requesterUsername patches, (m.mutate pod requesterUsername).Returns (.ok patches) → ¬ Fails qt patches pod →
      ∃ result, Applies qt patches pod result ∧ effectiveGPU result = effectiveGPU pod ∧ SameResources pod result ∧
        (m.shouldMutate pod requesterUsername = true → discoveryContainer m pod ∈ result.spec.initContainers)) ∧
    (claimed m pod).isSome = requestsGPU pod ∧
    ∀ codec jobResults (pods : List Pod), (pods.map fun pod => pod.metadata.name).Nodup →
      ∀ running ∈ pods, SameResources pod running →
        (claimed m pod).map Quantity.value = total (gpuLimits codec jobResults running) ∧
        podGpuCount running.metadata.name (recordedContainers codec jobResults pods) =
          total (gpuLimits codec jobResults running) ∧
        (claimed m pod).isSome = podsRequestGPU [running] := by
  have value := claimed_value m apps
  have some_iff : (claimed m pod).isSome = !(claims pod).isEmpty := by
    rw [← Option.isSome_map (f := Quantity.value), value, total, List.isEmpty_map]
    cases claims pod <;> rfl
  refine ⟨fun _ _ returned applied => patched_gpus qt m apps inits returned applied,
    some_iff.trans (requestsGPU_eq pod).symm, fun codec jobResults pods distinct running member same => ⟨?_, ?_, ?_⟩⟩
  · rw [value, gpuLimits_eq, claims_of_resources same]
  · exact podGpuCount_eq codec jobResults member distinct
  · have watched : podsRequestGPU [running] = requestsGPU running := by
      simp only [podsRequestGPU, List.any_cons, List.any_nil, Bool.or_false]
      rfl
    rw [watched, requestsGPU_eq, claims_of_resources same, some_iff]

/-! A pod with a device plugin of its own and two containers on GPUs. -/

def gpuContainer (name : String) (gpus : Nat) : Container where
  name := name
  resources := { limits := Keyed.ofList [(gpuResource, .ofNat gpus)], requests := Keyed.ofList [(gpuResource, .ofNat gpus)] }

def gpuPod : Pod where
  metadata := { name := "train-0", ns := "team" }
  content := { spec := { initContainers := [{ gpuContainer "warm" 1 with restartPolicy := some "Always" }]
                         containers := [gpuContainer "main" 2, gpuContainer "eval" 1] } }

theorem accepted_gpuContainer (container : Container) (gpus : Nat)
    (resources : container.resources = (gpuContainer "" gpus).resources) : AcceptedGPUs container where
  limit quantity given := by
    rw [resources] at given
    obtain rfl := Option.some.inj (given.symm.trans (rfl : _ = some (Quantity.ofNat gpus)))
    simp only [Quantity.ofNat]
    omega
  request quantity given := by
    rw [resources] at given ⊢
    obtain rfl := Option.some.inj (given.symm.trans (rfl : _ = some (Quantity.ofNat gpus)))
    exact ⟨_, rfl, rfl⟩

theorem gpu_counts_agree_of_three : (claimed detectingMutator gpuPod).isSome = requestsGPU gpuPod ∧
    effectiveGPU gpuPod = 4 * 10 ^ 9 ∧
    ∀ codec, podGpuCount "train-0" (recordedContainers codec none [gpuPod]) = some 3 := by
  have apps : ∀ container ∈ gpuPod.spec.containers, AcceptedGPUs container := by
    intro container member
    rcases List.mem_pair.mp member with rfl | rfl
    · exact accepted_gpuContainer _ 2 rfl
    · exact accepted_gpuContainer _ 1 rfl
  have inits : ∀ container ∈ gpuPod.spec.initContainers, AcceptedGPUs container := by
    intro container member
    obtain rfl := List.mem_singleton.mp member
    exact accepted_gpuContainer _ 1 rfl
  obtain ⟨-, requested, counted⟩ := gpu_counts_agree (fun _ => "1") detectingMutator apps inits
  have three : (claimed detectingMutator gpuPod).map Quantity.value = some 3 := by decide
  refine ⟨requested, by decide, fun codec => ?_⟩
  obtain ⟨limits, count, -⟩ := counted codec none [gpuPod] (by simp) gpuPod (by simp) rfl
  exact count.trans (limits.symm.trans three)

end AibomWebhook.GpuCounts
