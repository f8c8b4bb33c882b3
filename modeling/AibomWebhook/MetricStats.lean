import AibomWebhook.Library.Keyed
import AibomWebhook.Library.Rounding
import Mathlib.Algebra.Order.BigOperators.Group.List
import Mathlib.Algebra.Order.Floor.Semiring
import Mathlib.Data.List.Sort

/-! The statistics of a metric (postprocess.py, `compute_metric_stats` and
`aggregate_pod_metrics`), over rational numbers. Without a result, the source raises. -/

namespace AibomWebhook.MetricStats
open Rounding

structure DataPoint where
  timestamp : String
  value : ℚ

structure Segments where
  firstThird : Option ℚ
  middleThird : Option ℚ
  lastThird : Option ℚ

structure Stats where
  min : ℚ
  max : ℚ
  avg : ℚ
  p95 : ℚ
  segments : Segments

def divide (total : ℚ) (count : ℕ) : Option ℚ := if count = 0 then none else some (total / count)

def chunkAvg (values : List ℚ) : Option (Option ℚ) :=
  if values.isEmpty then some none else (divide values.sum values.length).map some

/-- The values in the order of their timestamps. -/
def inOrder (dataPoints : List DataPoint) : List ℚ :=
  (dataPoints.insertionSort fun first second => first.timestamp ≤ second.timestamp).map DataPoint.value

def p95Index (n : ℕ) : ℕ := min (n - 1) (⌈(19 / 20 : ℚ) * n⌉₊ - 1)

def computeMetricStats (dataPoints : List DataPoint) : Option (Option Stats) :=
  if dataPoints.isEmpty then some none
  else do
    let values := inOrder dataPoints
    let n := values.length
    let sortedValues := values.insertionSort (· ≤ ·)
    let third := n / 3
    let least ← values.min?
    let most ← values.max?
    let avg ← divide values.sum n
    let p95 ← sortedValues[p95Index n]?
    let firstThird ← chunkAvg (values.take third)
    let middleThird ← chunkAvg ((values.drop third).take (2 * third - third))
    let lastThird ← chunkAvg (values.drop (2 * third))
    return some { min := least, max := most, avg := avg, p95 := p95
                  segments := { firstThird := firstThird, middleThird := middleThird, lastThird := lastThird } }

/-- 2 decimals at magnitude 1 and above, 3 significant figures below. -/
def roundStat (value : ℚ) : ℚ :=
  if value = 0 ∨ 1 ≤ |value| then roundTo (decimalUnit 2) value else roundTo (digitUnit 3 value) value

structure MetricDetail where
  unit : String
  min : ℚ
  max : ℚ
  avg : ℚ
  p95 : ℚ
  segments : Segments

/-- The metrics of a pod by their names. -/
abbrev PodMetrics := String → Option Stats

/-- What is collected of a pod's data points. -/
def collected (samples : String → List DataPoint) : PodMetrics := fun name => (computeMetricStats (samples name)).join

section Aggregate
variable (scale : ℚ)

/-- An average that is reported. -/
def reported (values : List ℚ) : Option ℚ := do
  let avg ← chunkAvg values
  return roundStat ((← avg) * scale)

def segment (seg : Segments → Option ℚ) (perPodStats : List Stats) : Option (Option ℚ) :=
  let segValues := perPodStats.filterMap fun stats => seg stats.segments
  if segValues.isEmpty then some none else (reported scale segValues).map some

def metricDetail (displayUnit : String) (perPodStats : List Stats) : Option MetricDetail := do
  let firstThird ← segment scale Segments.firstThird perPodStats
  let middleThird ← segment scale Segments.middleThird perPodStats
  let lastThird ← segment scale Segments.lastThird perPodStats
  let least ← (perPodStats.map Stats.min).min?
  let most ← (perPodStats.map Stats.max).max?
  let avg ← reported scale (perPodStats.map Stats.avg)
  let p95 ← reported scale (perPodStats.map Stats.p95)
  return { unit := displayUnit, min := roundStat (least * scale), max := roundStat (most * scale), avg := avg, p95 := p95
           segments := { firstThird := firstThird, middleThird := middleThird, lastThird := lastThird } }

end Aggregate

/-- `scale or 1`. -/
def displayScale : Option ℚ → ℚ
  | none => 1
  | some scale => if scale = 0 then 1 else scale

def statsOf (pods : List PodMetrics) (name : String) : List Stats := pods.filterMap fun pod => pod name

def aggregatePodMetrics (pods : List PodMetrics) (unitMap : List (String × Option ℚ × String)) :
    Option (List (String × MetricDetail)) :=
  (unitMap.filter fun entry => !(statsOf pods entry.1).isEmpty).mapM fun entry =>
    (metricDetail (displayScale entry.2.1) entry.2.2 (statsOf pods entry.1)).map fun detail => (entry.1, detail)

/-! The property. -/

def mean (values : List ℚ) : Option ℚ := if values = [] then none else some (values.sum / values.length)

/-- How many of the values are at most this one. -/
def rank (values : List ℚ) (value : ℚ) : ℕ := values.countP fun other => other ≤ value

def valuesOf (dataPoints : List DataPoint) : List ℚ := dataPoints.map DataPoint.value

/-- The same samples by their timestamps; those of one time stay as they came. -/
structure Timed (dataPoints ordered : List DataPoint) : Prop where
  perm : ordered.Perm dataPoints
  times : ordered.Pairwise fun first second => first.timestamp ≤ second.timestamp
  stable : ∀ time, ordered.filter (fun point => point.timestamp = time) =
    dataPoints.filter fun point => point.timestamp = time

/-- What is said of one pod. -/
structure Reduced (dataPoints : List DataPoint) (stats : Stats) : Prop where
  /-- The segments part the samples in thirds, what is over goes to the last, and their means make up the average. -/
  segments : ∃ first middle last, Timed dataPoints (first ++ middle ++ last) ∧
    first.length = dataPoints.length / 3 ∧ middle.length = dataPoints.length / 3 ∧
    stats.segments = ⟨mean (valuesOf first), mean (valuesOf middle), mean (valuesOf last)⟩ ∧
    stats.avg = (first.length * (mean (valuesOf first)).getD 0 + middle.length * (mean (valuesOf middle)).getD 0 +
      last.length * (mean (valuesOf last)).getD 0) / dataPoints.length
  /-- The least sample that at least 95% of the samples do not exceed. -/
  p95_mem : stats.p95 ∈ valuesOf dataPoints
  p95_enough : 19 / 20 * (dataPoints.length : ℚ) ≤ rank (valuesOf dataPoints) stats.p95
  p95_least : ∀ value ∈ valuesOf dataPoints,
    19 / 20 * (dataPoints.length : ℚ) ≤ rank (valuesOf dataPoints) value → stats.p95 ≤ value

/-- What is said of all pods. -/
structure Consistent (samples : List ℚ) (scale : ℚ) (detail : MetricDetail) : Prop where
  min : ∃ least ∈ samples, (∀ value ∈ samples, least ≤ value) ∧ detail.min = roundStat (least * scale)
  max : ∃ most ∈ samples, (∀ value ∈ samples, value ≤ most) ∧ detail.max = roundStat (most * scale)
  avg : detail.min ≤ detail.avg ∧ detail.avg ≤ detail.max
  p95 : detail.min ≤ detail.p95 ∧ detail.p95 ≤ detail.max
  segments : ∀ value, detail.segments.firstThird = some value ∨ detail.segments.middleThird = some value ∨
    detail.segments.lastThird = some value → detail.min ≤ value ∧ value ≤ detail.max

/-! Rounding keeps the order. -/

/-- The place of the first digit, from which the unit of rounding is two places away. -/
def leading (value : ℚ) : ℤ := if value = 0 ∨ 1 ≤ |value| then 0 else Int.log 10 |value|

theorem roundStat_eq (value : ℚ) : roundStat value = roundTo ((10 : ℚ) ^ (leading value - 2)) value := by
  unfold roundStat leading
  split
  · rfl
  · rfl

theorem zpow_leading_le {value : ℚ} (some_ : value ≠ 0) : (10 : ℚ) ^ leading value ≤ |value| := by
  unfold leading
  split
  · rename_i large
    rw [zpow_zero]
    exact large.resolve_left some_
  · exact_mod_cast Int.zpow_log_le_self (by norm_num) (abs_pos.mpr some_)

theorem lt_zpow_leading {value : ℚ} (small : leading value < 0) : |value| < (10 : ℚ) ^ (leading value + 1) := by
  unfold leading at small ⊢
  split
  · rename_i large
    rw [if_pos large] at small
    omega
  · exact_mod_cast Int.lt_zpow_succ_log_self (by norm_num) |value|

theorem leading_le_zero (value : ℚ) : leading value ≤ 0 := by
  unfold leading
  split
  · exact le_refl 0
  · rename_i small
    rw [not_or, not_le] at small
    have below : Int.log 10 |value| < 0 := by
      refine (Int.lt_zpow_iff_log_lt (by norm_num) (abs_pos.mpr small.1)).mp ?_
      rw [zpow_zero]
      exact small.2
    omega

/-- A power of ten between a small and a large magnitude. -/
theorem pivot_between {small large : ℚ} (some_ : large ≠ 0) (below : leading small < leading large) :
    |small| ≤ (10 : ℚ) ^ leading large ∧ (10 : ℚ) ^ leading large ≤ |large| := by
  have above := leading_le_zero large
  refine ⟨?_, zpow_leading_le some_⟩
  calc |small| ≤ (10 : ℚ) ^ (leading small + 1) := le_of_lt (lt_zpow_leading (by omega))
    _ ≤ (10 : ℚ) ^ leading large := zpow_le_zpow_right₀ (by norm_num) (by omega)

theorem unit_pos (value : ℚ) : (0 : ℚ) < 10 ^ (leading value - 2) := zpow_pos (by norm_num) _

/-- Numbers on both sides of zero, or of a power of ten that is not below the last digits of either. -/
theorem roundStat_le_of_pivot {x y : ℚ} {n place : ℤ} (first : leading x - 2 ≤ place) (second : leading y - 2 ≤ place)
    (below : x ≤ n * (10 : ℚ) ^ place) (above : n * (10 : ℚ) ^ place ≤ y) : roundStat x ≤ roundStat y := by
  rw [roundStat_eq, roundStat_eq]
  exact roundTo_le_of_pivot (unit_pos x) (unit_pos y) below above (roundTo_pow first n) (roundTo_pow second n)

theorem roundStat_mono_of_pos {x y : ℚ} (positive : 0 < x) (le : x ≤ y) : roundStat x ≤ roundStat y := by
  have other : 0 < y := lt_of_lt_of_le positive le
  have magnitude : |x| = x := abs_of_pos positive
  have otherMagnitude : |y| = y := abs_of_pos other
  rcases lt_trichotomy (leading x) (leading y) with below | same | above
  · obtain ⟨small, large⟩ := pivot_between (ne_of_gt other) below
    rw [magnitude] at small
    rw [otherMagnitude] at large
    refine @roundStat_le_of_pivot x y 1 (leading y) (by omega) (by omega) ?_ ?_
    · rwa [Int.cast_one, one_mul]
    · rwa [Int.cast_one, one_mul]
  · rw [roundStat_eq, roundStat_eq, same]
    exact roundTo_mono (unit_pos y) le
  · obtain ⟨small, large⟩ := pivot_between (ne_of_gt positive) above
    rw [otherMagnitude] at small
    rw [magnitude] at large
    rw [le_antisymm le (small.trans large)]

theorem roundStat_mono_of_neg {x y : ℚ} (negative : y < 0) (le : x ≤ y) : roundStat x ≤ roundStat y := by
  have other : x < 0 := lt_of_le_of_lt le negative
  have magnitude : |y| = -y := abs_of_neg negative
  have otherMagnitude : |x| = -x := abs_of_neg other
  rcases lt_trichotomy (leading y) (leading x) with below | same | above
  · obtain ⟨small, large⟩ := pivot_between (ne_of_lt other) below
    rw [magnitude] at small
    rw [otherMagnitude] at large
    refine @roundStat_le_of_pivot x y (-1) (leading x) (by omega) (by omega) ?_ ?_
    · push_cast
      linarith
    · push_cast
      linarith
  · rw [roundStat_eq, roundStat_eq, same]
    exact roundTo_mono (unit_pos x) le
  · obtain ⟨small, large⟩ := pivot_between (ne_of_lt negative) above
    rw [otherMagnitude] at small
    rw [magnitude] at large
    rw [show x = y by linarith]

theorem roundStat_mono {x y : ℚ} (le : x ≤ y) : roundStat x ≤ roundStat y := by
  rcases lt_or_ge 0 x with positive | low
  · exact roundStat_mono_of_pos positive le
  · rcases lt_or_ge y 0 with negative | high
    · exact roundStat_mono_of_neg negative le
    · have first := leading_le_zero x
      have second := leading_le_zero y
      refine @roundStat_le_of_pivot x y 0 0 (by omega) (by omega) ?_ ?_
      · rwa [Int.cast_zero, zero_mul]
      · rwa [Int.cast_zero, zero_mul]

/-! Averages. -/

theorem chunkAvg_eq (values : List ℚ) : chunkAvg values = some (mean values) := by
  cases values with
  | nil => rfl
  | cons value rest => rfl

theorem divide_eq {values : List ℚ} (some_ : values ≠ []) :
    divide values.sum values.length = some (values.sum / values.length) :=
  if_neg (List.length_pos_iff.mpr some_).ne'

theorem length_pos {values : List ℚ} (some_ : values ≠ []) : (0 : ℚ) < values.length :=
  Nat.cast_pos.mpr (List.length_pos_iff.mpr some_)

/-- An average lies where the values lie. -/
theorem mean_between {values : List ℚ} {low high : ℚ} (some_ : values ≠ []) (above : ∀ value ∈ values, low ≤ value)
    (below : ∀ value ∈ values, value ≤ high) :
    low ≤ values.sum / values.length ∧ values.sum / values.length ≤ high := by
  have least := List.card_nsmul_le_sum values low above
  have most := List.sum_le_card_nsmul values high below
  rw [nsmul_eq_mul, mul_comm] at least most
  exact ⟨(le_div_iff₀ (length_pos some_)).mpr least, (div_le_iff₀ (length_pos some_)).mpr most⟩

theorem mean_some_between {values : List ℚ} {low high value : ℚ} (found : mean values = some value)
    (above : ∀ value ∈ values, low ≤ value) (below : ∀ value ∈ values, value ≤ high) : low ≤ value ∧ value ≤ high := by
  unfold mean at found
  split at found
  · cases found
  · rename_i some_
    obtain rfl := Option.some.inj found
    exact mean_between some_ above below

/-- A mean times the number of values is their sum, also of no values. -/
theorem length_mul_mean (values : List ℚ) : values.length * (mean values).getD 0 = values.sum := by
  unfold mean
  split
  · rename_i none_
    subst none_
    simp
  · rename_i some_
    rw [Option.getD_some, mul_div_cancel₀]
    exact ne_of_gt (length_pos some_)

/-! The rank of the 95th percentile. -/

theorem p95Index_lt {n : ℕ} (positive : 0 < n) : p95Index n < n := by
  unfold p95Index
  omega

/-- As many values as the index says are what 95% come to. -/
theorem p95Index_succ {n : ℕ} (positive : 0 < n) : p95Index n + 1 = ⌈(19 / 20 : ℚ) * n⌉₊ := by
  have width : (0 : ℚ) < n := Nat.cast_pos.mpr positive
  have some_ : 0 < ⌈(19 / 20 : ℚ) * n⌉₊ := Nat.ceil_pos.mpr (by linarith)
  have most : ⌈(19 / 20 : ℚ) * n⌉₊ ≤ n := Nat.ceil_le.mpr (by linarith)
  unfold p95Index
  omega

section Rank
variable {values : List ℚ} {i : ℕ} {value : ℚ}

theorem rank_sorted (values : List ℚ) (value : ℚ) : rank (values.insertionSort (· ≤ ·)) value = rank values value :=
  (List.perm_insertionSort (· ≤ ·) values).countP_eq _

/-- A value in order has at least the values before it below it. -/
theorem lt_rank (ordered : values.Pairwise (· ≤ ·)) (found : values[i]? = some value) : i < rank values value := by
  have inside := (List.getElem?_eq_some_iff.mp found).1
  have front : ((values.take (i + 1)).countP fun other => other ≤ value) = i + 1 := by
    rw [List.countP_eq_length.mpr, List.length_take_of_le inside]
    intro other member
    rw [decide_eq_true_eq]
    obtain ⟨j, here⟩ := List.mem_iff_getElem?.mp member
    rw [List.getElem?_take] at here
    split at here
    · rename_i within
      rcases Nat.lt_or_eq_of_le (Nat.le_of_lt_succ within) with before | rfl
      · obtain ⟨low, rfl⟩ := List.getElem?_eq_some_iff.mp here
        obtain ⟨high, rfl⟩ := List.getElem?_eq_some_iff.mp found
        exact List.pairwise_iff_getElem.mp ordered j i low high before
      · rw [found] at here
        exact le_of_eq (Option.some.inj here).symm
    · cases here
  have whole : rank values value = ((values.take (i + 1)).countP fun other => other ≤ value) +
      ((values.drop (i + 1)).countP fun other => other ≤ value) := by
    rw [← List.countP_append, List.take_append_drop]
    rfl
  omega

/-- What is less than a value in order exceeds only values before it. -/
theorem rank_le (ordered : values.Pairwise (· ≤ ·)) (found : values[i]? = some value) {other : ℚ} (less : other < value) :
    rank values other ≤ i := by
  have back : ((values.drop i).countP fun one => one ≤ other) = 0 := by
    rw [List.countP_eq_zero]
    intro one member
    rw [decide_eq_true_eq, not_le]
    obtain ⟨j, here⟩ := List.mem_iff_getElem?.mp member
    rw [List.getElem?_drop] at here
    refine lt_of_lt_of_le less ?_
    rcases Nat.eq_zero_or_pos j with rfl | after
    · rw [Nat.add_zero, found] at here
      exact le_of_eq (Option.some.inj here)
    · obtain ⟨low, rfl⟩ := List.getElem?_eq_some_iff.mp found
      obtain ⟨high, rfl⟩ := List.getElem?_eq_some_iff.mp here
      exact List.pairwise_iff_getElem.mp ordered i (i + j) low high (by omega)
  have front : ((values.take i).countP fun one => one ≤ other) ≤ i :=
    List.countP_le_length.trans (List.length_take_le i values)
  have whole : rank values other = ((values.take i).countP fun one => one ≤ other) +
      ((values.drop i).countP fun one => one ≤ other) := by
    rw [← List.countP_append, List.take_append_drop]
    rfl
  omega

end Rank

/-! One pod. -/

theorem exists_min {values : List ℚ} (some_ : values ≠ []) :
    ∃ least, values.min? = some least ∧ least ∈ values ∧ ∀ value ∈ values, least ≤ value := by
  obtain ⟨least, found⟩ := Option.isSome_iff_exists.mp (List.isSome_min?_of_ne_nil some_)
  exact ⟨least, found, List.min?_eq_some_iff.mp found⟩

theorem exists_max {values : List ℚ} (some_ : values ≠ []) :
    ∃ most, values.max? = some most ∧ most ∈ values ∧ ∀ value ∈ values, value ≤ most := by
  obtain ⟨most, found⟩ := Option.isSome_iff_exists.mp (List.isSome_max?_of_ne_nil some_)
  exact ⟨most, found, List.max?_eq_some_iff.mp found⟩

theorem thirds {α : Type} (items : List α) (third : ℕ) :
    items.take third ++ (items.drop third).take (2 * third - third) ++ items.drop (2 * third) = items := by
  have double : 2 * third - third = third := by omega
  have again : items.drop (2 * third) = (items.drop third).drop third := by
    rw [List.drop_drop]
    exact congrArg (fun n => items.drop n) (by omega)
  rw [double, again, List.append_assoc, List.take_append_drop, List.take_append_drop]

/-- Sorting keeps the samples of one time in the order that they came in. -/
theorem timed_insertionSort (dataPoints : List DataPoint) :
    Timed dataPoints (dataPoints.insertionSort fun first second => first.timestamp ≤ second.timestamp) := by
  have total : Std.Total fun first second : DataPoint => first.timestamp ≤ second.timestamp :=
    ⟨fun first second => String.le_total first.timestamp second.timestamp⟩
  have trans : IsTrans DataPoint fun first second => first.timestamp ≤ second.timestamp :=
    ⟨fun _ _ _ => String.le_trans⟩
  refine ⟨List.perm_insertionSort _ dataPoints, List.pairwise_insertionSort _ dataPoints, fun time => ?_⟩
  have level : (dataPoints.filter fun point => point.timestamp = time).Pairwise fun first second =>
      first.timestamp ≤ second.timestamp := by
    refine List.pairwise_of_forall_mem_list fun first one second two => ?_
    rw [List.mem_filter, decide_eq_true_eq] at one two
    have same : first.timestamp = second.timestamp := one.2.trans two.2.symm
    exact same ▸ String.le_refl first.timestamp
  have kept := (List.sublist_insertionSort level List.filter_sublist).filter fun point => decide (point.timestamp = time)
  rw [List.filter_filter] at kept
  simp only [Bool.and_self] at kept
  exact (kept.eq_of_length ((List.perm_insertionSort _ dataPoints).filter _).length_eq.symm).symm

theorem perm_inOrder (dataPoints : List DataPoint) : (inOrder dataPoints).Perm (valuesOf dataPoints) :=
  (List.perm_insertionSort _ dataPoints).map DataPoint.value

theorem length_valuesOf (dataPoints : List DataPoint) : (valuesOf dataPoints).length = dataPoints.length :=
  List.length_map _

theorem length_inOrder (dataPoints : List DataPoint) : (inOrder dataPoints).length = dataPoints.length :=
  (perm_inOrder dataPoints).length_eq.trans (length_valuesOf dataPoints)

theorem rank_inOrder (dataPoints : List DataPoint) (value : ℚ) :
    rank (inOrder dataPoints) value = rank (valuesOf dataPoints) value :=
  (perm_inOrder dataPoints).countP_eq _

/-- The slices of the values are those of the samples. -/
theorem exists_thirds (dataPoints : List DataPoint) {third : ℕ} (small : third = dataPoints.length / 3) :
    ∃ first middle last, Timed dataPoints (first ++ middle ++ last) ∧ first.length = third ∧ middle.length = third ∧
      (inOrder dataPoints).take third = valuesOf first ∧
      ((inOrder dataPoints).drop third).take (2 * third - third) = valuesOf middle ∧
      (inOrder dataPoints).drop (2 * third) = valuesOf last := by
  have timed := timed_insertionSort dataPoints
  have length := List.length_insertionSort (fun first second : DataPoint => first.timestamp ≤ second.timestamp) dataPoints
  rw [inOrder]
  generalize (dataPoints.insertionSort fun first second => first.timestamp ≤ second.timestamp) = ordered at timed length
  refine ⟨ordered.take third, (ordered.drop third).take (2 * third - third), ordered.drop (2 * third),
    (thirds ordered third).symm ▸ timed, ?_, ?_, ?_, ?_, ?_⟩
  · rw [List.length_take, length]
    omega
  · rw [List.length_take, List.length_drop, length]
    omega
  · exact List.map_take.symm
  · rw [valuesOf, List.map_take, List.map_drop]
  · exact List.map_drop.symm

theorem inOrder_eq_nil_iff {dataPoints : List DataPoint} : inOrder dataPoints = [] ↔ dataPoints = [] := by
  rw [inOrder, List.map_eq_nil_iff, ← List.length_eq_zero_iff, List.length_insertionSort, List.length_eq_zero_iff]

/-- What a pod's statistics are. -/
structure IsStats (dataPoints : List DataPoint) (stats : Stats) : Prop where
  reduced : Reduced dataPoints stats
  min : stats.min ∈ inOrder dataPoints ∧ ∀ value ∈ inOrder dataPoints, stats.min ≤ value
  max : stats.max ∈ inOrder dataPoints ∧ ∀ value ∈ inOrder dataPoints, value ≤ stats.max
  between : ∀ value, value = stats.avg ∨ value = stats.p95 ∨ stats.segments.firstThird = some value ∨
    stats.segments.middleThird = some value ∨ stats.segments.lastThird = some value → stats.min ≤ value ∧ value ≤ stats.max

theorem exists_p95 {values : List ℚ} (some_ : values ≠ []) :
    ∃ p95, (values.insertionSort (· ≤ ·))[p95Index values.length]? = some p95 ∧ p95 ∈ values ∧
      19 / 20 * (values.length : ℚ) ≤ rank values p95 ∧
      ∀ value ∈ values, 19 / 20 * (values.length : ℚ) ≤ rank values value → p95 ≤ value := by
  have positive := List.length_pos_iff.mpr some_
  have inside : p95Index values.length < (values.insertionSort (· ≤ ·)).length := by
    rw [List.length_insertionSort]
    exact p95Index_lt positive
  have ordered : (values.insertionSort (· ≤ ·)).Pairwise (· ≤ ·) := List.pairwise_insertionSort (· ≤ ·) values
  have found := List.getElem?_eq_getElem inside
  have enough := p95Index_succ positive
  refine ⟨_, found, ?_, ?_, fun value member covered => ?_⟩
  · exact (List.mem_insertionSort _).mp (List.getElem_mem inside)
  · have below := lt_rank ordered found
    rw [rank_sorted] at below
    refine (Nat.le_ceil _).trans (Nat.cast_le.mpr ?_)
    omega
  · by_contra less
    have few := rank_le ordered found (not_le.mp less)
    rw [rank_sorted] at few
    have more := Nat.ceil_le.mpr covered
    omega

theorem computeMetricStats_spec {dataPoints : List DataPoint} (some_ : dataPoints ≠ []) :
    ∃ stats, computeMetricStats dataPoints = some (some stats) ∧ IsStats dataPoints stats := by
  have values := mt inOrder_eq_nil_iff.mp some_
  obtain ⟨least, leastFound, leastMem, above⟩ := exists_min values
  obtain ⟨most, mostFound, mostMem, below⟩ := exists_max values
  obtain ⟨p95, p95Found, p95Mem, enough, smallest⟩ := exists_p95 values
  have length := length_inOrder dataPoints
  obtain ⟨first, middle, last, timed, firstLength, middleLength, firstValues, middleValues, lastValues⟩ :=
    exists_thirds dataPoints (congrArg (· / 3) length)
  have parts := thirds (inOrder dataPoints) ((inOrder dataPoints).length / 3)
  have nonempty : dataPoints.isEmpty = false := List.isEmpty_eq_false_iff.mpr some_
  have inside {chunk : List ℚ} {value : ℚ} (chunks : ∀ other ∈ chunk, other ∈ inOrder dataPoints)
      (found : mean chunk = some value) : least ≤ value ∧ value ≤ most :=
    mean_some_between found (fun other member => above other (chunks other member)) fun other member =>
      below other (chunks other member)
  refine ⟨{ min := least, max := most, avg := (inOrder dataPoints).sum / (inOrder dataPoints).length, p95 := p95
            segments := { firstThird := mean ((inOrder dataPoints).take ((inOrder dataPoints).length / 3))
                          middleThird := mean (((inOrder dataPoints).drop ((inOrder dataPoints).length / 3)).take
                            (2 * ((inOrder dataPoints).length / 3) - (inOrder dataPoints).length / 3))
                          lastThird := mean ((inOrder dataPoints).drop (2 * ((inOrder dataPoints).length / 3))) } },
    ?_, ⟨⟨first, middle, last, timed, length ▸ firstLength, length ▸ middleLength, ?_, ?_⟩,
      (perm_inOrder dataPoints).mem_iff.mp p95Mem, ?_, ?_⟩, ⟨leastMem, above⟩, ⟨mostMem, below⟩, ?_⟩
  · simp only [computeMetricStats, nonempty, Bool.false_eq_true, if_false, leastFound, mostFound, divide_eq values, p95Found,
      chunkAvg_eq, Option.bind_eq_bind, Option.bind_some, Option.pure_def]
  · rw [firstValues, middleValues, lastValues]
  · rw [← length_valuesOf, ← length_valuesOf, ← length_valuesOf, length_mul_mean, length_mul_mean, length_mul_mean,
      ← firstValues, ← middleValues, ← lastValues, ← List.sum_append, ← List.sum_append, parts, length]
  · rw [← rank_inOrder, ← length]
    exact enough
  · intro value member
    rw [← rank_inOrder, ← length]
    exact smallest value ((perm_inOrder dataPoints).mem_iff.mpr member)
  · rintro value (rfl | rfl | first | middle | last)
    · exact mean_between values above below
    · exact ⟨above _ p95Mem, below _ p95Mem⟩
    · exact inside (fun other member => List.mem_of_mem_take member) first
    · exact inside (fun other member => List.mem_of_mem_drop (List.mem_of_mem_take member)) middle
    · exact inside (fun other member => List.mem_of_mem_drop member) last

/-! All pods. -/

section Pods
variable {scale low high : ℚ} {perPodStats : List Stats}

theorem reported_between {values : List ℚ} (positive : 0 < scale) (some_ : values ≠ []) (above : ∀ value ∈ values, low ≤ value)
    (below : ∀ value ∈ values, value ≤ high) : ∃ value, reported scale values = some value ∧
      roundStat (low * scale) ≤ value ∧ value ≤ roundStat (high * scale) := by
  obtain ⟨least, most⟩ := mean_between some_ above below
  refine ⟨roundStat (values.sum / values.length * scale), ?_, ?_, ?_⟩
  · rw [reported, chunkAvg_eq, mean, if_neg some_]
    rfl
  · exact roundStat_mono (mul_le_mul_of_nonneg_right least (le_of_lt positive))
  · exact roundStat_mono (mul_le_mul_of_nonneg_right most (le_of_lt positive))

theorem segment_between (positive : 0 < scale) (seg : Segments → Option ℚ)
    (between : ∀ stats ∈ perPodStats, ∀ value, seg stats.segments = some value → low ≤ value ∧ value ≤ high) :
    ∃ result, segment scale seg perPodStats = some result ∧
      ∀ value, result = some value → roundStat (low * scale) ≤ value ∧ value ≤ roundStat (high * scale) := by
  have inside : ∀ value ∈ perPodStats.filterMap fun stats => seg stats.segments, low ≤ value ∧ value ≤ high := by
    intro value member
    obtain ⟨stats, present, found⟩ := List.mem_filterMap.mp member
    exact between stats present value found
  unfold segment
  by_cases none_ : (perPodStats.filterMap fun stats => seg stats.segments) = []
  · rw [none_]
    exact ⟨none, rfl, nofun⟩
  · obtain ⟨value, found, bounds⟩ := reported_between positive none_ (fun value member => (inside value member).1)
      fun value member => (inside value member).2
    simp only [List.isEmpty_eq_false_iff.mpr none_, Bool.false_eq_true, if_false, found, Option.map_some]
    refine ⟨some value, rfl, fun other same => ?_⟩
    obtain rfl := Option.some.inj same
    exact bounds

/-- The bounds of every pod are bounds of what is reported of all of them. -/
theorem metricDetail_spec (positive : 0 < scale) (displayUnit : String) (some_ : perPodStats ≠ [])
    (lows : ∀ stats ∈ perPodStats, low ≤ stats.min) (highs : ∀ stats ∈ perPodStats, stats.max ≤ high)
    (least : low ∈ perPodStats.map Stats.min) (most : high ∈ perPodStats.map Stats.max)
    (between : ∀ stats ∈ perPodStats, ∀ value, value = stats.avg ∨ value = stats.p95 ∨
      stats.segments.firstThird = some value ∨ stats.segments.middleThird = some value ∨
      stats.segments.lastThird = some value → stats.min ≤ value ∧ value ≤ stats.max) :
    ∃ detail, metricDetail scale displayUnit perPodStats = some detail ∧ detail.unit = displayUnit ∧
      detail.min = roundStat (low * scale) ∧ detail.max = roundStat (high * scale) ∧
      (detail.min ≤ detail.avg ∧ detail.avg ≤ detail.max) ∧ (detail.min ≤ detail.p95 ∧ detail.p95 ≤ detail.max) ∧
      ∀ value, detail.segments.firstThird = some value ∨ detail.segments.middleThird = some value ∨
        detail.segments.lastThird = some value → detail.min ≤ value ∧ value ≤ detail.max := by
  have inside (stats : Stats) (member : stats ∈ perPodStats) (value : ℚ) (one : stats.min ≤ value ∧ value ≤ stats.max) :
      low ≤ value ∧ value ≤ high := ⟨(lows stats member).trans one.1, one.2.trans (highs stats member)⟩
  have averages : ∀ value ∈ perPodStats.map Stats.avg, low ≤ value ∧ value ≤ high := by
    intro value member
    obtain ⟨stats, present, rfl⟩ := List.mem_map.mp member
    exact inside stats present _ (between stats present _ (Or.inl rfl))
  have percentiles : ∀ value ∈ perPodStats.map Stats.p95, low ≤ value ∧ value ≤ high := by
    intro value member
    obtain ⟨stats, present, rfl⟩ := List.mem_map.mp member
    exact inside stats present _ (between stats present _ (Or.inr (Or.inl rfl)))
  have smallest : (perPodStats.map Stats.min).min? = some low := by
    refine List.min?_eq_some_iff.mpr ⟨least, fun value member => ?_⟩
    obtain ⟨stats, present, rfl⟩ := List.mem_map.mp member
    exact lows stats present
  have largest : (perPodStats.map Stats.max).max? = some high := by
    refine List.max?_eq_some_iff.mpr ⟨most, fun value member => ?_⟩
    obtain ⟨stats, present, rfl⟩ := List.mem_map.mp member
    exact highs stats present
  obtain ⟨avg, avgFound, avgBounds⟩ := reported_between positive (mt List.map_eq_nil_iff.mp some_)
    (fun value member => (averages value member).1) fun value member => (averages value member).2
  obtain ⟨p95, p95Found, p95Bounds⟩ := reported_between positive (mt List.map_eq_nil_iff.mp some_)
    (fun value member => (percentiles value member).1) fun value member => (percentiles value member).2
  obtain ⟨first, firstFound, firstBounds⟩ := @segment_between scale low high perPodStats positive Segments.firstThird
    fun stats member value found =>
      inside stats member value (between stats member value (Or.inr (Or.inr (Or.inl found))))
  obtain ⟨middle, middleFound, middleBounds⟩ := @segment_between scale low high perPodStats positive Segments.middleThird
    fun stats member value found =>
      inside stats member value (between stats member value (Or.inr (Or.inr (Or.inr (Or.inl found)))))
  obtain ⟨last, lastFound, lastBounds⟩ := @segment_between scale low high perPodStats positive Segments.lastThird
    fun stats member value found =>
      inside stats member value (between stats member value (Or.inr (Or.inr (Or.inr (Or.inr found)))))
  refine ⟨{ unit := displayUnit, min := roundStat (low * scale), max := roundStat (high * scale), avg := avg, p95 := p95
            segments := { firstThird := first, middleThird := middle, lastThird := last } },
    ?_, rfl, rfl, rfl, avgBounds, p95Bounds, ?_⟩
  · simp only [metricDetail, firstFound, middleFound, lastFound, smallest, largest, avgFound, p95Found, Option.bind_eq_bind,
      Option.bind_some, Option.pure_def]
  · rintro value (one | two | three)
    · exact firstBounds value one
    · exact middleBounds value two
    · exact lastBounds value three

end Pods

/-- All samples of a metric. -/
def samplesOf (pods : List (String → List DataPoint)) (name : String) : List ℚ :=
  pods.flatMap fun pod => (pod name).map DataPoint.value

section Metrics
variable {pods : List (String → List DataPoint)} {name : String} {scale : ℚ}

theorem mem_samplesOf_iff {value : ℚ} : value ∈ samplesOf pods name ↔ ∃ pod ∈ pods, value ∈ inOrder (pod name) := by
  rw [samplesOf, List.mem_flatMap]
  exact exists_congr fun pod => and_congr_right fun _ => (perm_inOrder (pod name)).mem_iff.symm

theorem mem_statsOf {stats : Stats} (member : stats ∈ statsOf (pods.map collected) name) :
    ∃ pod ∈ pods, IsStats (pod name) stats := by
  obtain ⟨metrics, present, found⟩ := List.mem_filterMap.mp member
  obtain ⟨pod, inside, rfl⟩ := List.mem_map.mp present
  refine ⟨pod, inside, ?_⟩
  by_cases some_ : pod name = []
  · rw [collected, some_] at found
    cases found
  · obtain ⟨own, computed, is⟩ := computeMetricStats_spec some_
    rw [collected, computed, Option.join_some] at found
    exact Option.some.inj found ▸ is

/-- Every pod with samples has its statistics among those that are aggregated. -/
theorem exists_statsOf {pod : String → List DataPoint} (member : pod ∈ pods) (some_ : pod name ≠ []) :
    ∃ stats ∈ statsOf (pods.map collected) name, IsStats (pod name) stats := by
  obtain ⟨stats, computed, is⟩ := computeMetricStats_spec some_
  refine ⟨stats, List.mem_filterMap.mpr ⟨collected pod, List.mem_map_of_mem member, ?_⟩, is⟩
  rw [collected, computed, Option.join_some]

/-- One metric: the extremes of the pods are the extremes of all samples. -/
theorem metric_consistent (positive : 0 < scale) (displayUnit : String) (some_ : statsOf (pods.map collected) name ≠ []) :
    ∃ detail, metricDetail scale displayUnit (statsOf (pods.map collected) name) = some detail ∧ detail.unit = displayUnit ∧
      Consistent (samplesOf pods name) scale detail := by
  obtain ⟨low, -, lowMem, above⟩ := exists_min (mt List.map_eq_nil_iff.mp some_ : (statsOf (pods.map collected) name).map Stats.min ≠ [])
  obtain ⟨high, -, highMem, below⟩ := exists_max (mt List.map_eq_nil_iff.mp some_ : (statsOf (pods.map collected) name).map Stats.max ≠ [])
  have between : ∀ stats ∈ statsOf (pods.map collected) name, ∀ value, value = stats.avg ∨ value = stats.p95 ∨
      stats.segments.firstThird = some value ∨ stats.segments.middleThird = some value ∨
      stats.segments.lastThird = some value → stats.min ≤ value ∧ value ≤ stats.max := by
    intro stats member
    obtain ⟨pod, -, is⟩ := mem_statsOf member
    exact is.between
  obtain ⟨detail, found, unit, min, max, avg, p95, segments⟩ := metricDetail_spec positive displayUnit some_
    (fun stats member => above _ (List.mem_map_of_mem member)) (fun stats member => below _ (List.mem_map_of_mem member))
    lowMem highMem between
  refine ⟨detail, found, unit, ⟨low, ?_, fun value member => ?_, min⟩, ⟨high, ?_, fun value member => ?_, max⟩, avg, p95, segments⟩
  · obtain ⟨stats, member, rfl⟩ := List.mem_map.mp lowMem
    obtain ⟨pod, inside, is⟩ := mem_statsOf member
    exact mem_samplesOf_iff.mpr ⟨pod, inside, is.min.1⟩
  · obtain ⟨pod, inside, here⟩ := mem_samplesOf_iff.mp member
    obtain ⟨stats, present, is⟩ := exists_statsOf inside (mt inOrder_eq_nil_iff.mpr (List.ne_nil_of_mem here))
    exact (above _ (List.mem_map_of_mem present)).trans (is.min.2 value here)
  · obtain ⟨stats, member, rfl⟩ := List.mem_map.mp highMem
    obtain ⟨pod, inside, is⟩ := mem_statsOf member
    exact mem_samplesOf_iff.mpr ⟨pod, inside, is.max.1⟩
  · obtain ⟨pod, inside, here⟩ := mem_samplesOf_iff.mp member
    obtain ⟨stats, present, is⟩ := exists_statsOf inside (mt inOrder_eq_nil_iff.mpr (List.ne_nil_of_mem here))
    exact (is.max.2 value here).trans (below _ (List.mem_map_of_mem present))

/-- Every pod's statistics are reduced from its samples, nothing raises, and what is reported of each metric is
consistent with all samples of it. -/
theorem stats_consistent (pods : List (String → List DataPoint)) (unitMap : List (String × Option ℚ × String))
    (positive : ∀ entry ∈ unitMap, 0 < displayScale entry.2.1) :
    (∀ dataPoints : List DataPoint, dataPoints ≠ [] →
      ∃ stats, computeMetricStats dataPoints = some (some stats) ∧ Reduced dataPoints stats) ∧
    ∃ details, aggregatePodMetrics (pods.map collected) unitMap = some details ∧
      ∀ entry ∈ unitMap, samplesOf pods entry.1 ≠ [] → ∃ detail, (entry.1, detail) ∈ details ∧ detail.unit = entry.2.2 ∧
        Consistent (samplesOf pods entry.1) (displayScale entry.2.1) detail := by
  constructor
  · intro dataPoints some_
    obtain ⟨stats, computed, is⟩ := computeMetricStats_spec some_
    exact ⟨stats, computed, is.reduced⟩
  · have all : (aggregatePodMetrics (pods.map collected) unitMap).isSome = true := by
      rw [aggregatePodMetrics, List.isSome_mapM_iff]
      intro entry member
      obtain ⟨present, some_⟩ := List.mem_filter.mp member
      obtain ⟨detail, found, -⟩ := metric_consistent (positive entry present) entry.2.2
        (List.isEmpty_eq_false_iff.mp (by simpa using some_))
      rw [found]
      rfl
    obtain ⟨details, aggregated⟩ := Option.isSome_iff_exists.mp all
    refine ⟨details, aggregated, fun entry member some_ => ?_⟩
    obtain ⟨value, sample⟩ := List.exists_mem_of_ne_nil _ some_
    obtain ⟨pod, inside, here⟩ := mem_samplesOf_iff.mp sample
    obtain ⟨stats, present, -⟩ := exists_statsOf inside (mt inOrder_eq_nil_iff.mpr (List.ne_nil_of_mem here))
    have reportedStats := List.ne_nil_of_mem present
    obtain ⟨detail, found, unit, consistent⟩ := metric_consistent (positive entry member) entry.2.2 reportedStats
    refine ⟨detail, ?_, unit, consistent⟩
    have kept : entry ∈ unitMap.filter fun entry => !(statsOf (pods.map collected) entry.1).isEmpty :=
      List.mem_filter.mpr ⟨member, by simp [List.isEmpty_eq_false_iff.mpr reportedStats]⟩
    have each := List.mapM_eq_some_iff.mp aggregated
    have written := each ▸ List.mem_map_of_mem kept
    obtain ⟨result, listed, same⟩ := List.mem_map.mp written
    rw [found] at same
    obtain rfl : result = (entry.1, detail) := Option.some.inj same
    exact listed

end Metrics

/-! Two pods, one of which has a single sample. -/

def examplePods : List (String → List DataPoint) :=
  [fun _ => [⟨"2026-01-01T00:00:30", 3 / 200⟩, ⟨"2026-01-01T00:00:00", 1 / 70⟩], fun _ => [⟨"2026-01-01T00:00:00", 5 / 2⟩]]

theorem stats_consistent_on_example : ∃ details,
    aggregatePodMetrics (examplePods.map collected) [("request_latency", some 1000, "ms")] = some details ∧
      ∃ detail, ("request_latency", detail) ∈ details ∧ Consistent (samplesOf examplePods "request_latency") 1000 detail := by
  have positive : ∀ entry ∈ [(("request_latency", some 1000, "ms") : String × Option ℚ × String)], 0 < displayScale entry.2.1 := by
    rw [List.forall_mem_singleton]
    norm_num [displayScale]
  obtain ⟨-, details, aggregated, each⟩ := stats_consistent examplePods [("request_latency", some 1000, "ms")] positive
  obtain ⟨detail, listed, -, consistent⟩ := each _ List.mem_cons_self (by simp [samplesOf, examplePods])
  have scale : displayScale (some 1000) = 1000 := by norm_num [displayScale]
  exact ⟨details, aggregated, detail, listed, scale ▸ consistent⟩

end AibomWebhook.MetricStats
