import AibomWebhook.Library.Grouping
import Mathlib.Algebra.Order.BigOperators.Group.List
import Mathlib.Algebra.Order.Field.Basic
import Mathlib.Algebra.Order.Ring.Rat
import Mathlib.Tactic.Linarith

/-! The time series that are stored beside an AIBOM (postprocess.py), and how their
resolution is reduced: the points of each line are put into wider buckets. -/

namespace AibomWebhook.TelemetrySeries
open Grouping

/-- Timestamps in seconds, with values. -/
abbrev Points (V : Type) := List (Int × V)

structure Series (V : Type) where
  labels : List (String × String)
  points : Points V

structure Metric (V : Type) where
  unit : String
  aggregation : String
  aggregate : Points V
  aggregateMax : Option (Points V)
  series : Option (List (Series V))
  seriesOmitted : Bool

structure Window where
  start : Int
  stop : Int
  stepSeconds : Int

/-- A document as `collect_telemetry_series` builds it. -/
structure SeriesDoc (V : Type) where
  schemaVersion : Int
  window : Window
  pods : List String
  metrics : List (String × Metric V)
  distinct : (metrics.map Prod.fst).Nodup

/-- The two ways of making one value of a bucket, each with `_round_sig` of its result. -/
structure Reducers (V : Type) where
  average : List V → V
  peak : List V → V

section Rebucket
variable {V : Type}

def bucketOf (anchor bucketS ts : Int) : Int := (ts - anchor).fdiv bucketS

def rebucketPoints (reduce : List V → V) (points : Points V) (anchor bucketS : Int) : Points V :=
  (sortedGroups (fun point : Int × V => bucketOf anchor bucketS point.1) Prod.snd points).map
    fun bucket => (anchor + bucket.1 * bucketS, reduce bucket.2)

def rebucketSeries (reducers : Reducers V) (anchor bucketS : Int) (series : Series V) : Series V :=
  { series with points := rebucketPoints reducers.average series.points anchor bucketS }

def rebucketMetric (reducers : Reducers V) (anchor bucketS : Int) (metric : Metric V) : Metric V :=
  { metric with
    aggregate := rebucketPoints reducers.average metric.aggregate anchor bucketS
    aggregateMax := metric.aggregateMax.map fun points => rebucketPoints reducers.peak points anchor bucketS
    series := metric.series.map fun list => list.map (rebucketSeries reducers anchor bucketS) }

/-- The document at so many times its step. -/
def rebucketSeriesDoc (reducers : Reducers V) (doc : SeriesDoc V) (factor : Nat) : SeriesDoc V :=
  let bucketS := doc.window.stepSeconds * factor
  { doc with
    window := { doc.window with stepSeconds := bucketS }
    metrics := doc.metrics.map fun entry => (entry.1, rebucketMetric reducers doc.window.start bucketS entry.2)
    distinct := by
      rw [List.map_map]
      exact doc.distinct }

theorem mem_bucket_iff {anchor bucketS : Int} (positive : 0 < bucketS) (ts k : Int) :
    bucketOf anchor bucketS ts = k ↔ anchor + k * bucketS ≤ ts ∧ ts < anchor + k * bucketS + bucketS := by
  rw [bucketOf, Int.fdiv_eq_ediv_of_nonneg _ (le_of_lt positive)]
  constructor
  · rintro rfl
    have low := Int.ediv_mul_le (ts - anchor) (ne_of_gt positive)
    have high := Int.lt_ediv_add_one_mul_self (ts - anchor) positive
    rw [Int.add_mul, Int.one_mul] at high
    omega
  · rintro ⟨low, high⟩
    have lower : k ≤ (ts - anchor) / bucketS := (Int.le_ediv_iff_mul_le positive).mpr (by omega)
    have upper : (ts - anchor) / bucketS < k + 1 := by
      rw [Int.ediv_lt_iff_lt_mul positive, Int.add_mul, Int.one_mul]
      omega
    omega

/-- A bucket of width `b * g` is `g` buckets of width `b`. -/
theorem bucketOf_mul {b g : Int} (positive : 0 < b) (factor : 0 < g) (anchor ts : Int) :
    bucketOf anchor (b * g) ts = (bucketOf anchor b ts).fdiv g := by
  rw [bucketOf, bucketOf, Int.fdiv_eq_ediv_of_nonneg _ (le_of_lt positive), Int.fdiv_eq_ediv_of_nonneg _ (le_of_lt factor),
    Int.fdiv_eq_ediv_of_nonneg _ (le_of_lt (Int.mul_pos positive factor)), Int.ediv_ediv_of_nonneg (le_of_lt positive)]

theorem bucketOf_start {b g : Int} (positive : 0 < b) (factor : 0 < g) (anchor k : Int) :
    bucketOf anchor (b * g) (anchor + k * b) = k.fdiv g := by
  have here : bucketOf anchor b (anchor + k * b) = k := (mem_bucket_iff positive _ k).mpr ⟨le_refl _, by omega⟩
  rw [bucketOf_mul positive factor, here]

/-- The values of the points in one bucket. -/
def bucketValues (points : Points V) (start bucketS : Int) : List V :=
  (points.filter fun point => start ≤ point.1 && point.1 < start + bucketS).map Prod.snd

theorem group_eq_bucketValues {anchor bucketS : Int} (positive : 0 < bucketS) (points : Points V) (k : Int) :
    group (fun point : Int × V => bucketOf anchor bucketS point.1) Prod.snd points k =
      bucketValues points (anchor + k * bucketS) bucketS := by
  refine congrArg (List.map Prod.snd) (List.filter_congr fun point _ => ?_)
  rw [← Bool.decide_and]
  exact decide_eq_decide.mpr (mem_bucket_iff positive point.1 k)

theorem mem_rebucketPoints {reduce : List V → V} {points : Points V} {anchor bucketS : Int} (positive : 0 < bucketS)
    {point : Int × V} : point ∈ rebucketPoints reduce points anchor bucketS ↔
      ∃ k, point.1 = anchor + k * bucketS ∧ bucketValues points point.1 bucketS ≠ [] ∧
        point.2 = reduce (bucketValues points point.1 bucketS) := by
  constructor
  · intro member
    obtain ⟨⟨k, values⟩, inside, rfl⟩ := List.mem_map.mp member
    obtain ⟨rfl, some_⟩ := mem_sortedGroups.mp inside
    rw [group_eq_bucketValues positive] at some_
    exact ⟨k, rfl, some_, congrArg reduce (group_eq_bucketValues positive points k)⟩
  · rintro ⟨k, start, some_, reduced⟩
    refine List.mem_map.mpr ⟨(k, bucketValues points point.1 bucketS), mem_sortedGroups.mpr ⟨?_, some_⟩, ?_⟩
    · rw [group_eq_bucketValues positive, start]
    · exact Prod.ext start.symm reduced.symm

end Rebucket

end AibomWebhook.TelemetrySeries
