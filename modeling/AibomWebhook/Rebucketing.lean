import AibomWebhook.TelemetrySeries

/-! What a coarser resolution keeps of a document of rational values: the grid, every point,
the peaks, and the order of a line and its peaks. -/

namespace AibomWebhook.Rebucketing
open Grouping TelemetrySeries

/-- The reducers, with `_round_sig` as some rounding. -/
def rational (round : ℚ → ℚ) : Reducers ℚ where
  average values := round (values.sum / values.length)
  peak values := round (values.max?.getD 0)

/-- A line as it is collected: on the grid, in order, rounded. -/
structure Gridded (round : ℚ → ℚ) (window : Window) (points : Points ℚ) : Prop where
  grid : ∀ point ∈ points, ∃ i : Int, point.1 = window.start + i * window.stepSeconds
  increasing : points.Pairwise fun first second => first.1 < second.1
  rounded : ∀ point ∈ points, round point.2 = point.2

structure GriddedMetric (round : ℚ → ℚ) (window : Window) (metric : Metric ℚ) : Prop where
  aggregate : Gridded round window metric.aggregate
  aggregateMax : ∀ points, metric.aggregateMax = some points → Gridded round window points
  series : ∀ list, metric.series = some list → ∀ series ∈ list, Gridded round window series.points

structure GriddedDoc (round : ℚ → ℚ) (doc : SeriesDoc ℚ) : Prop where
  step : 0 < doc.window.stepSeconds
  metrics : ∀ entry ∈ doc.metrics, GriddedMetric round doc.window entry.2

/-- Whether a point is in a bucket. -/
def Within (window : Window) (factor : Nat) (bucket point : Int × ℚ) : Prop :=
  bucket.1 ≤ point.1 ∧ point.1 < bucket.1 + window.stepSeconds * factor

/-- What every line of the coarser document is to the line it comes from: every point counts in one bucket. -/
structure Rebucketed (reduce : List ℚ → ℚ) (window : Window) (factor : Nat) (before after : Points ℚ) : Prop where
  grid : ∀ point ∈ after, ∃ i : Int, point.1 = window.start + i * window.stepSeconds
  increasing : after.Pairwise fun first second => first.1 < second.1
  counted : ∀ point ∈ before, ∃ bucket ∈ after, Within window factor bucket point ∧
    ∀ other ∈ after, Within window factor other point → other = bucket
  reduced : ∀ bucket ∈ after, bucket.2 = reduce (bucketValues before bucket.1 (window.stepSeconds * factor))

/-- A value lies between two values of its bucket. -/
def Between (window : Window) (factor : Nat) (before after : Points ℚ) : Prop :=
  ∀ point ∈ after, ∃ low ∈ bucketValues before point.1 (window.stepSeconds * factor),
    ∃ high ∈ bucketValues before point.1 (window.stepSeconds * factor), low ≤ point.2 ∧ point.2 ≤ high

/-- Two lines have the same timestamps, and one nowhere exceeds the other. -/
def Below (line peaks : Points ℚ) : Prop :=
  List.Forall₂ (fun point peak => point.1 = peak.1 ∧ point.2 ≤ peak.2) line peaks

/-- What a metric of the coarser document is to the metric it comes from. -/
structure RebucketedMetric (reducers : Reducers ℚ) (window : Window) (factor : Nat) (before after : Metric ℚ) : Prop where
  aggregate : Rebucketed reducers.average window factor before.aggregate after.aggregate ∧
    Between window factor before.aggregate after.aggregate
  aggregateMax : Option.Rel (fun points coarse => Rebucketed reducers.peak window factor points coarse ∧
    (coarse.map Prod.snd).max? = (points.map Prod.snd).max?) before.aggregateMax after.aggregateMax
  series : Option.Rel (List.Forall₂ fun series coarse => series.labels = coarse.labels ∧
    Rebucketed reducers.average window factor series.points coarse.points ∧ Between window factor series.points coarse.points)
    before.series after.series
  below : ∀ peaks coarse, before.aggregateMax = some peaks → after.aggregateMax = some coarse →
    Below before.aggregate peaks → Below after.aggregate coarse
  rest : (after.unit, after.aggregation, after.seriesOmitted) = (before.unit, before.aggregation, before.seriesOmitted)

/-! One bucket. -/

theorem max?_mem {values : List ℚ} (some_ : values ≠ []) :
    values.max?.getD 0 ∈ values ∧ ∀ value ∈ values, value ≤ values.max?.getD 0 := by
  cases found : values.max? with
  | none => exact absurd (List.max?_eq_none_iff.mp found) some_
  | some top => exact List.max?_eq_some_iff.mp found

/-- Two lists have the same largest value when neither has one that exceeds all of the other. -/
theorem max?_congr {first second : List ℚ} (below : ∀ value ∈ first, ∃ other ∈ second, value ≤ other)
    (above : ∀ value ∈ second, ∃ other ∈ first, value ≤ other) : first.max? = second.max? := by
  cases found : second.max? with
  | none =>
    have empty := List.max?_eq_none_iff.mp found
    refine List.max?_eq_none_iff.mpr (List.eq_nil_iff_forall_not_mem.mpr fun value member => ?_)
    obtain ⟨other, inside, _⟩ := below value member
    exact List.not_mem_nil (empty ▸ inside)
  | some top =>
    obtain ⟨member, largest⟩ := List.max?_eq_some_iff.mp found
    have bound : ∀ value ∈ first, value ≤ top := by
      intro value inside
      obtain ⟨other, present, smaller⟩ := below value inside
      exact smaller.trans (largest other present)
    obtain ⟨other, inside, reaches⟩ := above top member
    have same : other = top := le_antisymm (bound other inside) reaches
    exact List.max?_eq_some_iff.mpr ⟨same ▸ inside, bound⟩

section Bucket
variable {round : ℚ → ℚ} {values : List ℚ}

theorem peak_mem (some_ : values ≠ []) (rounded : ∀ value ∈ values, round value = value) :
    (rational round).peak values ∈ values ∧ ∀ value ∈ values, value ≤ (rational round).peak values := by
  have top := max?_mem some_
  have same : (rational round).peak values = values.max?.getD 0 := rounded _ top.1
  rw [same]
  exact top

/-- A rounded average lies between two values. -/
theorem average_between (monotone : Monotone round) (some_ : values ≠ []) (rounded : ∀ value ∈ values, round value = value) :
    ∃ low ∈ values, ∃ high ∈ values, low ≤ (rational round).average values ∧ (rational round).average values ≤ high := by
  obtain ⟨high, above⟩ := max?_mem some_
  obtain ⟨low, lowest, below⟩ : ∃ low ∈ values, ∀ value ∈ values, low ≤ value := by
    cases found : values.min? with
    | none => exact absurd (List.min?_eq_none_iff.mp found) some_
    | some low => exact ⟨low, List.min?_eq_some_iff.mp found⟩
  have count : (0 : ℚ) < values.length := by exact_mod_cast List.length_pos_of_ne_nil some_
  have lower : low ≤ values.sum / values.length := by
    rw [le_div_iff₀ count, mul_comm, ← nsmul_eq_mul]
    exact List.card_nsmul_le_sum values low below
  have upper : values.sum / values.length ≤ values.max?.getD 0 := by
    rw [div_le_iff₀ count, mul_comm, ← nsmul_eq_mul]
    exact List.sum_le_card_nsmul values _ above
  refine ⟨low, lowest, _, high, ?_, ?_⟩
  · rw [← rounded low lowest]
    exact monotone lower
  · have top := monotone upper
    rwa [rounded _ high] at top

end Bucket

/-! One line. -/

section Line
variable {round : ℚ → ℚ} {window : Window} {factor : Nat} {points : Points ℚ} (reduce : List ℚ → ℚ)

theorem bucket_positive (step : 0 < window.stepSeconds) (positive : 1 ≤ factor) : 0 < window.stepSeconds * factor :=
  Int.mul_pos step (by omega)

theorem rebucketed_increasing (width : 0 < window.stepSeconds * factor) :
    (rebucketPoints reduce points window.start (window.stepSeconds * factor)).Pairwise
      fun first second => first.1 < second.1 := by
  refine List.pairwise_map.mpr ((ordered_sortedGroups _).imp fun {first second} below => ?_)
  have products := Int.mul_lt_mul_of_pos_right below width
  omega

theorem mem_bucketValues_rounded (rounded : ∀ point ∈ points, round point.2 = point.2) (start bucketS : Int) :
    ∀ value ∈ bucketValues points start bucketS, round value = value := by
  intro value member
  obtain ⟨point, inside, rfl⟩ := List.mem_map.mp member
  exact rounded point (List.mem_filter.mp inside).1

theorem mem_bucketValues {bucket point : Int × ℚ} (member : point ∈ points) (within : Within window factor bucket point) :
    point.2 ∈ bucketValues points bucket.1 (window.stepSeconds * factor) :=
  List.mem_map_of_mem (List.mem_filter.mpr ⟨member, by simpa [Within] using within⟩)

/-- The points of a coarser line and the line itself. -/
theorem rebucketed (step : 0 < window.stepSeconds) (positive : 1 ≤ factor) : Rebucketed reduce window factor points
    (rebucketPoints reduce points window.start (window.stepSeconds * factor)) := by
  have width := bucket_positive step positive
  refine ⟨fun point member => ?_, rebucketed_increasing reduce width, fun point member => ?_, fun bucket member => ?_⟩
  · obtain ⟨k, start, _⟩ := (mem_rebucketPoints width).mp member
    exact ⟨factor * k, by rw [start, Int.mul_comm _ (factor : Int), ← Int.mul_assoc, Int.mul_comm k]⟩
  · let k := bucketOf window.start (window.stepSeconds * factor) point.1
    let bucket := (window.start + k * (window.stepSeconds * factor), reduce (bucketValues points
      (window.start + k * (window.stepSeconds * factor)) (window.stepSeconds * factor)))
    have within : Within window factor bucket point := (mem_bucket_iff width point.1 k).mp rfl
    have some_ := List.ne_nil_of_mem (mem_bucketValues member within)
    refine ⟨bucket, (mem_rebucketPoints width).mpr ⟨k, rfl, some_, rfl⟩, within, fun other present inside => ?_⟩
    obtain ⟨l, start, _, reduced⟩ := (mem_rebucketPoints width).mp present
    have here : l = k := by
      unfold Within at inside
      rw [start] at inside
      exact ((mem_bucket_iff width point.1 l).mpr inside).symm
    rw [here] at start
    refine Prod.ext start ?_
    rw [reduced, start]
  · obtain ⟨_, _, _, reduced⟩ := (mem_rebucketPoints width).mp member
    exact reduced

theorem between (monotone : Monotone round) (gridded : Gridded round window points) (step : 0 < window.stepSeconds)
    (positive : 1 ≤ factor) : Between window factor points
      (rebucketPoints (rational round).average points window.start (window.stepSeconds * factor)) := by
  intro point member
  obtain ⟨_, _, some_, reduced⟩ := (mem_rebucketPoints (bucket_positive step positive)).mp member
  rw [reduced]
  exact average_between monotone some_ (mem_bucketValues_rounded gridded.rounded _ _)

/-- The peaks of a coarser line are values of the line, and no value exceeds all of them. -/
theorem max?_rebucketPoints (gridded : Gridded round window points) (step : 0 < window.stepSeconds) (positive : 1 ≤ factor) :
    ((rebucketPoints (rational round).peak points window.start (window.stepSeconds * factor)).map Prod.snd).max? =
      (points.map Prod.snd).max? := by
  have width := bucket_positive step positive
  refine max?_congr (fun value member => ?_) fun value member => ?_
  · obtain ⟨point, inside, rfl⟩ := List.mem_map.mp member
    obtain ⟨_, _, some_, reduced⟩ := (mem_rebucketPoints width).mp inside
    obtain ⟨present, _⟩ := peak_mem some_ (mem_bucketValues_rounded gridded.rounded _ _)
    rw [← reduced] at present
    obtain ⟨source, original, same⟩ := List.mem_map.mp present
    exact ⟨point.2, List.mem_map.mpr ⟨source, (List.mem_filter.mp original).1, same⟩, le_refl _⟩
  · obtain ⟨point, inside, rfl⟩ := List.mem_map.mp member
    obtain ⟨bucket, present, within, _⟩ := (rebucketed (rational round).peak step positive).counted point inside
    obtain ⟨_, _, some_, reduced⟩ := (mem_rebucketPoints width).mp present
    refine ⟨bucket.2, List.mem_map_of_mem present, ?_⟩
    rw [reduced]
    exact (peak_mem some_ (mem_bucketValues_rounded gridded.rounded _ _)).2 _ (mem_bucketValues inside within)

/-- A coarser line lies on the coarser grid. -/
theorem gridded_rebucketPoints (idempotent : ∀ value, round (round value) = round value) {reduce : List ℚ → ℚ}
    (rounds : ∀ values, ∃ value, reduce values = round value) (step : 0 < window.stepSeconds) (positive : 1 ≤ factor) :
    Gridded round { window with stepSeconds := window.stepSeconds * factor }
      (rebucketPoints reduce points window.start (window.stepSeconds * factor)) := by
  have width := bucket_positive step positive
  refine ⟨fun point member => ?_, rebucketed_increasing reduce width, fun point member => ?_⟩
  · obtain ⟨k, start, _⟩ := (mem_rebucketPoints width).mp member
    exact ⟨k, start⟩
  · obtain ⟨_, _, _, reduced⟩ := (mem_rebucketPoints width).mp member
    obtain ⟨value, same⟩ := rounds (bucketValues points point.1 (window.stepSeconds * factor))
    rw [reduced, same, idempotent]

/-! A line and its peaks. -/

theorem rebucketPoints_eq_map (anchor bucketS : Int) : rebucketPoints reduce points anchor bucketS =
    ((sortedGroups (fun point : Int × ℚ => bucketOf anchor bucketS point.1) Prod.snd points).map Prod.fst).map fun k =>
      (anchor + k * bucketS, reduce (group (fun point : Int × ℚ => bucketOf anchor bucketS point.1) Prod.snd points k)) := by
  conv_lhs => rw [rebucketPoints, sortedGroups_eq_map]
  rw [List.map_map]
  rfl

theorem group_below {line peaks : Points ℚ} (below : Below line peaks) (anchor bucketS k : Int) :
    List.Forall₂ (· ≤ ·) (group (fun point : Int × ℚ => bucketOf anchor bucketS point.1) Prod.snd line k)
      (group (fun point : Int × ℚ => bucketOf anchor bucketS point.1) Prod.snd peaks k) := by
  induction below with
  | nil => exact List.Forall₂.nil
  | @cons point peak _ _ here _ ih =>
    unfold group at ih ⊢
    by_cases inside : bucketOf anchor bucketS point.1 = k
    · have same : bucketOf anchor bucketS peak.1 = k := here.1 ▸ inside
      rw [List.filter_cons_of_pos (by simpa using inside), List.filter_cons_of_pos (by simpa using same)]
      exact List.Forall₂.cons here.2 ih
    · have same : bucketOf anchor bucketS peak.1 ≠ k := here.1 ▸ inside
      rw [List.filter_cons_of_neg (by simpa using inside), List.filter_cons_of_neg (by simpa using same)]
      exact ih

theorem exists_above {values peaks : List ℚ} (below : List.Forall₂ (· ≤ ·) values peaks) :
    ∀ value ∈ values, ∃ peak ∈ peaks, value ≤ peak := by
  induction below with
  | nil => exact fun value member => absurd member List.not_mem_nil
  | cons here _ ih =>
    intro value member
    rcases List.mem_cons.mp member with rfl | later
    · exact ⟨_, List.mem_cons_self, here⟩
    · obtain ⟨peak, inside, above⟩ := ih value later
      exact ⟨peak, List.mem_cons_of_mem _ inside, above⟩

theorem group_rounded (rounded : ∀ point ∈ points, round point.2 = point.2) (key : Int × ℚ → Int) (k : Int) :
    ∀ value ∈ group key Prod.snd points k, round value = value := by
  intro value member
  obtain ⟨point, inside, _, rfl⟩ := mem_group.mp member
  exact rounded point inside

/-- A coarser line stays below its coarser peaks. -/
theorem below_rebucketPoints (monotone : Monotone round) {line peaks : Points ℚ} (below : Below line peaks)
    (rounded : ∀ point ∈ line, round point.2 = point.2) (rounded_ : ∀ point ∈ peaks, round point.2 = point.2)
    (anchor bucketS : Int) : Below (rebucketPoints (rational round).average line anchor bucketS)
      (rebucketPoints (rational round).peak peaks anchor bucketS) := by
  have empty (k : Int) : group (fun point : Int × ℚ => bucketOf anchor bucketS point.1) Prod.snd line k = [] ↔
      group (fun point : Int × ℚ => bucketOf anchor bucketS point.1) Prod.snd peaks k = [] := by
    rw [← List.length_eq_zero_iff, (group_below below anchor bucketS k).length_eq, List.length_eq_zero_iff]
  rw [Below, rebucketPoints_eq_map, rebucketPoints_eq_map, ← keys_congr empty, List.forall₂_map_left_iff,
    List.forall₂_map_right_iff, List.forall₂_same]
  intro k member
  have some_ := mem_keys.mp member
  have others := fun none_ => some_ ((empty k).mpr none_)
  refine ⟨rfl, ?_⟩
  obtain ⟨_, _, high, inside, _, above⟩ := average_between monotone some_ (group_rounded rounded _ k)
  obtain ⟨peak, present, reaches⟩ := exists_above (group_below below anchor bucketS k) high inside
  exact above.trans (reaches.trans ((peak_mem others (group_rounded rounded_ _ k)).2 peak present))

/-- Peaks may be taken in two steps. -/
theorem peak_rebucketPoints_twice (rounded : ∀ point ∈ points, round point.2 = point.2) {b g : Int} (positive : 0 < b)
    (factor : 0 < g) (anchor : Int) :
    rebucketPoints (rational round).peak (rebucketPoints (rational round).peak points anchor b) anchor (b * g) =
      rebucketPoints (rational round).peak points anchor (b * g) := by
  have inner (k value) : value ∈ group (fun point : Int × ℚ => bucketOf anchor (b * g) point.1) Prod.snd
      (rebucketPoints (rational round).peak points anchor b) k →
      value ∈ group (fun point : Int × ℚ => bucketOf anchor (b * g) point.1) Prod.snd points k := by
    intro member
    obtain ⟨point, inside, here, rfl⟩ := mem_group.mp member
    obtain ⟨⟨l, values⟩, present, rfl⟩ := List.mem_map.mp inside
    obtain ⟨rfl, some_⟩ := mem_sortedGroups.mp present
    obtain ⟨source, original, bucket, same⟩ := mem_group.mp (peak_mem some_ (group_rounded rounded _ l)).1
    refine mem_group.mpr ⟨source, original, ?_, same⟩
    rw [bucketOf_start positive factor] at here
    rw [bucketOf_mul positive factor, bucket, here]
  have outer (k value) : value ∈ group (fun point : Int × ℚ => bucketOf anchor (b * g) point.1) Prod.snd points k →
      ∃ other ∈ group (fun point : Int × ℚ => bucketOf anchor (b * g) point.1) Prod.snd
        (rebucketPoints (rational round).peak points anchor b) k, value ≤ other := by
    intro member
    obtain ⟨point, inside, here, rfl⟩ := mem_group.mp member
    let l := bucketOf anchor b point.1
    let values := group (fun point : Int × ℚ => bucketOf anchor b point.1) Prod.snd points l
    have present : point.2 ∈ values := mem_group.mpr ⟨point, inside, rfl, rfl⟩
    have bucket : (anchor + l * b, (rational round).peak values) ∈ rebucketPoints (rational round).peak points anchor b :=
      List.mem_map.mpr ⟨(l, values), mem_sortedGroups.mpr ⟨rfl, List.ne_nil_of_mem present⟩, rfl⟩
    refine ⟨_, mem_group.mpr ⟨_, bucket, ?_, rfl⟩, (peak_mem (List.ne_nil_of_mem present) (group_rounded rounded _ l)).2 _ present⟩
    rw [bucketOf_start positive factor, ← here, bucketOf_mul positive factor]
  have empty (k : Int) : group (fun point : Int × ℚ => bucketOf anchor (b * g) point.1) Prod.snd
      (rebucketPoints (rational round).peak points anchor b) k = [] ↔
      group (fun point : Int × ℚ => bucketOf anchor (b * g) point.1) Prod.snd points k = [] := by
    constructor
    · intro none_
      refine List.eq_nil_iff_forall_not_mem.mpr fun value member => ?_
      obtain ⟨other, inside, _⟩ := outer k value member
      exact List.not_mem_nil (none_ ▸ inside)
    · intro none_
      exact List.eq_nil_iff_forall_not_mem.mpr fun value member => List.not_mem_nil (none_ ▸ inner k value member)
  refine (rebucketPoints_eq_map _ anchor (b * g)).trans ?_
  rw [keys_congr empty, rebucketPoints_eq_map _ anchor (b * g)]
  refine List.map_congr_left fun k _ => Prod.ext rfl ?_
  exact congrArg (fun top : Option ℚ => round (top.getD 0))
    (max?_congr (fun value member => ⟨value, inner k value member, le_refl _⟩) (outer k))

end Line

/-! The document. -/

section Document
variable {round : ℚ → ℚ}

theorem average_rounds (values : List ℚ) : ∃ value, (rational round).average values = round value := ⟨_, rfl⟩

theorem peak_rounds (values : List ℚ) : ∃ value, (rational round).peak values = round value := ⟨_, rfl⟩

theorem rebucketedMetric (monotone : Monotone round) {window : Window} {metric : Metric ℚ} {factor : Nat}
    (gridded : GriddedMetric round window metric) (step : 0 < window.stepSeconds) (positive : 1 ≤ factor) :
    RebucketedMetric (rational round) window factor metric
      (rebucketMetric (rational round) window.start (window.stepSeconds * factor) metric) := by
  constructor
  · exact ⟨rebucketed _ step positive, between monotone gridded.aggregate step positive⟩
  · have peaks := gridded.aggregateMax
    unfold rebucketMetric
    cases found : metric.aggregateMax with
    | none => exact Option.Rel.none
    | some points => exact Option.Rel.some ⟨rebucketed _ step positive, max?_rebucketPoints (peaks points found) step positive⟩
  · have lines := gridded.series
    unfold rebucketMetric
    cases found : metric.series with
    | none => exact Option.Rel.none
    | some list =>
      refine Option.Rel.some ?_
      rw [List.forall₂_map_right_iff, List.forall₂_same]
      exact fun series member => ⟨rfl, rebucketed _ step positive, between monotone (lines list found series member) step positive⟩
  · intro peaks coarse found same below
    have coarser : coarse = rebucketPoints (rational round).peak peaks window.start (window.stepSeconds * factor) := by
      simp only [rebucketMetric, found, Option.map_some, Option.some.injEq] at same
      exact same.symm
    rw [coarser]
    exact below_rebucketPoints monotone below gridded.aggregate.rounded (gridded.aggregateMax peaks found).rounded _ _
  · rfl

theorem griddedMetric_rebucketMetric (idempotent : ∀ value, round (round value) = round value) {window : Window}
    {metric : Metric ℚ} {factor : Nat} (step : 0 < window.stepSeconds) (positive : 1 ≤ factor) :
    GriddedMetric round { window with stepSeconds := window.stepSeconds * factor }
      (rebucketMetric (rational round) window.start (window.stepSeconds * factor) metric) := by
  constructor
  · exact gridded_rebucketPoints idempotent average_rounds step positive
  · intro points found
    obtain ⟨source, _, rfl⟩ := Option.map_eq_some_iff.mp found
    exact gridded_rebucketPoints idempotent peak_rounds step positive
  · intro list found series member
    obtain ⟨source, _, rfl⟩ := Option.map_eq_some_iff.mp found
    obtain ⟨line, _, rfl⟩ := List.mem_map.mp member
    exact gridded_rebucketPoints idempotent average_rounds step positive

/-- The peak lines of a document. -/
def peakLines (doc : SeriesDoc ℚ) : List (String × Option (Points ℚ)) :=
  doc.metrics.map fun entry => (entry.1, entry.2.aggregateMax)

theorem peakLines_twice {doc : SeriesDoc ℚ} (gridded : GriddedDoc round doc) {f g : Nat} (first : 1 ≤ f) (second : 1 ≤ g) :
    peakLines (rebucketSeriesDoc (rational round) (rebucketSeriesDoc (rational round) doc f) g) =
      peakLines (rebucketSeriesDoc (rational round) doc (f * g)) := by
  simp only [peakLines, rebucketSeriesDoc, List.map_map]
  refine List.map_congr_left fun entry member => Prod.ext rfl ?_
  have peaks := (gridded.metrics entry member).aggregateMax
  simp only [Function.comp_apply, rebucketMetric]
  cases found : entry.2.aggregateMax with
  | none => rfl
  | some points =>
    have width : doc.window.stepSeconds * ((f * g : Nat) : Int) = doc.window.stepSeconds * f * g := by
      rw [Int.natCast_mul, Int.mul_assoc]
    rw [Option.map_some, Option.map_some, Option.map_some, width, peak_rebucketPoints_twice (peaks points found).rounded
      (bucket_positive gridded.step first) (by omega)]

/-- A coarser document has every point in one bucket of the same grid, with values between those of their bucket and
with the same peaks; it is a document on a grid again, and peaks may be taken in two steps. -/
theorem rebucket_sound (round : ℚ → ℚ) (monotone : Monotone round) (idempotent : ∀ value, round (round value) = round value)
    (doc : SeriesDoc ℚ) (gridded : GriddedDoc round doc) (factor : Nat) (positive : 1 ≤ factor) :
    List.Forall₂ (fun before after => before.1 = after.1 ∧
        RebucketedMetric (rational round) doc.window factor before.2 after.2)
      doc.metrics (rebucketSeriesDoc (rational round) doc factor).metrics ∧
    GriddedDoc round (rebucketSeriesDoc (rational round) doc factor) ∧
    (rebucketSeriesDoc (rational round) doc factor).window =
      { doc.window with stepSeconds := doc.window.stepSeconds * factor } ∧
    ∀ further, 1 ≤ further →
      peakLines (rebucketSeriesDoc (rational round) (rebucketSeriesDoc (rational round) doc factor) further) =
        peakLines (rebucketSeriesDoc (rational round) doc (factor * further)) := by
  refine ⟨?_, ⟨bucket_positive gridded.step positive, fun entry member => ?_⟩, rfl,
    fun further second => peakLines_twice gridded positive second⟩
  · simp only [rebucketSeriesDoc, List.forall₂_map_right_iff, List.forall₂_same]
    exact fun entry member => ⟨trivial, rebucketedMetric monotone (gridded.metrics entry member) gridded.step positive⟩
  · obtain ⟨source, _, rfl⟩ := List.mem_map.mp member
    exact griddedMetric_rebucketMetric idempotent gridded.step positive

/-! A line of three points and its peaks, at half the resolution. -/

def exampleDoc : SeriesDoc ℚ where
  schemaVersion := 1
  window := { start := 1000, stop := 1060, stepSeconds := 30 }
  pods := ["train-0"]
  metrics := [("gpu_power",
    { unit := "watts", aggregation := "sum"
      aggregate := [(1000, 10), (1030, 20), (1060, 30)]
      aggregateMax := some [(1000, 12), (1030, 25), (1060, 30)]
      series := none, seriesOmitted := true })]
  distinct := by simp

theorem exampleDoc_gridded : GriddedDoc id exampleDoc := by
  have grid : ∀ i : Nat, ∃ j : Int, (1000 + i * 30 : Int) = 1000 + j * 30 := fun i => ⟨i, rfl⟩
  have lines : ∀ a b c : ℚ, Gridded id exampleDoc.window [(1000, a), (1030, b), (1060, c)] := by
    intro a b c
    refine ⟨fun point member => ?_, by simp, fun _ _ => rfl⟩
    rcases List.mem_cons.mp member with rfl | member
    · exact grid 0
    · rcases List.mem_cons.mp member with rfl | member
      · exact grid 1
      · obtain rfl := List.mem_singleton.mp member
        exact grid 2
  refine ⟨by decide, fun entry member => ?_⟩
  obtain rfl := List.mem_singleton.mp member
  refine ⟨lines _ _ _, fun points found => ?_, fun list found => by cases found⟩
  obtain rfl := Option.some.inj found
  exact lines _ _ _

theorem rebucket_sound_on_example : GriddedDoc id exampleDoc ∧
    GriddedDoc id (rebucketSeriesDoc (rational id) exampleDoc 2) :=
  ⟨exampleDoc_gridded, (rebucket_sound id monotone_id (fun _ => rfl) exampleDoc exampleDoc_gridded 2 (by decide)).2.1⟩

end Document

end AibomWebhook.Rebucketing
