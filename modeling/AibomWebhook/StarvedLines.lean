import AibomWebhook.SeriesBudget

/-! How many points the lines of a document keep when its resolution is reduced
(postprocess.py, `_fit_series_doc`): a line keeps one point for each bucket that it has a
point in, whatever the longest line of the document keeps. -/

namespace AibomWebhook.StarvedLines
open Grouping JsonText PyJson SeriesBudget TelemetrySeries

section Property
variable {V : Type}

/-- A line that had enough points has enough in what is read. -/
def Enough (minPoints : Int) (before : Points V) (read : Option Value) : Prop :=
  minPoints ≤ before.length → ∃ line, read = some line ∧ minPoints ≤ line.items.length

/-- Every line of what is read has enough points if it had enough before. -/
structure LinesKept (minPoints : Int) (doc : SeriesDoc V) (decoded : Value) : Prop where
  aggregate : ∀ entry ∈ doc.metrics,
    Enough minPoints entry.2.aggregate ((metricIn entry.1 decoded).bind (Value.member "aggregate"))
  aggregateMax : ∀ entry ∈ doc.metrics, ∀ points, entry.2.aggregateMax = some points →
    Enough minPoints points ((metricIn entry.1 decoded).bind (Value.member "aggregate_max"))
  series : ∀ entry ∈ doc.metrics, ∀ list kept, entry.2.series = some list →
    (metricIn entry.1 decoded).bind (Value.member "series") = some kept →
    List.Forall₂ (fun series value => Enough minPoints series.points (value.member "points")) list kept.items

/-- No line is starved in the document returned. -/
def KeepsPoints (reducers : Reducers V) (numerals : Numerals V) (minPoints maxBytes : Int) (doc : SeriesDoc V) : Prop :=
  ∀ fuel text, fitSeriesDoc reducers numerals minPoints maxBytes fuel doc = some (some text) →
    ∃ decoded, meaning text = some decoded ∧ LinesKept minPoints doc decoded

/-- The number of buckets that a line has points in. -/
def occupied (anchor bucketS : Int) (points : Points V) : Nat :=
  (points.map fun point => bucketOf anchor bucketS point.1).dedup.length

/-- A line with enough points has points in enough buckets. -/
def Spread (minPoints anchor bucketS : Int) (points : Points V) : Prop :=
  minPoints ≤ points.length → minPoints ≤ occupied anchor bucketS points

/-- At a factor every line has points in enough buckets. -/
structure SpreadOut (minPoints : Int) (doc : SeriesDoc V) (factor : Nat) : Prop where
  aggregate : ∀ entry ∈ doc.metrics,
    Spread minPoints doc.window.start (doc.window.stepSeconds * factor) entry.2.aggregate
  aggregateMax : ∀ entry ∈ doc.metrics, ∀ points, entry.2.aggregateMax = some points →
    Spread minPoints doc.window.start (doc.window.stepSeconds * factor) points
  series : ∀ entry ∈ doc.metrics, ∀ list, entry.2.series = some list → ∀ series ∈ list,
    Spread minPoints doc.window.start (doc.window.stepSeconds * factor) series.points

/-- Whatever the longest line allows leaves every line enough points. -/
def Dense (minPoints : Int) (doc : SeriesDoc V) : Prop :=
  ∀ factor : Nat, 2 ≤ factor → minPoints ≤ ceilDiv (longest doc) factor → SpreadOut minPoints doc factor

/-- The document is shorter at a factor than at every finer one. -/
def Shorter (reducers : Reducers V) (numerals : Numerals V) (minPoints : Int) (doc : SeriesDoc V) (factor : Nat) : Prop :=
  ∀ finer < factor, Allowed minPoints doc finer →
    size (encodeSeriesDoc numerals (atFactor reducers factor doc)) < size (encodeSeriesDoc numerals (atFactor reducers finer doc))

end Property

section Lines
variable {V : Type} {reducers : Reducers V} {numerals : Numerals V} {minPoints : Int}

theorem length_rebucketPoints (reduce : List V → V) (points : Points V) (anchor bucketS : Int) :
    (rebucketPoints reduce points anchor bucketS).length = occupied anchor bucketS points := by
  rw [rebucketPoints, List.length_map, length_sortedGroups, occupied]

theorem enough_lineValue_iff {before after : Points V} :
    Enough minPoints before (some (lineValue numerals after)) ↔ (minPoints ≤ before.length → minPoints ≤ after.length) := by
  have items : (lineValue numerals after).items.length = after.length := List.length_map _
  simp only [Enough, Option.some.injEq, exists_eq_left', items]

theorem enough_rebucketPoints_iff {reduce : List V → V} {points : Points V} {anchor bucketS : Int} :
    Enough minPoints points (some (lineValue numerals (rebucketPoints reduce points anchor bucketS))) ↔
      Spread minPoints anchor bucketS points := by
  rw [enough_lineValue_iff, length_rebucketPoints, Spread]

/-- A single point is enough where no more is asked for. -/
theorem spread_of_le_one (few : minPoints ≤ 1) (anchor bucketS : Int) (points : Points V) :
    Spread minPoints anchor bucketS points := by
  intro enough
  cases points with
  | nil => exact enough
  | cons point rest =>
    have some_ : ((point :: rest).map fun point => bucketOf anchor bucketS point.1).dedup ≠ [] := by
      rw [Ne, List.dedup_eq_nil]
      exact List.cons_ne_nil _ _
    have positive : 0 < occupied anchor bucketS (point :: rest) := List.length_pos_iff.mpr some_
    omega

theorem spreadOut_of_le_one (few : minPoints ≤ 1) (doc : SeriesDoc V) (factor : Nat) : SpreadOut minPoints doc factor :=
  ⟨fun _ _ => spread_of_le_one few _ _ _, fun _ _ _ _ => spread_of_le_one few _ _ _, fun _ _ _ _ _ _ => spread_of_le_one few _ _ _⟩

/-- The details of a metric, read with their order. -/
theorem forall₂_series_iff {list : List (Series V)} {lines : Series V → Points V} :
    List.Forall₂ (fun series value => Enough minPoints series.points (value.member "points")) list
      (Value.array (list.map fun series => (seriesTree numerals (byKey series.labels) (lines series)).meaning)).items ↔
    ∀ series ∈ list, Enough minPoints series.points (some (lineValue numerals (lines series))) := by
  rw [Value.items, List.forall₂_map_right_iff, List.forall₂_same]
  simp only [seriesTree_points]

/-- A document of which every line is kept as it is. -/
theorem linesKept_dropAll (names : List String) (doc : SeriesDoc V) :
    LinesKept minPoints doc (docTree numerals (dropAll names doc)).meaning where
  aggregate := by
    intro entry member
    obtain ⟨metric, found, line, _⟩ := @metricIn_dropAll V numerals names doc entry member
    rw [found, Option.bind_some, line, enough_lineValue_iff]
    exact id
  aggregateMax := by
    intro entry member points some_
    obtain ⟨metric, found, _, line, _⟩ := @metricIn_dropAll V numerals names doc entry member
    rw [found, Option.bind_some, line, some_, Option.map_some, enough_lineValue_iff]
    exact id
  series := by
    intro entry member list kept some_ read
    obtain ⟨metric, found, _, _, details⟩ := @metricIn_dropAll V numerals names doc entry member
    rw [found, Option.bind_some, details, some_] at read
    split at read
    · cases read
    · obtain rfl := Option.some.inj read
      exact forall₂_series_iff.mpr fun series _ => enough_lineValue_iff.mpr id

theorem mem_rebucketSeriesDoc {doc : SeriesDoc V} {factor : Nat} {entry : String × Metric V} (member : entry ∈ doc.metrics) :
    (entry.1, rebucketMetric reducers doc.window.start (doc.window.stepSeconds * factor) entry.2) ∈
      (rebucketSeriesDoc reducers doc factor).metrics :=
  List.mem_map_of_mem member

/-- At a coarser resolution the lines are kept that are spread out. -/
theorem linesKept_rebucketSeriesDoc {doc : SeriesDoc V} {factor : Nat} (names : List String)
    (spread : SpreadOut minPoints doc factor) :
    LinesKept minPoints doc (docTree numerals (dropAll names (rebucketSeriesDoc reducers doc factor))).meaning where
  aggregate := by
    intro entry member
    obtain ⟨metric, found, line, _⟩ := @metricIn_dropAll V numerals names _ _ (@mem_rebucketSeriesDoc V reducers doc factor entry member)
    rw [found, Option.bind_some, line]
    exact enough_rebucketPoints_iff.mpr (spread.aggregate entry member)
  aggregateMax := by
    intro entry member points some_
    obtain ⟨metric, found, _, line, _⟩ := @metricIn_dropAll V numerals names _ _ (@mem_rebucketSeriesDoc V reducers doc factor entry member)
    rw [found, Option.bind_some, line, rebucketMetric, some_]
    exact enough_rebucketPoints_iff.mpr (spread.aggregateMax entry member points some_)
  series := by
    intro entry member list kept some_ read
    obtain ⟨metric, found, _, _, details⟩ := @metricIn_dropAll V numerals names _ _ (@mem_rebucketSeriesDoc V reducers doc factor entry member)
    rw [found, Option.bind_some, details, rebucketMetric, some_] at read
    split at read
    · cases read
    · rw [Option.map_some, Option.map_some, List.map_map] at read
      obtain rfl := Option.some.inj read
      refine forall₂_series_iff.mpr fun series inside => ?_
      exact enough_rebucketPoints_iff.mpr (spread.series entry member list some_ series inside)

/-- The lines that are kept at a coarser resolution were spread out. -/
theorem spreadOut_of_linesKept {doc : SeriesDoc V} {factor : Nat}
    (kept : LinesKept minPoints doc (docTree numerals (rebucketSeriesDoc reducers doc factor)).meaning) :
    SpreadOut minPoints doc factor where
  aggregate := by
    intro entry member
    have read := kept.aggregate entry member
    rw [metricIn_of_mem numerals (mem_rebucketSeriesDoc member), Option.bind_some, metricTree_aggregate] at read
    exact enough_rebucketPoints_iff.mp read
  aggregateMax := by
    intro entry member points some_
    have read := kept.aggregateMax entry member points some_
    rw [metricIn_of_mem numerals (mem_rebucketSeriesDoc member), Option.bind_some, metricTree_aggregateMax, rebucketMetric,
      some_] at read
    exact enough_rebucketPoints_iff.mp read
  series := by
    intro entry member list some_ series inside
    have read := fun value => kept.series entry member list value some_
    rw [metricIn_of_mem numerals (mem_rebucketSeriesDoc member), Option.bind_some, metricTree_series, rebucketMetric,
      some_, Option.map_some, Option.map_some, List.map_map] at read
    exact enough_rebucketPoints_iff.mp (forall₂_series_iff.mp (read _ rfl) series inside)

end Lines

section Document
variable {V : Type} {reducers : Reducers V} {numerals : Numerals V} {minPoints maxBytes : Int}

/-- What the first loop gives is the document at some allowed factor. -/
theorem coarsened_atFactor {doc last : SeriesDoc V} {fuel factor : Nat} {coarsened : Coarsened V} (atLeast : 2 ≤ factor)
    (before : ∃ reached, Allowed minPoints doc reached ∧ last = atFactor reducers reached doc)
    (ran : coarsen reducers numerals minPoints maxBytes doc fuel factor last = some coarsened) :
    ∃ reached, Allowed minPoints doc reached ∧
      (coarsened = .fits (encodeSeriesDoc numerals (atFactor reducers reached doc)) ∨
        coarsened = .coarsest (atFactor reducers reached doc)) := by
  induction fuel generalizing factor last with
  | zero => cases ran
  | succ fuel ih =>
    rw [coarsen] at ran
    split at ran
    · rename_i allowed
      have next : rebucketSeriesDoc reducers doc factor = atFactor reducers factor doc := by
        rw [atFactor, if_neg (by omega)]
      have here : Allowed minPoints doc factor := Or.inr ⟨atLeast, allowed⟩
      dsimp only at ran
      rw [next] at ran
      split at ran
      · exact ⟨factor, here, Or.inl (Option.some.inj ran).symm⟩
      · exact ih (by omega) ⟨factor, here, rfl⟩ ran
    · obtain ⟨reached, allowed, rfl⟩ := before
      exact ⟨reached, allowed, Or.inr (Option.some.inj ran).symm⟩

/-- The second loop takes details away. -/
theorem dropDetail_dropAll {doc : SeriesDoc V} {fuel : Nat} {names : List String} {text : String}
    (ran : dropDetail numerals maxBytes fuel (dropAll names doc) = some (some text)) :
    ∃ dropped, text = encodeSeriesDoc numerals (dropAll dropped doc) := by
  induction fuel generalizing names with
  | zero => cases ran
  | succ fuel ih =>
    rw [dropDetail] at ran
    split at ran
    · split at ran
      · cases ran
      · rw [dropAll_dropAll] at ran
        exact ih ran
    · exact ⟨names, (Option.some.inj (Option.some.inj ran)).symm⟩

theorem dropAll_nil (doc : SeriesDoc V) : dropAll [] doc = doc := by
  refine SeriesDoc.ext_metrics rfl rfl rfl ?_
  simp [dropAll]

/-- Whatever is returned is the document at some allowed factor, without some details. -/
theorem fitSeriesDoc_dropAll {doc : SeriesDoc V} {fuel : Nat} {text : String}
    (ran : fitSeriesDoc reducers numerals minPoints maxBytes fuel doc = some (some text)) :
    ∃ factor names, (size (encodeSeriesDoc numerals doc) ≤ maxBytes → factor = 1) ∧ Allowed minPoints doc factor ∧
      text = encodeSeriesDoc numerals (dropAll names (atFactor reducers factor doc)) := by
  have one : atFactor reducers 1 doc = doc := if_pos rfl
  rw [fitSeriesDoc] at ran
  split at ran
  · refine ⟨1, [], fun _ => rfl, Or.inl rfl, ?_⟩
    rw [dropAll_nil, one]
    exact (Option.some.inj (Option.some.inj ran)).symm
  · rename_i large
    split at ran
    · cases ran
    · rename_i encoded first
      obtain ⟨factor, allowed, same | same⟩ := coarsened_atFactor (le_refl 2) ⟨1, Or.inl rfl, one.symm⟩ first
      · refine ⟨factor, [], fun fits => absurd fits large, allowed, ?_⟩
        rw [dropAll_nil, ← Coarsened.fits.inj same]
        exact (Option.some.inj (Option.some.inj ran)).symm
      · cases same
    · rename_i coarse first
      obtain ⟨factor, allowed, same | same⟩ := coarsened_atFactor (le_refl 2) ⟨1, Or.inl rfl, one.symm⟩ first
      · cases same
      · rw [Coarsened.coarsest.inj same, ← dropAll_nil (atFactor reducers factor doc)] at ran
        obtain ⟨names, result⟩ := dropDetail_dropAll ran
        exact ⟨factor, names, fun fits => absurd fits large, allowed, result⟩

/-- With just the bytes that the document takes at a factor at which it is shorter than before, this is what is returned. -/
theorem fitSeriesDoc_of_shorter (atLeast : 2 ≤ minPoints) {doc : SeriesDoc V} {factor : Nat} (coarser : 2 ≤ factor)
    (allowed : minPoints ≤ ceilDiv (longest doc) factor) (shorter : Shorter reducers numerals minPoints doc factor) :
    fitSeriesDoc reducers numerals minPoints (size (encodeSeriesDoc numerals (atFactor reducers factor doc)))
      (longest doc + 1) doc = some (some (encodeSeriesDoc numerals (atFactor reducers factor doc))) := by
  have one : atFactor reducers 1 doc = doc := if_pos rfl
  have large := shorter 1 (by omega) (Or.inl rfl)
  rw [one] at large
  obtain ⟨coarsened, ran, spec⟩ := @coarsen_spec V reducers numerals minPoints
    (size (encodeSeriesDoc numerals (atFactor reducers factor doc))) atLeast doc (longest doc + 1) 1 (le_refl 1) (by omega)
    (fun other low high => by
      obtain rfl := Nat.le_antisymm high low
      exact ⟨Or.inl rfl, by rw [one]; exact large⟩) (by omega)
  rw [one] at ran
  rw [fitSeriesDoc, if_neg (not_le_of_gt large), ran]
  cases spec with
  | fits reached reachable finer small =>
    have same : reached = factor := by
      rcases Nat.lt_trichotomy reached factor with below | here | above
      · exact absurd small (not_le_of_gt (shorter reached below reachable))
      · exact here
      · exact absurd (le_refl _) (not_le_of_gt (finer factor above (Or.inr ⟨coarser, allowed⟩)))
    rw [same]
  | coarsest reached coarsest none_ => exact absurd (le_refl _) (not_le_of_gt (none_ factor (Or.inr ⟨coarser, allowed⟩)))

/-- No line is starved, whatever the budget, if every factor that the longest line allows leaves each line enough points.
Conversely a line that has too few buckets at a factor is starved by the budget that is met there for the first time. -/
theorem keeps_points_of_dense (reducers : Reducers V) (numerals : Numerals V) (minPoints : Int) (doc : SeriesDoc V) :
    (∀ maxBytes, size (encodeSeriesDoc numerals doc) ≤ maxBytes ∨ Dense minPoints doc →
      KeepsPoints reducers numerals minPoints maxBytes doc) ∧
    ∀ factor, 2 ≤ factor → minPoints ≤ ceilDiv (longest doc) factor → Shorter reducers numerals minPoints doc factor →
      KeepsPoints reducers numerals minPoints (size (encodeSeriesDoc numerals (atFactor reducers factor doc))) doc →
      SpreadOut minPoints doc factor := by
  constructor
  · intro maxBytes condition fuel text ran
    obtain ⟨factor, names, whole, allowed, rfl⟩ := fitSeriesDoc_dropAll ran
    refine ⟨_, meaning_encodeSeriesDoc numerals _, ?_⟩
    by_cases one : factor = 1
    · rw [atFactor, if_pos one]
      exact linesKept_dropAll names doc
    · have coarser := allowed.resolve_left one
      have dense : Dense minPoints doc := condition.resolve_left fun fits => one (whole fits)
      rw [atFactor, if_neg one]
      exact linesKept_rebucketSeriesDoc names (dense factor coarser.1 coarser.2)
  · intro factor coarser allowed shorter keeps
    by_cases atLeast : 2 ≤ minPoints
    · obtain ⟨decoded, read, kept⟩ := keeps _ _ (fitSeriesDoc_of_shorter atLeast coarser allowed shorter)
      rw [meaning_encodeSeriesDoc, atFactor, if_neg (by omega)] at read
      obtain rfl := Option.some.inj read
      exact spreadOut_of_linesKept kept
    · exact spreadOut_of_le_one (by omega) doc factor

/-! Four points, of which two are enough. -/

theorem exampleDoc_dense : Dense 2 exampleDoc := by
  intro factor coarser allowed
  have few : factor < 4 := factor_lt_of_le_ceilDiv (le_refl 2) (by omega) allowed
  have line : Spread 2 1000 (30 * factor) [(1000, (10 : Int)), (1030, 20), (1060, 30), (1090, 40)] := by
    intro _
    obtain rfl | rfl : factor = 2 ∨ factor = 3 := by omega
    · decide
    · decide
  refine ⟨fun entry member => ?_, fun entry member points some_ => ?_, fun entry member list some_ => ?_⟩
  all_goals obtain rfl := List.mem_singleton.mp member
  · exact line
  · cases some_
  · cases some_

theorem exampleDoc_shorter : Shorter exampleReducers exampleNumerals 2 exampleDoc 2 := by
  intro finer below allowed
  obtain rfl : finer = 1 := Nat.le_antisymm (Nat.le_of_lt_succ below) allowed.positive
  rw [size_encodeSeriesDoc, size_encodeSeriesDoc]
  decide

theorem keeps_points_of_dense_on_example :
    KeepsPoints exampleReducers exampleNumerals 2
      (size (encodeSeriesDoc exampleNumerals (atFactor exampleReducers 2 exampleDoc))) exampleDoc ∧
    SpreadOut 2 exampleDoc 2 := by
  obtain ⟨enough, needed⟩ := keeps_points_of_dense exampleReducers exampleNumerals 2 exampleDoc
  have keeps := enough (size (encodeSeriesDoc exampleNumerals (atFactor exampleReducers 2 exampleDoc))) (Or.inr exampleDoc_dense)
  exact ⟨keeps, needed 2 (le_refl 2) (by decide) exampleDoc_shorter keeps⟩

theorem fitSeriesDoc_half {doc : SeriesDoc V} (large : maxBytes < size (encodeSeriesDoc numerals doc))
    (allowed : minPoints ≤ ceilDiv (longest doc) 2)
    (half : size (encodeSeriesDoc numerals (rebucketSeriesDoc reducers doc 2)) ≤ maxBytes) (fuel : Nat) :
    fitSeriesDoc reducers numerals minPoints maxBytes (fuel + 1) doc =
      some (some (encodeSeriesDoc numerals (rebucketSeriesDoc reducers doc 2))) := by
  rw [fitSeriesDoc, if_neg (not_le_of_gt large), coarsen, if_pos allowed]
  dsimp only
  rw [if_pos half]

/-! Two metrics at the limit of the service, of which the shorter one comes down to fifty points. -/

def line (count : Nat) : Points Int := (List.range count).map fun i => (1000 + 30 * (i : Int), 5)

def starvedDoc : SeriesDoc Int where
  schemaVersion := 1
  window := { start := 1000, stop := 6970, stepSeconds := 30 }
  pods := ["train-0"]
  metrics := [
    ("gpu_power", { unit := "watts", aggregation := "sum", aggregate := line 200
                    aggregateMax := none, series := none, seriesOmitted := true }),
    ("vllm_requests", { unit := "requests", aggregation := "sum", aggregate := line 100
                        aggregateMax := none, series := none, seriesOmitted := true })]
  distinct := by decide

/-- One point for every two of a line. -/
def halved (count : Nat) : Points Int := (List.range count).map fun i : Nat => (1000 + 60 * (i : Int), 5)

theorem line_succ (count : Nat) : line (count + 1) = line count ++ [(1000 + 30 * (count : Int), 5)] := by
  simp [line, List.range_succ]

theorem mem_line {count : Nat} {point : Int × Int} (member : point ∈ line count) : point.1 < 1000 + 30 * (count : Int) := by
  induction count with
  | zero => cases member
  | succ n ih =>
    rw [line_succ, List.mem_append, List.mem_singleton] at member
    rcases member with before | rfl
    · have below := ih before
      push_cast
      omega
    · push_cast
      omega

theorem rebucketPoints_line (count : Nat) :
    rebucketPoints exampleReducers.average (line (2 * count)) 1000 60 = halved count := by
  induction count with
  | zero => rfl
  | succ n ih =>
    have bucket {ts : Int} (low : 1000 + 60 * (n : Int) ≤ ts) (high : ts < 1060 + 60 * (n : Int)) : bucketOf 1000 60 ts = n :=
      (mem_bucket_iff (by decide) ts n).mpr (by omega)
    have longer : line (2 * (n + 1)) = line (2 * n) ++ [(1000 + 60 * (n : Int), 5), (1030 + 60 * (n : Int), 5)] := by
      have first : 1000 + 30 * ((2 * n : Nat) : Int) = 1000 + 60 * (n : Int) := by omega
      have second : 1000 + 30 * ((2 * n + 1 : Nat) : Int) = 1030 + 60 * (n : Int) := by omega
      rw [Nat.mul_succ, line_succ, line_succ, first, second, List.append_assoc]
      rfl
    have apart : ∀ one ∈ line (2 * n), ∀ other ∈ [(1000 + 60 * (n : Int), (5 : Int)), (1030 + 60 * (n : Int), 5)],
        bucketOf 1000 60 one.1 < bucketOf 1000 60 other.1 := by
      intro one inside other last
      have below := mem_line inside
      push_cast at below
      have here : bucketOf 1000 60 other.1 = n := by
        simp only [List.mem_cons, List.not_mem_nil, or_false] at last
        rcases last with rfl | rfl <;> exact bucket (by dsimp only; omega) (by dsimp only; omega)
      rw [here]
      have span := (mem_bucket_iff (by decide) one.1 (bucketOf 1000 60 one.1)).mp rfl
      omega
    have pair : sortedGroups (fun point : Int × Int => bucketOf 1000 60 point.1) Prod.snd
        [(1000 + 60 * (n : Int), 5), (1030 + 60 * (n : Int), 5)] = [((n : Int), [5, 5])] := by
      have first : bucketOf 1000 60 (1000 + 60 * (n : Int)) = n := bucket (by omega) (by omega)
      have second : bucketOf 1000 60 (1030 + 60 * (n : Int)) = n := bucket (by omega) (by omega)
      refine List.Perm.eq_singleton ((List.perm_ext_iff_of_nodup (nodup_sortedGroups _).of_map (List.nodup_singleton _)).mpr ?_)
      rintro ⟨k, values⟩
      rw [mem_sortedGroups, List.mem_singleton, Prod.mk.injEq]
      by_cases here : (n : Int) = k
      · subst here
        have both : group (fun point : Int × Int => bucketOf 1000 60 point.1) Prod.snd
            [(1000 + 60 * (n : Int), 5), (1030 + 60 * (n : Int), 5)] n = [5, 5] := by simp [group, first, second]
        rw [both]
        exact ⟨fun same => ⟨rfl, same.1⟩, fun same => ⟨same.2, same.2 ▸ List.cons_ne_nil _ _⟩⟩
      · simp [group, first, second, here, Ne.symm here]
    rw [longer, rebucketPoints, sortedGroups_append apart, List.map_append, ← rebucketPoints, ih, pair, halved, halved,
      List.range_succ, List.map_append]
    have middle : (1000 : Int) + n * 60 = 1000 + 60 * n := by omega
    simp only [List.map_cons, List.map_nil, middle]
    rfl

def halvedDoc : SeriesDoc Int where
  schemaVersion := 1
  window := { start := 1000, stop := 6970, stepSeconds := 60 }
  pods := ["train-0"]
  metrics := [
    ("gpu_power", { unit := "watts", aggregation := "sum", aggregate := halved 100
                    aggregateMax := none, series := none, seriesOmitted := true }),
    ("vllm_requests", { unit := "requests", aggregation := "sum", aggregate := halved 50
                        aggregateMax := none, series := none, seriesOmitted := true })]
  distinct := by decide

theorem rebucketSeriesDoc_starvedDoc : rebucketSeriesDoc exampleReducers starvedDoc 2 = halvedDoc := by
  have longer : rebucketPoints exampleReducers.average (line 200) 1000 60 = halved 100 := rebucketPoints_line 100
  have shorter : rebucketPoints exampleReducers.average (line 100) 1000 60 = halved 50 := rebucketPoints_line 50
  have width : (30 : Int) * ((2 : Nat) : Int) = 60 := rfl
  simp only [rebucketSeriesDoc, starvedDoc, halvedDoc, List.map_cons, List.map_nil, rebucketMetric, Option.map_none, width,
    longer, shorter]

/-- The document is too large as it is, and not at half its resolution. -/
theorem starvedDoc_sizes : (2000 : Int) < size (encodeSeriesDoc exampleNumerals starvedDoc) ∧
    size (encodeSeriesDoc exampleNumerals (rebucketSeriesDoc exampleReducers starvedDoc 2)) ≤ 2000 := by
  rw [rebucketSeriesDoc_starvedDoc, size_encodeSeriesDoc, size_encodeSeriesDoc]
  exact ⟨by decide +kernel, by decide +kernel⟩

theorem length_line (count : Nat) : (line count).length = count := by
  simp [line]

theorem longest_starvedDoc : longest starvedDoc = 200 := by
  simp only [longest, starvedDoc, List.map_cons, List.map_nil, length_line]
  rfl

theorem starvedDoc_allowed : (100 : Int) ≤ ceilDiv (longest starvedDoc) 2 := by
  rw [longest_starvedDoc]
  decide

theorem starvedDoc_returned : fitSeriesDoc exampleReducers exampleNumerals 100 2000 210 starvedDoc =
    some (some (encodeSeriesDoc exampleNumerals (rebucketSeriesDoc exampleReducers starvedDoc 2))) :=
  fitSeriesDoc_half starvedDoc_sizes.1 starvedDoc_allowed starvedDoc_sizes.2 209

theorem starvedDoc_occupied : ¬ Spread 100 1000 60 (line 100) := by
  have points : occupied 1000 60 (line (2 * 50)) = 50 := by
    rw [← length_rebucketPoints exampleReducers.average, rebucketPoints_line, halved, List.length_map, List.length_range]
  intro spread
  have many : (100 : Int) ≤ occupied 1000 60 (line (2 * 50)) := spread (by rw [length_line]; decide)
  rw [points] at many
  omega

/-- A line of a hundred points, the least that is wanted, is left with fifty. -/
theorem starvedDoc_starves : ¬KeepsPoints exampleReducers exampleNumerals 100 2000 starvedDoc := by
  intro keeps
  obtain ⟨decoded, read, kept⟩ := keeps 210 _ starvedDoc_returned
  rw [meaning_encodeSeriesDoc] at read
  obtain rfl := Option.some.inj read
  have spread := (spreadOut_of_linesKept kept).aggregate
  exact starvedDoc_occupied (spread _ (List.mem_cons_of_mem _ (List.mem_singleton.mpr rfl)))

end Document

end AibomWebhook.StarvedLines
