import AibomWebhook.Library.JsonSize
import AibomWebhook.Library.PyJsonRead
import AibomWebhook.TelemetrySeries
import Mathlib.Data.Prod.Lex

/-! How a document of time series is made to fit its budget (postprocess.py,
`_fit_series_doc`): the resolution is reduced first, then the details of the metrics are
dropped, the largest first. -/

namespace AibomWebhook.SeriesBudget
open JsonText PyJson TelemetrySeries

/-- How `json.dumps` writes the values. -/
structure Numerals (V : Type) where
  literal : V → Literal
  legal : ∀ v, (literal v).legal = true

section Encode
variable {V : Type} (numerals : Numerals V)

def number (n : Int) : Raw := .number (integer n)

def pointTree (point : Int × V) : Raw := .array [number point.1, .number (numerals.literal point.2)]

def pointsTree (points : Points V) : Raw := .array (points.map (pointTree numerals))

def seriesTree (labels : List (String × String)) (points : Points V) : Raw :=
  object [("labels", object (labels.map fun label => (label.1, string label.2))), ("points", pointsTree numerals points)]

def byKey {α : Type} (members : List (String × α)) : List (String × α) :=
  members.insertionSort fun first second => first.1 ≤ second.1

/-- A metric, with its keys in order. -/
def metricTree (metric : Metric V) : Raw :=
  object ([("aggregate", pointsTree numerals metric.aggregate)] ++
    metric.aggregateMax.toList.map (fun points => ("aggregate_max", pointsTree numerals points)) ++
    [("aggregation", string metric.aggregation)] ++
    metric.series.toList.map (fun list =>
      ("series", .array (list.map fun series => seriesTree numerals (byKey series.labels) series.points))) ++
    (if metric.seriesOmitted then [("series_omitted", .bool true)] else []) ++
    [("unit", string metric.unit)])

def docTree (doc : SeriesDoc V) : Raw :=
  object [("metrics", object ((byKey doc.metrics).map fun entry => (entry.1, metricTree numerals entry.2))),
    ("pods", .array (doc.pods.map string)),
    ("schema_version", number doc.schemaVersion),
    ("window", object [("end", number doc.window.stop), ("start", number doc.window.start),
      ("step_seconds", number doc.window.stepSeconds)])]

def encodeSeriesDoc (doc : SeriesDoc V) : String := (docTree numerals doc).text

/-- The length of `json.dumps` of the details of a metric. -/
def detailSize (list : List (Series V)) : Nat :=
  (spaced (.array (list.map fun series => seriesTree numerals series.labels series.points))).length

/-- The sizes of the details that a document has, with the names of their metrics. -/
def details (doc : SeriesDoc V) : List (Nat × String) :=
  doc.metrics.filterMap fun entry => entry.2.series.map fun list => (detailSize numerals list, entry.1)

end Encode

/-- The number of bytes of a text in UTF-8. -/
def size (text : String) : Int := text.utf8ByteSize

section Fit
variable {V : Type} (reducers : Reducers V) (numerals : Numerals V) (minPoints maxBytes : Int)

/-- The length of the longest line. -/
def longest (doc : SeriesDoc V) : Nat := ((doc.metrics.map fun entry => entry.2.aggregate.length).max?).getD 0

/-- `-(-points // factor)`. -/
def ceilDiv (points factor : Nat) : Int := -((-(points : Int)).fdiv factor)

inductive Coarsened (V : Type) where
  | fits (encoded : String)
  | coarsest (doc : SeriesDoc V)

/-- The first loop; each round uses up some fuel. -/
def coarsen (original : SeriesDoc V) : Nat → Nat → SeriesDoc V → Option (Coarsened V)
  | 0, _, _ => none
  | fuel + 1, factor, doc =>
    if minPoints ≤ ceilDiv (longest original) factor then
      let next := rebucketSeriesDoc reducers original factor
      if size (encodeSeriesDoc numerals next) ≤ maxBytes then some (.fits (encodeSeriesDoc numerals next))
      else coarsen original fuel (factor + 1) next
    else some (.coarsest doc)

/-- The metric without its details. -/
def cleared (metric : Metric V) : Metric V := { metric with series := none, seriesOmitted := true }

/-- The document without the details of some metrics. -/
def dropAll (names : List String) (doc : SeriesDoc V) : SeriesDoc V :=
  { doc with
    metrics := doc.metrics.map fun entry => if entry.1 ∈ names then (entry.1, cleared entry.2) else entry
    distinct := by
      have same : (doc.metrics.map fun entry => if entry.1 ∈ names then (entry.1, cleared entry.2) else entry).map
          Prod.fst = doc.metrics.map Prod.fst := by
        rw [List.map_map]
        refine List.map_congr_left fun entry _ => ?_
        simp only [Function.comp_apply]
        split <;> rfl
      exact same ▸ doc.distinct }

/-- The largest details; of two that are of one size, those of the later name. -/
def largest (list : List (Nat × String)) : Option (Nat × String) := ((list.map toLex).max?).map ofLex

/-- The second loop; each round uses up some fuel. -/
def dropDetail : Nat → SeriesDoc V → Option (Option String)
  | 0, _ => none
  | fuel + 1, doc =>
    if maxBytes < size (encodeSeriesDoc numerals doc) then
      match largest (details numerals doc) with
      | none => some none
      | some found => dropDetail fuel (dropAll [found.2] doc)
    else some (some (encodeSeriesDoc numerals doc))

/-- The text of the document, or none if it cannot be made to fit; with too little fuel there is no result. -/
def fitSeriesDoc (fuel : Nat) (doc : SeriesDoc V) : Option (Option String) :=
  if size (encodeSeriesDoc numerals doc) ≤ maxBytes then some (some (encodeSeriesDoc numerals doc))
  else
    match coarsen reducers numerals minPoints maxBytes doc fuel 2 doc with
    | none => none
    | some (.fits encoded) => some (some encoded)
    | some (.coarsest coarse) => dropDetail numerals maxBytes fuel coarse

end Fit

/-! What is written is JSON. -/

section Legal
variable {V : Type} (numerals : Numerals V)

theorem number_legal (n : Int) : (number n).legal = true := integer_legal n

theorem pointsTree_legal (points : Points V) : (pointsTree numerals points).legal = true := by
  refine array_legal fun item member => ?_
  obtain ⟨point, _, rfl⟩ := List.mem_map.mp member
  refine array_legal fun item member => ?_
  rcases List.mem_cons.mp member with rfl | later
  · exact number_legal point.1
  · obtain rfl := List.mem_singleton.mp later
    exact numerals.legal point.2

theorem seriesTree_legal (labels : List (String × String)) (points : Points V) :
    (seriesTree numerals labels points).legal = true := by
  refine object_legal fun member inside => ?_
  rcases List.mem_cons.mp inside with rfl | later
  · refine object_legal fun label present => ?_
    obtain ⟨source, _, rfl⟩ := List.mem_map.mp present
    exact string_legal source.2
  · obtain rfl := List.mem_singleton.mp later
    exact pointsTree_legal numerals points

theorem metricTree_legal (metric : Metric V) : (metricTree numerals metric).legal = true := by
  refine object_legal fun member inside => ?_
  simp only [List.mem_append, List.mem_map, List.mem_singleton] at inside
  rcases inside with ((((rfl | ⟨points, _, rfl⟩) | rfl) | ⟨list, _, rfl⟩) | omitted) | rfl
  · exact pointsTree_legal numerals metric.aggregate
  · exact pointsTree_legal numerals points
  · exact string_legal metric.aggregation
  · refine array_legal fun item present => ?_
    obtain ⟨series, _, rfl⟩ := List.mem_map.mp present
    exact seriesTree_legal numerals _ series.points
  · split at omitted
    · obtain rfl := List.mem_singleton.mp omitted
      rfl
    · exact absurd omitted List.not_mem_nil
  · exact string_legal metric.unit

theorem docTree_legal (doc : SeriesDoc V) : (docTree numerals doc).legal = true := by
  refine object_legal fun member inside => ?_
  simp only [List.mem_cons, List.not_mem_nil, or_false] at inside
  rcases inside with rfl | rfl | rfl | rfl
  · refine object_legal fun entry present => ?_
    obtain ⟨source, _, rfl⟩ := List.mem_map.mp present
    exact metricTree_legal numerals source.2
  · refine array_legal fun item present => ?_
    obtain ⟨pod, _, rfl⟩ := List.mem_map.mp present
    exact string_legal pod
  · exact number_legal doc.schemaVersion
  · refine object_legal fun entry present => ?_
    simp only [List.mem_cons, List.not_mem_nil, or_false] at present
    rcases present with rfl | rfl | rfl
    · exact number_legal doc.window.stop
    · exact number_legal doc.window.start
    · exact number_legal doc.window.stepSeconds

end Legal

/-! What is read back of a text. -/

section Read
variable {V : Type} (numerals : Numerals V)

/-- The metric of a name, in what was read. -/
def metricIn (name : String) (decoded : Value) : Option Value := (decoded.member "metrics").bind (Value.member name)

/-- A line, as it is read. -/
def lineValue (points : Points V) : Value :=
  .array (points.map fun point => .array [.number point.1, .number (numerals.literal point.2).value])

theorem meaning_pointsTree (points : Points V) : (pointsTree numerals points).meaning = lineValue numerals points := by
  rw [pointsTree, Raw.meaning, meaningItems_eq_map, List.map_map, lineValue]
  refine congrArg Value.array (List.map_congr_left fun point _ => ?_)
  simp only [Function.comp_apply, pointTree, number, Raw.meaning, meaningItems, value_integer]

theorem meaning_encodeSeriesDoc (doc : SeriesDoc V) :
    meaning (encodeSeriesDoc numerals doc) = some (docTree numerals doc).meaning :=
  meaning_text (docTree_legal numerals doc)

theorem size_encodeSeriesDoc (doc : SeriesDoc V) : size (encodeSeriesDoc numerals doc) = (docTree numerals doc).bytes := by
  rw [size, encodeSeriesDoc, utf8ByteSize_text]

theorem byKey_perm {α : Type} (members : List (String × α)) : (byKey members).Perm members :=
  List.perm_insertionSort _ _

theorem metricIn_docTree (name : String) (doc : SeriesDoc V) : metricIn name (docTree numerals doc).meaning =
    (object ((byKey doc.metrics).map fun entry => (entry.1, metricTree numerals entry.2))).meaning.member name := by
  simp [metricIn, docTree, member_object_cons, member_object_nil]

theorem metricIn_of_mem {doc : SeriesDoc V} {entry : String × Metric V} (member : entry ∈ doc.metrics) :
    metricIn entry.1 (docTree numerals doc).meaning = some (metricTree numerals entry.2).meaning := by
  rw [metricIn_docTree]
  refine member_object_of_mem ?_ (List.mem_map.mpr ⟨entry, (byKey_perm doc.metrics).mem_iff.mpr member, rfl⟩)
  rw [List.map_map]
  exact ((byKey_perm doc.metrics).map Prod.fst).nodup_iff.mpr doc.distinct

/-- The lines and the details of a metric. -/
theorem member_metricTree {name : String} (metric : Metric V) (line : name ∉ ["aggregation", "series_omitted", "unit"]) :
    (metricTree numerals metric).meaning.member name =
      (if "series" = name then metric.series.map fun list =>
          Value.array (list.map fun series => (seriesTree numerals (byKey series.labels) series.points).meaning) else none).or
      ((if "aggregate_max" = name then metric.aggregateMax.map (lineValue numerals) else none).or
        (if "aggregate" = name then some (lineValue numerals metric.aggregate) else none)) := by
  simp only [List.mem_cons, List.not_mem_nil, or_false, not_or] at line
  obtain ⟨aggregation, omitted, unit⟩ := line
  have marked : (object (if metric.seriesOmitted then [("series_omitted", .bool true)] else [])).meaning.member name = none := by
    refine member_object_of_not_mem fun inside => ?_
    split at inside
    · exact omitted (List.mem_singleton.mp inside)
    · cases inside
  simp only [metricTree, member_object_append, member_object_optional, member_object_cons, member_object_nil, marked,
    meaning_pointsTree, Raw.meaning, meaningItems_eq_map, List.map_map, if_neg (Ne.symm aggregation), if_neg (Ne.symm unit),
    Option.none_or, Option.or_none]
  rfl

theorem metricTree_aggregate (metric : Metric V) :
    (metricTree numerals metric).meaning.member "aggregate" = some (lineValue numerals metric.aggregate) := by
  rw [member_metricTree numerals metric (by decide)]
  simp

theorem metricTree_aggregateMax (metric : Metric V) :
    (metricTree numerals metric).meaning.member "aggregate_max" = metric.aggregateMax.map (lineValue numerals) := by
  rw [member_metricTree numerals metric (by decide)]
  simp

theorem metricTree_series (metric : Metric V) :
    (metricTree numerals metric).meaning.member "series" = metric.series.map fun list =>
      Value.array (list.map fun series => (seriesTree numerals (byKey series.labels) series.points).meaning) := by
  rw [member_metricTree numerals metric (by decide)]
  simp

theorem seriesTree_points (labels : List (String × String)) (points : Points V) :
    (seriesTree numerals labels points).meaning.member "points" = some (lineValue numerals points) := by
  simp [seriesTree, member_object_cons, member_object_nil, meaning_pointsTree]

end Read

/-! What the text should be. -/

section Spec
variable {V : Type} (reducers : Reducers V) (numerals : Numerals V) (minPoints maxBytes : Int)

/-- A factor that leaves enough points, as the code counts them. -/
def Allowed (doc : SeriesDoc V) (factor : Nat) : Prop :=
  factor = 1 ∨ 2 ≤ factor ∧ minPoints ≤ ceilDiv (longest doc) factor

def Coarsest (doc : SeriesDoc V) (factor : Nat) : Prop :=
  Allowed minPoints doc factor ∧ ∀ other, Allowed minPoints doc other → other ≤ factor

def atFactor (factor : Nat) (doc : SeriesDoc V) : SeriesDoc V :=
  if factor = 1 then doc else rebucketSeriesDoc reducers doc factor

/-- The details of a document, the largest first. -/
def byDecreasingSize (doc : SeriesDoc V) : List (Nat × String) :=
  (details numerals doc).insertionSort fun first second => toLex second ≤ toLex first

/-- The document without so many of its largest details. -/
def dropLargest (count : Nat) (doc : SeriesDoc V) : SeriesDoc V :=
  dropAll (((byDecreasingSize numerals doc).take count).map Prod.snd) doc

end Spec

/-! The first loop. -/

section Coarsen
variable {V : Type} {reducers : Reducers V} {numerals : Numerals V} {minPoints maxBytes : Int}

theorem le_ceilDiv_iff {points factor : Nat} (positive : 0 < factor) :
    minPoints ≤ ceilDiv points factor ↔ (minPoints - 1) * factor < points := by
  have width : (0 : Int) < factor := Int.natCast_pos.mpr positive
  rw [ceilDiv, Int.fdiv_eq_ediv_of_nonneg _ (le_of_lt width)]
  have quotient : -(points : Int) / factor < 1 - minPoints ↔ -(points : Int) < (1 - minPoints) * factor :=
    Int.ediv_lt_iff_lt_mul width
  have sign : (1 - minPoints) * (factor : Int) = -((minPoints - 1) * factor) := by
    rw [← Int.neg_mul, Int.neg_sub]
  rw [sign] at quotient
  omega

/-- A factor is allowed when a larger one is. -/
theorem le_ceilDiv_of_le {points small large : Nat} (atLeast : 2 ≤ minPoints) (positive : 0 < small) (le : small ≤ large)
    (enough : minPoints ≤ ceilDiv points large) : minPoints ≤ ceilDiv points small := by
  rw [le_ceilDiv_iff positive]
  rw [le_ceilDiv_iff (Nat.lt_of_lt_of_le positive le)] at enough
  have products : (minPoints - 1) * (small : Int) ≤ (minPoints - 1) * large :=
    Int.mul_le_mul_of_nonneg_left (Int.ofNat_le.mpr le) (by omega)
  omega

theorem factor_lt_of_le_ceilDiv {points factor : Nat} (atLeast : 2 ≤ minPoints) (positive : 0 < factor)
    (enough : minPoints ≤ ceilDiv points factor) : factor < points := by
  rw [le_ceilDiv_iff positive] at enough
  have products : 1 * (factor : Int) ≤ (minPoints - 1) * factor :=
    Int.mul_le_mul_of_nonneg_right (by omega) (Int.natCast_nonneg factor)
  omega

theorem Allowed.positive {doc : SeriesDoc V} {factor : Nat} (allowed : Allowed minPoints doc factor) : 1 ≤ factor := by
  rcases allowed with rfl | ⟨large, _⟩
  · exact le_refl 1
  · omega

/-- What the first loop comes to. -/
inductive CoarsenSpec (reducers : Reducers V) (numerals : Numerals V) (minPoints maxBytes : Int) (doc : SeriesDoc V) :
    Coarsened V → Prop where
  | fits (factor : Nat) (allowed : Allowed minPoints doc factor)
      (finer : ∀ other < factor, Allowed minPoints doc other →
        maxBytes < size (encodeSeriesDoc numerals (atFactor reducers other doc)))
      (small : size (encodeSeriesDoc numerals (atFactor reducers factor doc)) ≤ maxBytes) :
      CoarsenSpec reducers numerals minPoints maxBytes doc (.fits (encodeSeriesDoc numerals (atFactor reducers factor doc)))
  | coarsest (factor : Nat) (coarsest : Coarsest minPoints doc factor)
      (none_ : ∀ other, Allowed minPoints doc other →
        maxBytes < size (encodeSeriesDoc numerals (atFactor reducers other doc))) :
      CoarsenSpec reducers numerals minPoints maxBytes doc (.coarsest (atFactor reducers factor doc))

/-- The induction is on the fuel; the factors before this one are allowed and do not fit. -/
theorem coarsen_spec (atLeast : 2 ≤ minPoints) (doc : SeriesDoc V) {fuel factor : Nat} (positive : 1 ≤ factor)
    (enough : longest doc < fuel + factor) (before : ∀ other, 1 ≤ other → other ≤ factor →
      Allowed minPoints doc other ∧ maxBytes < size (encodeSeriesDoc numerals (atFactor reducers other doc))) (some_ : 0 < fuel) :
    ∃ result, coarsen reducers numerals minPoints maxBytes doc fuel (factor + 1) (atFactor reducers factor doc) =
      some result ∧ CoarsenSpec reducers numerals minPoints maxBytes doc result := by
  induction fuel generalizing factor with
  | zero => exact absurd some_ (Nat.lt_irrefl 0)
  | succ fuel ih =>
    have next : rebucketSeriesDoc reducers doc (factor + 1) = atFactor reducers (factor + 1) doc := by
      rw [atFactor, if_neg (by omega)]
    rw [coarsen]
    by_cases allowed : minPoints ≤ ceilDiv (longest doc) (factor + 1)
    · have here : Allowed minPoints doc (factor + 1) := Or.inr ⟨by omega, allowed⟩
      simp only [if_pos allowed, next]
      by_cases fits : size (encodeSeriesDoc numerals (atFactor reducers (factor + 1) doc)) ≤ maxBytes
      · rw [if_pos fits]
        refine ⟨_, rfl, .fits (factor + 1) here (fun other low fine => ?_) fits⟩
        exact (before other fine.positive (Nat.le_of_lt_succ low)).2
      · rw [if_neg fits]
        have below := factor_lt_of_le_ceilDiv atLeast (Nat.succ_pos factor) allowed
        refine ih (by omega) (by omega) (fun other low high => ?_) (by omega)
        rcases Nat.lt_or_eq_of_le high with earlier | rfl
        · exact before other low (by omega)
        · exact ⟨here, lt_of_not_ge fits⟩
    · have last (other : Nat) (fine : Allowed minPoints doc other) : 1 ≤ other ∧ other ≤ factor := by
        rcases fine with rfl | ⟨low, good⟩
        · exact ⟨le_refl 1, positive⟩
        · refine ⟨by omega, Nat.le_of_not_lt fun beyond => allowed ?_⟩
          exact le_ceilDiv_of_le atLeast (Nat.succ_pos factor) beyond good
      rw [if_neg allowed]
      refine ⟨_, rfl, .coarsest factor ⟨(before factor positive (le_refl factor)).1, fun other fine => (last other fine).2⟩
        fun other fine => (before other (last other fine).1 (last other fine).2).2⟩

end Coarsen

/-! The second loop. -/

section Drop
variable {V : Type} {numerals : Numerals V} {maxBytes : Int}

theorem SeriesDoc.ext_metrics {first second : SeriesDoc V} (version : first.schemaVersion = second.schemaVersion)
    (window : first.window = second.window) (pods : first.pods = second.pods) (metrics : first.metrics = second.metrics) :
    first = second := by
  cases first
  cases second
  simp only [SeriesDoc.mk.injEq]
  exact ⟨version, window, pods, metrics⟩

theorem dropAll_dropAll (first second : List String) (doc : SeriesDoc V) :
    dropAll second (dropAll first doc) = dropAll (first ++ second) doc := by
  refine SeriesDoc.ext_metrics rfl rfl rfl ?_
  simp only [dropAll, List.map_map]
  refine List.map_congr_left fun entry _ => ?_
  simp only [Function.comp_apply, List.mem_append]
  by_cases one : entry.1 ∈ first
  · by_cases other : entry.1 ∈ second
    · simp [one, other, cleared]
    · simp [one, other]
  · simp [one]

theorem details_dropAll (names : List String) (doc : SeriesDoc V) :
    details numerals (dropAll names doc) = (details numerals doc).filter fun found => found.2 ∉ names := by
  simp only [details, dropAll, List.filterMap_map, List.filter_filterMap]
  refine List.filterMap_congr fun entry _ => ?_
  simp only [Function.comp_apply]
  by_cases dropped : entry.1 ∈ names
  · rw [if_pos dropped]
    cases entry.2.series <;> simp [cleared, Option.filter, dropped]
  · rw [if_neg dropped]
    cases entry.2.series <;> simp [Option.filter, dropped]

theorem nodup_details (doc : SeriesDoc V) : ((details numerals doc).map Prod.snd).Nodup := by
  refine doc.distinct.sublist ?_
  rw [details, List.map_filterMap]
  have names : (fun entry : String × Metric V => (entry.2.series.map fun list => (detailSize numerals list, entry.1)).map
      Prod.snd) = fun entry => if entry.2.series.isSome then some entry.1 else none := by
    funext entry
    cases entry.2.series <;> rfl
  rw [names]
  induction doc.metrics with
  | nil => exact List.Sublist.refl _
  | cons entry rest ih =>
    rw [List.map_cons, List.filterMap_cons]
    cases entry.2.series with
    | none => exact ih.cons entry.1
    | some list => exact ih.cons_cons entry.1

theorem byDecreasingSize_perm (doc : SeriesDoc V) : (byDecreasingSize numerals doc).Perm (details numerals doc) :=
  List.perm_insertionSort _ _

theorem nodup_byDecreasingSize (doc : SeriesDoc V) : ((byDecreasingSize numerals doc).map Prod.snd).Nodup :=
  ((byDecreasingSize_perm doc).map Prod.snd).nodup_iff.mpr (nodup_details doc)

theorem ordered_byDecreasingSize (doc : SeriesDoc V) :
    (byDecreasingSize numerals doc).Pairwise fun first second => toLex second ≤ toLex first := by
  have total : Std.Total fun first second : Nat × String => toLex second ≤ toLex first :=
    ⟨fun first second => le_total (toLex second) (toLex first)⟩
  have trans : IsTrans (Nat × String) fun first second => toLex second ≤ toLex first := ⟨fun _ _ _ a b => le_trans b a⟩
  exact List.pairwise_insertionSort _ _

theorem largest_eq_some_iff {list : List (Nat × String)} {found : Nat × String} :
    largest list = some found ↔ found ∈ list ∧ ∀ other ∈ list, toLex other ≤ toLex found := by
  have top : largest list = some found ↔ (list.map toLex).max? = some (toLex found) := by
    unfold largest
    rw [Option.map_eq_some_iff]
    exact ⟨fun ⟨other, here, same⟩ => by rw [here, ← same]; rfl, fun here => ⟨_, here, rfl⟩⟩
  rw [top, List.max?_eq_some_iff, List.forall_mem_map]
  refine and_congr_left fun _ => ?_
  rw [List.mem_map]
  exact ⟨fun ⟨other, inside, same⟩ => toLex.injective same ▸ inside, fun inside => ⟨found, inside, rfl⟩⟩

theorem largest_eq_none_iff {list : List (Nat × String)} : largest list = none ↔ list = [] := by
  rw [largest, Option.map_eq_none_iff, List.max?_eq_none_iff, List.map_eq_nil_iff]

/-- The details that are left when the largest ones were dropped. -/
theorem details_dropLargest (count : Nat) (doc : SeriesDoc V) :
    (details numerals (dropLargest numerals count doc)).Perm ((byDecreasingSize numerals doc).drop count) := by
  have distinct : ((byDecreasingSize numerals doc).map Prod.snd).Nodup := nodup_byDecreasingSize doc
  rw [dropLargest, details_dropAll]
  refine ((byDecreasingSize_perm doc).symm.filter _).trans ?_
  generalize byDecreasingSize numerals doc = order at distinct
  rw [← List.take_append_drop count order, List.map_append, List.nodup_append] at distinct
  have taken : (order.take count).filter (fun found => decide (found.2 ∉ (order.take count).map Prod.snd)) = [] := by
    refine List.filter_eq_nil_iff.mpr fun found member good => ?_
    exact of_decide_eq_true good (List.mem_map_of_mem member)
  have left : (order.drop count).filter (fun found => decide (found.2 ∉ (order.take count).map Prod.snd)) =
      order.drop count := by
    refine List.filter_eq_self.mpr fun found member => decide_eq_true fun clash => ?_
    exact distinct.2.2 found.2 clash found.2 (List.mem_map_of_mem member) rfl
  conv_lhs => rw [← List.take_append_drop count order]
  rw [List.filter_append]
  have same : ((order.take count ++ order.drop count).take count).map Prod.snd = (order.take count).map Prod.snd := by
    rw [List.take_append_drop]
  rw [same, taken, left]
  exact List.Perm.refl _

theorem largest_dropLargest {count : Nat} {doc : SeriesDoc V} {found : Nat × String} {rest : List (Nat × String)}
    (order : (byDecreasingSize numerals doc).drop count = found :: rest) :
    largest (details numerals (dropLargest numerals count doc)) = some found := by
  have perm : (details numerals (dropLargest numerals count doc)).Perm _ := details_dropLargest count doc
  have sorted : ((byDecreasingSize numerals doc).drop count).Pairwise fun first second => toLex second ≤ toLex first :=
    (ordered_byDecreasingSize doc).sublist (List.drop_sublist count _)
  rw [order] at perm sorted
  refine largest_eq_some_iff.mpr ⟨perm.mem_iff.mpr List.mem_cons_self, fun other member => ?_⟩
  rcases List.mem_cons.mp (perm.mem_iff.mp member) with rfl | later
  · exact le_refl _
  · exact (List.pairwise_cons.mp sorted).1 other later

theorem dropLargest_succ {count : Nat} {doc : SeriesDoc V} {found : Nat × String} {rest : List (Nat × String)}
    (order : (byDecreasingSize numerals doc).drop count = found :: rest) :
    dropAll [found.2] (dropLargest numerals count doc) = dropLargest numerals (count + 1) doc := by
  have one : (byDecreasingSize numerals doc).take (count + 1) = (byDecreasingSize numerals doc).take count ++ [found] := by
    rw [List.take_add, order]
    rfl
  rw [dropLargest, dropAll_dropAll, dropLargest, one, List.map_append]
  rfl

/-- What the second loop comes to. -/
inductive DropSpec (numerals : Numerals V) (maxBytes : Int) (doc : SeriesDoc V) : Option String → Prop where
  | fits (count : Nat) (small : size (encodeSeriesDoc numerals (dropLargest numerals count doc)) ≤ maxBytes)
      (least : ∀ fewer < count, maxBytes < size (encodeSeriesDoc numerals (dropLargest numerals fewer doc))) :
      DropSpec numerals maxBytes doc (some (encodeSeriesDoc numerals (dropLargest numerals count doc)))
  | none (large : maxBytes <
      size (encodeSeriesDoc numerals (dropLargest numerals (byDecreasingSize numerals doc).length doc))) :
      DropSpec numerals maxBytes doc none

theorem dropDetail_spec (doc : SeriesDoc V) {fuel count : Nat} (within : count ≤ (byDecreasingSize numerals doc).length)
    (enough : (byDecreasingSize numerals doc).length < fuel + count)
    (before : ∀ fewer < count, maxBytes < size (encodeSeriesDoc numerals (dropLargest numerals fewer doc))) :
    ∃ result, dropDetail numerals maxBytes fuel (dropLargest numerals count doc) = some result ∧
      DropSpec numerals maxBytes doc result := by
  induction fuel generalizing count with
  | zero => omega
  | succ fuel ih =>
    rw [dropDetail]
    by_cases large : maxBytes < size (encodeSeriesDoc numerals (dropLargest numerals count doc))
    · rw [if_pos large]
      cases order : (byDecreasingSize numerals doc).drop count with
      | nil =>
        have all : count = (byDecreasingSize numerals doc).length :=
          Nat.le_antisymm within (List.drop_eq_nil_iff.mp order)
        have nothing : details numerals (dropLargest numerals count doc) = [] := by
          have perm : (details numerals (dropLargest numerals count doc)).Perm _ := details_dropLargest count doc
          rw [order] at perm
          exact perm.eq_nil
        rw [largest_eq_none_iff.mpr nothing]
        exact ⟨none, rfl, .none (all ▸ large)⟩
      | cons found rest =>
        have more : count < (byDecreasingSize numerals doc).length := by
          refine Nat.lt_of_not_le fun beyond => ?_
          rw [List.drop_eq_nil_iff.mpr beyond] at order
          cases order
        rw [largest_dropLargest order]
        simp only [dropLargest_succ order]
        refine ih more (by omega) fun fewer low => ?_
        rcases Nat.lt_or_eq_of_le (Nat.le_of_lt_succ low) with earlier | rfl
        · exact before fewer earlier
        · exact large
    · rw [if_neg large]
      exact ⟨_, rfl, .fits count (le_of_not_gt large) before⟩

end Drop

/-! Both loops. -/

section Budget
variable {V : Type} {reducers : Reducers V} {numerals : Numerals V} {minPoints maxBytes : Int}

theorem dropLargest_zero (doc : SeriesDoc V) : dropLargest numerals 0 doc = doc := by
  refine SeriesDoc.ext_metrics rfl rfl rfl ?_
  simp [dropLargest, dropAll]

theorem mem_dropAll {names : List String} {doc : SeriesDoc V} {entry : String × Metric V} (member : entry ∈ doc.metrics) :
    (entry.1, if entry.1 ∈ names then cleared entry.2 else entry.2) ∈ (dropAll names doc).metrics := by
  refine List.mem_map.mpr ⟨entry, member, ?_⟩
  split <;> rfl

/-- A metric is read back with its lines, and with its details unless they were dropped. -/
theorem metricIn_dropAll {names : List String} {doc : SeriesDoc V} {entry : String × Metric V} (member : entry ∈ doc.metrics) :
    ∃ metric, metricIn entry.1 (docTree numerals (dropAll names doc)).meaning = some metric ∧
      metric.member "aggregate" = some (lineValue numerals entry.2.aggregate) ∧
      metric.member "aggregate_max" = entry.2.aggregateMax.map (lineValue numerals) ∧
      metric.member "series" = if entry.1 ∈ names then none else entry.2.series.map fun list =>
        Value.array (list.map fun series => (seriesTree numerals (byKey series.labels) series.points).meaning) := by
  have read := metricIn_of_mem numerals (@mem_dropAll V names doc entry member)
  refine ⟨_, read, ?_⟩
  rw [metricTree_aggregate, metricTree_aggregateMax, metricTree_series]
  split <;> exact ⟨rfl, rfl, rfl⟩

theorem length_byDecreasingSize_le (doc : SeriesDoc V) : (byDecreasingSize numerals doc).length ≤ doc.metrics.length := by
  rw [(byDecreasingSize_perm doc).length_eq]
  exact List.length_filterMap_le _ _

end Budget

/-! A metric of two points, which fits only at half the resolution. -/

def exampleNumerals : Numerals Int := ⟨integer, integer_legal⟩

def exampleReducers : Reducers Int := ⟨fun values => values.sum / values.length, fun values => values.max?.getD 0⟩

def exampleDoc : SeriesDoc Int where
  schemaVersion := 1
  window := { start := 1000, stop := 1090, stepSeconds := 30 }
  pods := ["train-0"]
  metrics := [("gpu_power",
    { unit := "watts", aggregation := "sum", aggregate := [(1000, 10), (1030, 20), (1060, 30), (1090, 40)]
      aggregateMax := none, series := none, seriesOmitted := true })]
  distinct := by simp

end AibomWebhook.SeriesBudget
