import AibomWebhook.SeriesBudget

/-! When making a document of time series fit its budget comes to an end (postprocess.py,
`_fit_series_doc`), whatever fewest points are configured. -/

namespace AibomWebhook.SeriesBudget
open JsonText TelemetrySeries

section Loops
variable {V : Type} {reducers : Reducers V} {numerals : Numerals V} {minPoints maxBytes : Int} {doc : SeriesDoc V}

/-- A factor at which the first loop stops. -/
def Stops (reducers : Reducers V) (numerals : Numerals V) (minPoints maxBytes : Int) (doc : SeriesDoc V) (factor : Nat) : Prop :=
  ¬minPoints ≤ ceilDiv (longest doc) factor ∨
    size (encodeSeriesDoc numerals (rebucketSeriesDoc reducers doc factor)) ≤ maxBytes

/-- The induction is on the fuel; the factor at which the loop stops comes nearer. -/
theorem isSome_coarsen {fuel factor more : Nat} (last : SeriesDoc V) (enough : more < fuel)
    (stops : Stops reducers numerals minPoints maxBytes doc (factor + more)) :
    (coarsen reducers numerals minPoints maxBytes doc fuel factor last).isSome = true := by
  induction fuel generalizing factor more last with
  | zero => omega
  | succ fuel ih =>
    rw [coarsen]
    by_cases guard : minPoints ≤ ceilDiv (longest doc) factor
    · rw [if_pos guard]
      by_cases fits : size (encodeSeriesDoc numerals (rebucketSeriesDoc reducers doc factor)) ≤ maxBytes
      · simp only [if_pos fits, Option.isSome_some]
      · simp only [if_neg fits]
        cases more with
        | zero => exact absurd stops (not_or_intro (not_not_intro guard) fits)
        | succ more =>
          have later : factor + 1 + more = factor + (more + 1) := by omega
          exact ih _ (by omega) (later ▸ stops)
    · rw [if_neg guard]
      rfl

theorem coarsen_eq_none (never : ∀ factor, 2 ≤ factor → ¬Stops reducers numerals minPoints maxBytes doc factor)
    (fuel : Nat) {factor : Nat} (atLeast : 2 ≤ factor) (last : SeriesDoc V) :
    coarsen reducers numerals minPoints maxBytes doc fuel factor last = none := by
  induction fuel generalizing factor last with
  | zero => rfl
  | succ fuel ih =>
    obtain ⟨guard, large⟩ := not_or.mp (never factor atLeast)
    rw [coarsen, if_pos (not_not.mp guard)]
    simp only [if_neg large]
    exact ih (by omega) _

theorem length_coarsest {fuel factor : Nat} {last coarse : SeriesDoc V} (same : last.metrics.length = doc.metrics.length)
    (ran : coarsen reducers numerals minPoints maxBytes doc fuel factor last = some (.coarsest coarse)) :
    coarse.metrics.length = doc.metrics.length := by
  induction fuel generalizing factor last with
  | zero => cases ran
  | succ fuel ih =>
    rw [coarsen] at ran
    split at ran
    · dsimp only at ran
      split at ran
      · cases ran
      · exact ih (List.length_map ..) ran
    · cases ran
      exact same

theorem isSome_dropDetail {fuel : Nat} (enough : doc.metrics.length < fuel) :
    (dropDetail numerals maxBytes fuel doc).isSome = true := by
  have metrics := @length_byDecreasingSize_le V numerals doc
  obtain ⟨result, dropped, _⟩ := @dropDetail_spec V numerals maxBytes doc fuel 0 (Nat.zero_le _) (by omega)
    fun fewer low => absurd low (Nat.not_lt_zero fewer)
  rw [dropLargest_zero] at dropped
  rw [dropped]
  rfl

/-- The guard of the first loop fails in the end unless the fewest points are no more than a line keeps anyway. -/
theorem exists_guard_fails_iff (points : Nat) : (∃ factor : Nat, 2 ≤ factor ∧ ¬minPoints ≤ ceilDiv points factor) ↔
    2 ≤ minPoints ∨ minPoints = 1 ∧ points = 0 := by
  constructor
  · rintro ⟨factor, atLeast, fails⟩
    rw [le_ceilDiv_iff (by omega)] at fails
    by_contra neither
    have few : minPoints ≤ 1 := by omega
    have product : (minPoints - 1) * (factor : Int) ≤ 0 := Int.mul_nonpos_of_nonpos_of_nonneg (by omega) (by omega)
    have none_ : points = 0 := by omega
    have less : minPoints - 1 ≤ -1 := by omega
    have negative : (minPoints - 1) * (factor : Int) ≤ -1 * factor := Int.mul_le_mul_of_nonneg_right less (by omega)
    omega
  · intro either
    refine ⟨points + 2, by omega, ?_⟩
    rw [le_ceilDiv_iff (by omega)]
    rcases either with many | ⟨rfl, rfl⟩
    · have product : 1 * ((points + 2 : Nat) : Int) ≤ (minPoints - 1) * (points + 2 : Nat) :=
        Int.mul_le_mul_of_nonneg_right (by omega) (by omega)
      omega
    · decide

/-- Both loops end exactly when the document fits at some resolution that is at most its own, or has to keep
more points of a line than one is left with in the end. -/
theorem fit_terminates_iff (reducers : Reducers V) (numerals : Numerals V) (minPoints maxBytes : Int) (doc : SeriesDoc V) :
    (∃ fuel, (fitSeriesDoc reducers numerals minPoints maxBytes fuel doc).isSome = true) ↔
      size (encodeSeriesDoc numerals doc) ≤ maxBytes ∨
        (2 ≤ minPoints ∨ minPoints = 1 ∧ longest doc = 0) ∨
        ∃ factor : Nat, 2 ≤ factor ∧ size (encodeSeriesDoc numerals (rebucketSeriesDoc reducers doc factor)) ≤ maxBytes := by
  have stops : (∃ factor, 2 ≤ factor ∧ Stops reducers numerals minPoints maxBytes doc factor) ↔
      (2 ≤ minPoints ∨ minPoints = 1 ∧ longest doc = 0) ∨
        ∃ factor : Nat, 2 ≤ factor ∧ size (encodeSeriesDoc numerals (rebucketSeriesDoc reducers doc factor)) ≤ maxBytes := by
    rw [← exists_guard_fails_iff, ← exists_or]
    exact exists_congr fun factor => and_or_left
  rw [← stops]
  by_cases whole : size (encodeSeriesDoc numerals doc) ≤ maxBytes
  · refine ⟨fun _ => Or.inl whole, fun _ => ⟨0, ?_⟩⟩
    rw [fitSeriesDoc, if_pos whole]
    rfl
  · constructor
    · rintro ⟨fuel, ends⟩
      by_contra never
      have endless := coarsen_eq_none (fun factor atLeast stop => never (Or.inr ⟨factor, atLeast, stop⟩)) fuel (le_refl 2) doc
      rw [fitSeriesDoc, if_neg whole, endless] at ends
      cases ends
    · rintro (fits | ⟨factor, atLeast, stop⟩)
      · exact absurd fits whole
      · refine ⟨factor + doc.metrics.length + 1, ?_⟩
        have reached : 2 + (factor - 2) = factor := by omega
        have ran := @isSome_coarsen V reducers numerals minPoints maxBytes doc (factor + doc.metrics.length + 1) 2 (factor - 2)
          doc (by omega) (reached.symm ▸ stop)
        obtain ⟨coarsened, ran⟩ := Option.isSome_iff_exists.mp ran
        rw [fitSeriesDoc, if_neg whole, ran]
        cases coarsened with
        | fits encoded => rfl
        | coarsest coarse =>
          have metrics := length_coarsest rfl ran
          exact isSome_dropDetail (by omega)

end Loops

theorem size_encodeSeriesDoc_pos {V : Type} (numerals : Numerals V) (doc : SeriesDoc V) : 0 < size (encodeSeriesDoc numerals doc) := by
  have some_ : encodeSeriesDoc numerals doc ≠ "" := by
    intro nothing
    have letters := congrArg String.toList nothing
    rw [encodeSeriesDoc, Raw.text, String.toList_ofList] at letters
    cases letters
  have bytes : (encodeSeriesDoc numerals doc).utf8ByteSize ≠ 0 := mt String.utf8ByteSize_eq_zero_iff.mp some_
  rw [size]
  omega

/-- With one point as the fewest, a document that does not fit at any resolution is made coarser for ever. -/
theorem one_point_never_ends : ¬∀ (minPoints maxBytes : Int) (doc : SeriesDoc Int),
    ∃ fuel, (fitSeriesDoc exampleReducers exampleNumerals minPoints maxBytes fuel doc).isSome = true := by
  intro all
  obtain ⟨fuel, ends⟩ := all 1 0 exampleDoc
  have never (factor : Nat) (atLeast : 2 ≤ factor) : ¬Stops exampleReducers exampleNumerals 1 0 exampleDoc factor := by
    rintro (guard | fits)
    · exact guard ((le_ceilDiv_iff (by omega)).mpr (by simp [longest, exampleDoc]))
    · exact absurd fits (not_le_of_gt (size_encodeSeriesDoc_pos _ _))
  have large : ¬size (encodeSeriesDoc exampleNumerals exampleDoc) ≤ 0 := not_le_of_gt (size_encodeSeriesDoc_pos _ _)
  rw [fitSeriesDoc, if_neg large, coarsen_eq_none never fuel (le_refl 2) exampleDoc] at ends
  cases ends

end AibomWebhook.SeriesBudget
