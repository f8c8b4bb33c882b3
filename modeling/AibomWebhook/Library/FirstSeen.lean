import Mathlib.Tactic.Common
import Mathlib.Data.List.Basic

/-! The items of a list that are the first ones of their key. An item that has no key is
always one of them. -/

universe u v

namespace FirstSeen
variable {α : Type u} {κ : Type v} [DecidableEq κ] (key : α → Option κ)

/-- Some keys were seen before. -/
def firstsAfter (seen : List κ) : List α → List α
  | [] => []
  | item :: rest =>
    match key item with
    | none => item :: firstsAfter seen rest
    | some k => if k ∈ seen then firstsAfter seen rest else item :: firstsAfter (k :: seen) rest

def firsts (items : List α) : List α := firstsAfter key [] items

variable {key}

theorem firstsAfter_none {item : α} (without : key item = none) (seen : List κ) (rest : List α) :
    firstsAfter key seen (item :: rest) = item :: firstsAfter key seen rest := by
  rw [firstsAfter, without]

theorem firstsAfter_seen {item : α} {k : κ} (named : key item = some k) {seen : List κ} (before : k ∈ seen)
    (rest : List α) : firstsAfter key seen (item :: rest) = firstsAfter key seen rest := by
  rw [firstsAfter, named]
  exact if_pos before

theorem firstsAfter_fresh {item : α} {k : κ} (named : key item = some k) {seen : List κ} (fresh : k ∉ seen)
    (rest : List α) : firstsAfter key seen (item :: rest) = item :: firstsAfter key (k :: seen) rest := by
  rw [firstsAfter, named]
  exact if_neg fresh

theorem firstsAfter_congr {seen other : List κ} (same : ∀ k, k ∈ seen ↔ k ∈ other) (items : List α) :
    firstsAfter key seen items = firstsAfter key other items := by
  induction items generalizing seen other with
  | nil => rfl
  | cons item rest ih =>
    cases named : key item with
    | none => rw [firstsAfter_none named, firstsAfter_none named, ih same]
    | some k =>
      by_cases before : k ∈ seen
      · rw [firstsAfter_seen named before, firstsAfter_seen named ((same k).mp before), ih same]
      · have extended : ∀ l, l ∈ k :: seen ↔ l ∈ k :: other := by
          intro l
          rw [List.mem_cons, List.mem_cons, same]
        rw [firstsAfter_fresh named before, firstsAfter_fresh named (fun later => before ((same k).mpr later)),
          ih extended]

theorem firstsAfter_append (seen : List κ) (front back : List α) :
    firstsAfter key seen (front ++ back) =
      firstsAfter key seen front ++ firstsAfter key (front.filterMap key ++ seen) back := by
  induction front generalizing seen with
  | nil => rfl
  | cons item rest ih =>
    rw [List.cons_append]
    cases named : key item with
    | none => rw [firstsAfter_none named, firstsAfter_none named, ih, List.filterMap_cons_none named, List.cons_append]
    | some k =>
      rw [List.filterMap_cons_some named]
      by_cases before : k ∈ seen
      · rw [firstsAfter_seen named before, firstsAfter_seen named before, ih]
        refine congrArg _ (firstsAfter_congr (fun l => ?_) back)
        simp only [List.cons_append, List.mem_cons, List.mem_append]
        constructor
        · exact Or.inr
        · rintro (rfl | found)
          · exact Or.inr before
          · exact found
      · rw [firstsAfter_fresh named before, firstsAfter_fresh named before, ih, List.cons_append]
        refine congrArg (fun later => item :: (_ ++ later)) (firstsAfter_congr (fun l => ?_) back)
        simp only [List.cons_append, List.mem_cons, List.mem_append]
        exact or_left_comm

theorem firsts_append (front back : List α) :
    firsts key (front ++ back) = firsts key front ++ firstsAfter key (front.filterMap key) back := by
  rw [firsts, firstsAfter_append, List.append_nil]
  rfl

/-- Keys that were seen already when an inner choice was made do not matter. -/
theorem firstsAfter_firstsAfter {seen inner : List κ} (within : ∀ k ∈ inner, k ∈ seen) (items : List α) :
    firstsAfter key seen (firstsAfter key inner items) = firstsAfter key seen items := by
  induction items generalizing seen inner with
  | nil => rfl
  | cons item rest ih =>
    cases named : key item with
    | none => rw [firstsAfter_none named, firstsAfter_none named, firstsAfter_none named, ih within]
    | some k =>
      by_cases before : k ∈ inner
      · rw [firstsAfter_seen named before, firstsAfter_seen named (within k before), ih within]
      · rw [firstsAfter_fresh named before]
        by_cases known : k ∈ seen
        · rw [firstsAfter_seen named known, firstsAfter_seen named known]
          refine ih fun l member => ?_
          rcases List.mem_cons.mp member with rfl | old
          · exact known
          · exact within l old
        · rw [firstsAfter_fresh named known, firstsAfter_fresh named known]
          refine congrArg (item :: ·) (ih fun l member => ?_)
          rcases List.mem_cons.mp member with rfl | old
          · exact List.mem_cons_self
          · exact List.mem_cons_of_mem k (within l old)

theorem firstsAfter_subset (seen : List κ) (items : List α) : ∀ item ∈ firstsAfter key seen items, item ∈ items := by
  induction items generalizing seen with
  | nil => exact fun item member => member
  | cons first rest ih =>
    intro item member
    cases named : key first with
    | none =>
      rw [firstsAfter_none named] at member
      rcases List.mem_cons.mp member with rfl | later
      · exact List.mem_cons_self
      · exact List.mem_cons_of_mem first (ih seen item later)
    | some k =>
      by_cases before : k ∈ seen
      · rw [firstsAfter_seen named before] at member
        exact List.mem_cons_of_mem first (ih seen item member)
      · rw [firstsAfter_fresh named before] at member
        rcases List.mem_cons.mp member with rfl | later
        · exact List.mem_cons_self
        · exact List.mem_cons_of_mem first (ih _ item later)

/-- Every key keeps an item, unless it was seen before. -/
theorem mem_keys_firstsAfter (seen : List κ) (items : List α) (k : κ) :
    k ∈ (firstsAfter key seen items).filterMap key ∨ k ∈ seen ↔ k ∈ items.filterMap key ∨ k ∈ seen := by
  induction items generalizing seen with
  | nil => rfl
  | cons item rest ih =>
    cases named : key item with
    | none => rw [firstsAfter_none named, List.filterMap_cons_none named, List.filterMap_cons_none named, ih]
    | some l =>
      rw [List.filterMap_cons_some named]
      by_cases before : l ∈ seen
      · rw [firstsAfter_seen named before, ih, List.mem_cons]
        constructor
        · rintro (found | old)
          · exact Or.inl (Or.inr found)
          · exact Or.inr old
        · rintro ((rfl | found) | old)
          · exact Or.inr before
          · exact Or.inl found
          · exact Or.inr old
      · have later := ih (l :: seen)
        simp only [List.mem_cons] at later
        rw [firstsAfter_fresh named before, List.filterMap_cons_some named, List.mem_cons, List.mem_cons, or_assoc,
          or_assoc, or_left_comm, later, or_left_comm]

theorem mem_keys_firsts (items : List α) (k : κ) : k ∈ (firsts key items).filterMap key ↔ k ∈ items.filterMap key := by
  have both : k ∈ (firstsAfter key [] items).filterMap key ∨ k ∈ [] ↔ k ∈ items.filterMap key ∨ k ∈ [] :=
    mem_keys_firstsAfter [] items k
  simpa [firsts] using both

/-- Choosing from both halves first changes nothing. -/
theorem firsts_append_firsts (front back : List α) :
    firsts key (firsts key front ++ firsts key back) = firsts key (front ++ back) := by
  rw [firsts_append, firsts_append]
  have inner : firsts key (firsts key front) = firsts key front := firstsAfter_firstsAfter (fun k member => member) front
  have outer : firstsAfter key ((firsts key front).filterMap key) (firsts key back) =
      firstsAfter key (front.filterMap key) back := by
    have again : firstsAfter key ((firsts key front).filterMap key) (firsts key back) =
        firstsAfter key ((firsts key front).filterMap key) back :=
      firstsAfter_firstsAfter (fun k member => absurd member List.not_mem_nil) back
    rw [again]
    exact firstsAfter_congr (mem_keys_firsts front) back
  rw [inner, outer]

/-- Of items whose keys were all seen before only those that have no key are kept. -/
theorem firstsAfter_of_seen {seen : List κ} {items : List α}
    (known : ∀ item ∈ items, ∀ k, key item = some k → k ∈ seen) :
    firstsAfter key seen items = items.filter fun item => (key item).isNone := by
  induction items with
  | nil => rfl
  | cons item rest ih =>
    have later := ih fun other member => known other (List.mem_cons_of_mem item member)
    cases named : key item with
    | none => rw [firstsAfter_none named, later, List.filter_cons_of_pos (by simp [named])]
    | some k =>
      rw [firstsAfter_seen named (known item List.mem_cons_self k named), later,
        List.filter_cons_of_neg (by simp [named])]

/-- A change of the items that keeps their keys can be made before or after. -/
theorem firstsAfter_map {change : α → α} (seen : List κ) {items : List α}
    (kept : ∀ item ∈ items, key (change item) = key item) :
    firstsAfter key seen (items.map change) = (firstsAfter key seen items).map change := by
  induction items generalizing seen with
  | nil => rfl
  | cons item rest ih =>
    have here := kept item List.mem_cons_self
    have later := fun seen => ih seen fun other member => kept other (List.mem_cons_of_mem item member)
    rw [List.map_cons]
    cases named : key item with
    | none => rw [firstsAfter_none (here.trans named), firstsAfter_none named, later, List.map_cons]
    | some k =>
      by_cases before : k ∈ seen
      · rw [firstsAfter_seen (here.trans named) before, firstsAfter_seen named before, later]
      · rw [firstsAfter_fresh (here.trans named) before, firstsAfter_fresh named before, later, List.map_cons]

/-- An item is kept exactly when it has no key or no item before it has its key. -/
theorem firstsAfter_eq_filter (earlier items : List α) :
    firstsAfter key (earlier.filterMap key) items = (((items.zipIdx earlier.length).filter fun (item, i) =>
      (key item).isNone || ((earlier ++ items).take i).all fun other => key other ≠ key item).map Prod.fst) := by
  induction items generalizing earlier with
  | nil => rfl
  | cons item rest ih =>
    have before : (earlier ++ item :: rest).take earlier.length = earlier := by
      rw [List.take_append_of_le_length (Nat.le_refl _), List.take_length]
    have shifted : earlier ++ item :: rest = (earlier ++ [item]) ++ rest := by simp
    have length : (earlier ++ [item]).length = earlier.length + 1 := by simp
    have later := ih (earlier ++ [item])
    rw [length, ← shifted] at later
    rw [List.zipIdx_cons]
    cases named : key item with
    | none =>
      rw [firstsAfter_none named, List.filter_cons_of_pos (by simp [named]), List.map_cons, ← later,
        List.filterMap_append, List.filterMap_cons_none named, List.filterMap_nil, List.append_nil]
    | some k =>
      have extended : firstsAfter key ((earlier ++ [item]).filterMap key) rest =
          firstsAfter key (k :: earlier.filterMap key) rest := by
        refine firstsAfter_congr (fun l => ?_) rest
        simp [List.filterMap_append, named, or_comm]
      rw [extended] at later
      by_cases seen : k ∈ earlier.filterMap key
      · obtain ⟨other, member, same⟩ := List.mem_filterMap.mp seen
        have clash : (earlier.all fun other => decide (key other ≠ some k)) = false :=
          List.all_eq_false.mpr ⟨other, member, by simp [same]⟩
        have known : ∀ l, l ∈ k :: earlier.filterMap key ↔ l ∈ earlier.filterMap key := by
          intro l
          constructor
          · intro found
            rcases List.mem_cons.mp found with rfl | old
            · exact seen
            · exact old
          · exact List.mem_cons_of_mem k
        rw [firstsAfter_seen named seen, List.filter_cons_of_neg (by simp only [before, named, clash]; simp), ← later,
          firstsAfter_congr known]
      · have apart : (earlier.all fun other => decide (key other ≠ some k)) = true := by
          refine List.all_eq_true.mpr fun other member => decide_eq_true fun same => seen ?_
          exact List.mem_filterMap.mpr ⟨other, member, same⟩
        rw [firstsAfter_fresh named seen, List.filter_cons_of_pos (by simp only [before, named, apart]; simp),
          List.map_cons, ← later]

theorem firsts_eq_filter (items : List α) : firsts key items = ((items.zipIdx.filter fun (item, i) =>
    (key item).isNone || (items.take i).all fun other => key other ≠ key item).map Prod.fst) :=
  firstsAfter_eq_filter [] items

end FirstSeen
