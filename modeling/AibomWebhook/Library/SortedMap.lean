import AibomWebhook.Library.Keyed
import Mathlib.Data.List.Sort

/-! The entries of a map in the order of their keys. -/

universe u v

namespace SortedMap
variable {κ : Type u} {α : Type v} [LinearOrder κ]

def sorted (map : Keyed (Prod.fst : κ × α → κ)) : List (κ × α) :=
  map.items.insertionSort fun first second => first.1 ≤ second.1

theorem sorted_perm (map : Keyed (Prod.fst : κ × α → κ)) : (sorted map).Perm map.items :=
  List.perm_insertionSort _ _

theorem nodup_sorted (map : Keyed (Prod.fst : κ × α → κ)) : ((sorted map).map Prod.fst).Nodup :=
  ((sorted_perm map).map Prod.fst).nodup_iff.mpr map.distinct

theorem ordered_sorted (map : Keyed (Prod.fst : κ × α → κ)) :
    (sorted map).Pairwise fun first second => first.1 < second.1 := by
  have weakly : (sorted map).Pairwise fun first second => first.1 ≤ second.1 := by
    have total : Std.Total fun first second : κ × α => first.1 ≤ second.1 :=
      ⟨fun first second => le_total first.1 second.1⟩
    have trans : IsTrans (κ × α) fun first second => first.1 ≤ second.1 := ⟨fun _ _ _ => le_trans⟩
    exact List.pairwise_insertionSort _ _
  have apart : (sorted map).Pairwise fun first second => first.1 ≠ second.1 := List.pairwise_map.mp (nodup_sorted map)
  exact weakly.imp₂ (fun _ _ below other => lt_of_le_of_ne below other) apart

/-- Entries that are in order already stay as they are. -/
theorem sorted_ofList {members : List (κ × α)} (ordered : members.Pairwise fun first second => first.1 < second.1) :
    sorted (Keyed.ofList members) = members := by
  have apart : (members.map Prod.fst).Nodup := List.pairwise_map.mpr (ordered.imp fun below => ne_of_lt below)
  have items : (Keyed.ofList members : Keyed (Prod.fst : κ × α → κ)).items = members :=
    Keyed.items_putAll (by simpa using apart)
  rw [sorted, items]
  exact List.Pairwise.insertionSort_eq (ordered.imp fun below => le_of_lt below)

theorem find?_of_perm {first second : Keyed (Prod.fst : κ × α → κ)} (same : first.items.Perm second.items)
    (key : κ) : first.find? key = second.find? key := by
  cases found : second.find? key with
  | none =>
    refine Keyed.find?_eq_none.mpr fun item member => ?_
    exact Keyed.find?_eq_none.mp found item (same.mem_iff.mp member)
  | some item =>
    obtain ⟨member, rfl⟩ := Keyed.find?_some found
    exact Keyed.find?_of_mem (same.mem_iff.mpr member)

/-- Two maps that have the same values have the same entries in order. -/
theorem sorted_congr {first second : Keyed (Prod.fst : κ × α → κ)}
    (same : ∀ key, first.find? key = second.find? key) : sorted first = sorted second := by
  have members : ∀ item, item ∈ sorted first ↔ item ∈ sorted second := by
    intro item
    rw [(sorted_perm first).mem_iff, (sorted_perm second).mem_iff, Keyed.mem_items_iff, Keyed.mem_items_iff, same]
  have perm : (sorted first).Perm (sorted second) :=
    (List.perm_ext_iff_of_nodup (nodup_sorted first).of_map (nodup_sorted second).of_map).mpr members
  refine perm.eq_of_pairwise ?_ (ordered_sorted first) (ordered_sorted second)
  intro one other _ _ below above
  exact absurd below (lt_asymm above)

end SortedMap
