import AibomWebhook.Library.SortedMap
import Mathlib.Data.List.Dedup
import Mathlib.Data.List.Induction

/-! The items of a list in groups of one key, in the order of the keys. -/

universe u v w

namespace Grouping
open SortedMap

variable {α : Type u} {κ : Type v} {β : Type w} [LinearOrder κ] (key : α → κ) (value : α → β)

abbrev Groups (κ : Type v) (β : Type w) [LinearOrder κ] := Keyed (Prod.fst : κ × List β → κ)

/-- The value of an item goes to the end of its group. -/
def add (groups : Groups κ β) (item : α) : Groups κ β :=
  groups.put (key item, (((groups.find? (key item)).map Prod.snd).getD []) ++ [value item])

def groups (items : List α) : Groups κ β := items.foldl (add key value) ∅

/-- The values of one key. -/
def group (items : List α) (k : κ) : List β := (items.filter fun item => key item = k).map value

def sortedGroups (items : List α) : List (κ × List β) := sorted (groups key value items)

variable {key value}

theorem group_append (front back : List α) (k : κ) :
    group key value (front ++ back) k = group key value front k ++ group key value back k := by
  simp only [group, List.filter_append, List.map_append]

theorem mem_group {items : List α} {k : κ} {v : β} :
    v ∈ group key value items k ↔ ∃ item ∈ items, key item = k ∧ value item = v := by
  simp only [group, List.mem_map, List.mem_filter, decide_eq_true_eq, and_assoc]

theorem find?_groups (items : List α) (k : κ) : (groups key value items).find? k =
    if group key value items k = [] then none else some (k, group key value items k) := by
  induction items using List.reverseRecOn with
  | nil => rfl
  | append_singleton before item ih =>
    have step : groups key value (before ++ [item]) = add key value (groups key value before) item := by
      rw [groups, List.foldl_append]
      rfl
    rw [step, add, group_append]
    by_cases here : key item = k
    · subst here
      have last : group key value [item] (key item) = [value item] := by simp [group]
      have some_ : group key value before (key item) ++ [value item] ≠ [] := by simp
      rw [Keyed.find?_put, if_pos rfl, ih, last, if_neg some_]
      by_cases empty : group key value before (key item) = []
      · rw [if_pos empty, empty]
        rfl
      · rw [if_neg empty]
        rfl
    · have last : group key value [item] k = [] := by simp [group, here]
      rw [Keyed.find?_put, if_neg here, ih, last, List.append_nil]

/-- A group has all the values of its key, and there is one for every key. -/
theorem mem_sortedGroups {items : List α} {k : κ} {values : List β} : (k, values) ∈ sortedGroups key value items ↔
    values = group key value items k ∧ values ≠ [] := by
  rw [sortedGroups, (sorted_perm _).mem_iff, Keyed.mem_items_iff, find?_groups]
  split
  · rename_i empty
    exact iff_of_false (by simp) fun both => both.2 (both.1.trans empty)
  · rename_i some_
    rw [Option.some.injEq, Prod.mk.injEq, eq_comm (a := group key value items k)]
    exact ⟨fun both => ⟨both.2, both.2 ▸ some_⟩, fun both => ⟨rfl, both.1⟩⟩

theorem mem_keys {items : List α} {k : κ} :
    k ∈ (sortedGroups key value items).map Prod.fst ↔ group key value items k ≠ [] := by
  constructor
  · intro member
    obtain ⟨entry, inside, rfl⟩ := List.mem_map.mp member
    obtain ⟨values, some_⟩ := mem_sortedGroups.mp inside
    exact values ▸ some_
  · intro some_
    exact List.mem_map.mpr ⟨(k, group key value items k), mem_sortedGroups.mpr ⟨rfl, some_⟩, rfl⟩

theorem ordered_sortedGroups (items : List α) :
    (sortedGroups key value items).Pairwise fun first second => first.1 < second.1 := ordered_sorted _

theorem nodup_sortedGroups (items : List α) : ((sortedGroups key value items).map Prod.fst).Nodup := nodup_sorted _

theorem group_ne_nil {items : List α} {item : α} (member : item ∈ items) : group key value items (key item) ≠ [] := by
  exact List.ne_nil_of_mem (mem_group.mpr ⟨item, member, rfl, rfl⟩)

/-- The keys in order are determined by which keys there are. -/
theorem keys_congr {γ : Type u} {δ : Type w} {otherKey : γ → κ} {otherValue : γ → δ} {first : List α} {second : List γ}
    (same : ∀ k, group key value first k = [] ↔ group otherKey otherValue second k = []) :
    (sortedGroups key value first).map Prod.fst = (sortedGroups otherKey otherValue second).map Prod.fst := by
  have members : ∀ k, k ∈ (sortedGroups key value first).map Prod.fst ↔
      k ∈ (sortedGroups otherKey otherValue second).map Prod.fst := by
    intro k
    rw [mem_keys, mem_keys, Ne, Ne, same]
  have perm := (List.perm_ext_iff_of_nodup (nodup_sortedGroups first) (nodup_sortedGroups second)).mpr members
  refine perm.eq_of_pairwise ?_ (List.pairwise_map.mpr (ordered_sortedGroups first))
    (List.pairwise_map.mpr (ordered_sortedGroups second))
  intro one other _ _ below above
  exact absurd below (lt_asymm above)

/-- Items with larger keys make groups of their own. -/
theorem sortedGroups_append {front back : List α} (apart : ∀ one ∈ front, ∀ other ∈ back, key one < key other) :
    sortedGroups key value (front ++ back) = sortedGroups key value front ++ sortedGroups key value back := by
  have away (k : κ) (some_ : group key value front k ≠ []) : group key value back k = [] := by
    refine List.eq_nil_iff_forall_not_mem.mpr fun v member => ?_
    obtain ⟨w, inside⟩ := List.exists_mem_of_ne_nil _ some_
    obtain ⟨one, first, rfl, _⟩ := mem_group.mp inside
    obtain ⟨other, second, same, _⟩ := mem_group.mp member
    exact absurd same (ne_of_gt (apart one first other second))
  have members : ∀ entry, entry ∈ sortedGroups key value (front ++ back) ↔
      entry ∈ sortedGroups key value front ++ sortedGroups key value back := by
    rintro ⟨k, values⟩
    rw [List.mem_append, mem_sortedGroups, mem_sortedGroups, mem_sortedGroups, group_append]
    by_cases empty : group key value front k = []
    · rw [empty, List.nil_append]
      exact ⟨Or.inr, fun either => either.resolve_left fun both => both.2 both.1⟩
    · rw [away k empty, List.append_nil]
      exact ⟨Or.inl, fun either => either.resolve_right fun both => both.2 both.1⟩
  have ordered : (sortedGroups key value front ++ sortedGroups key value back).Pairwise
      fun first second => first.1 < second.1 := by
    rw [List.pairwise_append]
    refine ⟨ordered_sortedGroups _, ordered_sortedGroups _, ?_⟩
    rintro ⟨k, values⟩ first ⟨l, others⟩ second
    obtain ⟨rfl, some_⟩ := mem_sortedGroups.mp first
    obtain ⟨rfl, some_'⟩ := mem_sortedGroups.mp second
    obtain ⟨v, inside⟩ := List.exists_mem_of_ne_nil _ some_
    obtain ⟨w, inside'⟩ := List.exists_mem_of_ne_nil _ some_'
    obtain ⟨one, here, rfl, _⟩ := mem_group.mp inside
    obtain ⟨other, there, rfl, _⟩ := mem_group.mp inside'
    exact apart one here other there
  have perm := (List.perm_ext_iff_of_nodup (nodup_sortedGroups _).of_map
    (ordered.imp fun below => fun same => absurd (congrArg Prod.fst same) (ne_of_lt below))).mpr members
  refine perm.eq_of_pairwise ?_ (ordered_sortedGroups _) ordered
  intro one other _ _ below above
  exact absurd below (lt_asymm above)

/-- There are as many groups as keys. -/
theorem length_sortedGroups (items : List α) :
    (sortedGroups key value items).length = (items.map key).dedup.length := by
  have members (k : κ) : k ∈ (sortedGroups key value items).map Prod.fst ↔ k ∈ (items.map key).dedup := by
    rw [mem_keys, List.mem_dedup, List.mem_map]
    constructor
    · intro some_
      obtain ⟨v, inside⟩ := List.exists_mem_of_ne_nil _ some_
      obtain ⟨item, member, here, _⟩ := mem_group.mp inside
      exact ⟨item, member, here⟩
    · rintro ⟨item, member, rfl⟩
      exact group_ne_nil member
  have perm := (List.perm_ext_iff_of_nodup (nodup_sortedGroups items) (List.nodup_dedup _)).mpr members
  rw [← perm.length_eq, List.length_map]

theorem sortedGroups_eq_map (items : List α) : sortedGroups key value items =
    ((sortedGroups key value items).map Prod.fst).map fun k => (k, group key value items k) := by
  rw [List.map_map]
  refine (List.map_id _).symm.trans (List.map_congr_left fun entry member => ?_)
  exact Prod.ext rfl (mem_sortedGroups.mp member).1

end Grouping
