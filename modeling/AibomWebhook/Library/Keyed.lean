import Mathlib.Tactic.Common
import Mathlib.Data.List.Nodup

/-! Finite collections whose items are told apart by a key. No two items of a
collection have one key; it is a field of the structure, so no operation can
build a collection that breaks it. -/

universe u v

theorem List.mapM_eq_some_iff {β γ : Type} {read : β → Option γ} {list : List β} {values : List γ} :
    list.mapM read = some values ↔ list.map read = values.map some := by
  induction list generalizing values with
  | nil =>
    rw [List.mapM_nil, List.map_nil, Option.pure_def, Option.some.injEq, eq_comm, eq_comm (a := []), List.map_eq_nil_iff]
  | cons first rest ih =>
    cases values with
    | nil => simp [List.mapM_cons, Option.bind_eq_some_iff]
    | cons value others => simp [List.mapM_cons, Option.bind_eq_some_iff, ih]

theorem List.isSome_mapM_iff {β γ : Type} {read : β → Option γ} {list : List β} :
    (list.mapM read).isSome = true ↔ ∀ item ∈ list, (read item).isSome = true := by
  induction list with
  | nil => simp
  | cons first rest ih =>
    rw [List.mapM_cons, List.forall_mem_cons, ← ih]
    cases read first with
    | none => simp
    | some value => cases rest.mapM read <;> simp

structure Keyed {κ : Type u} {α : Type v} (key : α → κ) where
  items : List α
  distinct : (items.map key).Nodup

namespace Keyed
variable {κ : Type u} {α : Type v} {key : α → κ}

@[ext] theorem ext_items {first second : Keyed key} (same : first.items = second.items) : first = second := by
  cases first
  cases second
  cases same
  rfl

def empty : Keyed key where
  items := []
  distinct := List.nodup_nil

instance : EmptyCollection (Keyed key) := ⟨empty⟩

@[simp] theorem items_empty : (∅ : Keyed key).items = [] := rfl

private theorem nodup_append_single {items : List α} {item : α} (distinct : (items.map key).Nodup)
    (fresh : ∀ old ∈ items, key old ≠ key item) : ((items ++ [item]).map key).Nodup := by
  rw [List.map_append, List.nodup_append]
  refine ⟨distinct, List.nodup_singleton _, ?_⟩
  intro k mem other single
  obtain ⟨old, member, rfl⟩ := List.mem_map.mp mem
  rw [List.map_singleton, List.mem_singleton] at single
  exact single ▸ fresh old member

variable [DecidableEq κ]

def find? (k : κ) (store : Keyed key) : Option α := store.items.find? (fun item => key item = k)

def erase (k : κ) (store : Keyed key) : Keyed key where
  items := store.items.filter (fun item => key item ≠ k)
  distinct := store.distinct.sublist (List.filter_sublist.map key)

private theorem map_replace (items : List α) (item : α) :
    (items.map (fun old => if key old = key item then item else old)).map key = items.map key := by
  rw [List.map_map]
  apply List.map_congr_left
  intro old _
  by_cases same : key old = key item <;> simp [same]

/-- Insert an item, in the place of the one with its key if there is one. -/
def put (item : α) (store : Keyed key) : Keyed key :=
  if fresh : ∀ old ∈ store.items, key old ≠ key item then
    { items := store.items ++ [item]
      distinct := nodup_append_single store.distinct fresh }
  else
    { items := store.items.map (fun old => if key old = key item then item else old)
      distinct := by rw [map_replace]; exact store.distinct }

/-- Insert a list of items one after the other. -/
def putAll (items : List α) (store : Keyed key) : Keyed key :=
  items.foldl (fun (now : Keyed key) item => now.put item) store

def ofList (items : List α) : Keyed key := putAll items (∅ : Keyed key)

@[simp] theorem find?_empty (k : κ) : (∅ : Keyed key).find? k = none := rfl

theorem find?_some {k : κ} {store : Keyed key} {item : α} (found : store.find? k = some item) :
    item ∈ store.items ∧ key item = k :=
  ⟨List.mem_of_find?_eq_some found, by simpa using List.find?_some found⟩

theorem key_of_find? {k : κ} {store : Keyed key} {item : α} (found : store.find? k = some item) :
    key item = k := (find?_some found).2

theorem find?_of_mem {store : Keyed key} {item : α} (member : item ∈ store.items) :
    store.find? (key item) = some item := by
  rcases store with ⟨items, distinct⟩
  simp only [find?]
  induction items with
  | nil => simp at member
  | cons first rest ih =>
    rw [List.map_cons, List.nodup_cons] at distinct
    rcases List.mem_cons.mp member with same | later
    · simp [same]
    · have other : key first ≠ key item := fun same =>
        distinct.1 (same ▸ List.mem_map_of_mem later)
      simpa [List.find?, other] using ih distinct.2 later

theorem mem_items_iff {store : Keyed key} {item : α} :
    item ∈ store.items ↔ store.find? (key item) = some item :=
  ⟨find?_of_mem, fun found => (find?_some found).1⟩

/-- The items of one key are the one that is found. -/
theorem filter_key (k : κ) (store : Keyed key) :
    store.items.filter (fun item => key item = k) = (store.find? k).toList := by
  rcases store with ⟨items, distinct⟩
  simp only [find?]
  induction items with
  | nil => rfl
  | cons first rest ih =>
    rw [List.map_cons, List.nodup_cons] at distinct
    by_cases here : key first = k
    · have others : rest.filter (fun item => key item = k) = [] := by
        rw [List.filter_eq_nil_iff]
        intro item member same
        have clash : key item = key first := (of_decide_eq_true same).trans here.symm
        exact distinct.1 (List.mem_map.mpr ⟨item, member, clash⟩)
      rw [List.filter_cons_of_pos (by simpa using here), List.find?_cons_of_pos (by simpa using here), others]
      rfl
    · rw [List.filter_cons_of_neg (by simpa using here), List.find?_cons_of_neg (by simpa using here)]
      exact ih distinct.2

theorem find?_eq_none {k : κ} {store : Keyed key} :
    store.find? k = none ↔ ∀ item ∈ store.items, key item ≠ k := by
  simp [find?, List.find?_eq_none]

@[simp] theorem find?_erase_self (k : κ) (store : Keyed key) : (store.erase k).find? k = none := by
  simp [find?_eq_none, erase]

theorem find?_erase_of_ne {k other : κ} (different : other ≠ k) (store : Keyed key) :
    (store.erase k).find? other = store.find? other := by
  simp only [find?, erase, List.find?_filter]
  congr 1
  funext item
  by_cases hit : key item = other
  · simp [hit, different]
  · simp [hit]

theorem erase_of_absent {k : κ} {store : Keyed key} (absent : store.find? k = none) : store.erase k = store := by
  apply ext_items
  rw [erase, List.filter_eq_self]
  intro item member
  simpa using find?_eq_none.mp absent item member

private theorem find?_map_replace (items : List α) (item : α) (k : κ)
    (present : ∃ old ∈ items, key old = key item) :
    (items.map (fun old => if key old = key item then item else old)).find? (fun old => key old = k) =
      if key item = k then some item else items.find? (fun old => key old = k) := by
  induction items with
  | nil => simp at present
  | cons first rest ih =>
    by_cases here : key first = key item
    · by_cases wanted : key item = k
      · simp [here, wanted]
      · by_cases later : ∃ old ∈ rest, key old = key item
        · simpa [here, wanted, List.find?] using ih later
        · push Not at later
          have same : rest.map (fun old => if key old = key item then item else old) = rest := by
            conv_rhs => rw [← List.map_id rest]
            apply List.map_congr_left
            intro old member
            simp [later old member]
          simp [here, wanted, List.find?, same]
    · have later : ∃ old ∈ rest, key old = key item := by
        obtain ⟨old, member, same⟩ := present
        rcases List.mem_cons.mp member with rfl | later
        · exact absurd same here
        · exact ⟨old, later, same⟩
      by_cases hit : key first = k
      · have missed : key item ≠ k := fun wanted => here (hit.trans wanted.symm)
        rw [List.map_cons, if_neg here, List.find?_cons_of_pos (by simpa using hit), if_neg missed,
          List.find?_cons_of_pos (by simpa using hit)]
      · simpa [here, hit, List.find?] using ih later

theorem find?_put (item : α) (store : Keyed key) (k : κ) :
    (store.put item).find? k = if key item = k then some item else store.find? k := by
  unfold put
  split
  · rename_i fresh
    by_cases wanted : key item = k
    · subst wanted
      have missed : store.items.find? (fun old => key old = key item) = none := by
        simpa [List.find?_eq_none] using fresh
      simp [find?, List.find?_append, missed]
    · simp [find?, List.find?_append, wanted]
  · rename_i taken
    push Not at taken
    exact find?_map_replace store.items item k taken

@[simp] theorem find?_put_self (item : α) (store : Keyed key) :
    (store.put item).find? (key item) = some item := by simp [find?_put]

theorem find?_put_of_ne {item : α} {k : κ} (different : key item ≠ k) (store : Keyed key) :
    (store.put item).find? k = store.find? k := by simp [find?_put, different]

theorem mem_put {item other : α} {store : Keyed key} (member : other ∈ (store.put item).items) :
    other = item ∨ other ∈ store.items := by
  unfold put at member
  split at member
  · rcases List.mem_append.mp member with old | new
    · exact Or.inr old
    · exact Or.inl (List.mem_singleton.mp new)
  · obtain ⟨old, present, rfl⟩ := List.mem_map.mp member
    by_cases same : key old = key item
    · simp [same]
    · simp [same, present]

theorem mem_putAll {items : List α} {store : Keyed key} {item : α} (member : item ∈ (putAll items store).items) :
    item ∈ items ∨ item ∈ store.items := by
  induction items generalizing store with
  | nil => exact Or.inr member
  | cons first rest ih =>
    rcases ih member with later | now
    · exact Or.inl (List.mem_cons_of_mem _ later)
    · rcases mem_put now with rfl | old
      · exact Or.inl List.mem_cons_self
      · exact Or.inr old

theorem mem_ofList {items : List α} {item : α} (member : item ∈ (ofList items : Keyed key).items) : item ∈ items :=
  (mem_putAll member).resolve_right (by simp)

theorem items_put_ne_nil (item : α) (store : Keyed key) : (store.put item).items ≠ [] := by
  have found := find?_put_self item store
  intro none
  simp [find?, none] at found

theorem items_putAll_eq_nil {items : List α} {store : Keyed key} :
    (putAll items store).items = [] ↔ items = [] ∧ store.items = [] := by
  induction items generalizing store with
  | nil => simp [putAll]
  | cons first rest ih =>
    have later : (putAll (first :: rest) store).items = [] ↔ rest = [] ∧ (store.put first).items = [] := ih
    simp [later, items_put_ne_nil]

/-- Items of other keys than the ones present are added in order. -/
theorem items_putAll {items : List α} {store : Keyed key} (fresh : ((store.items ++ items).map key).Nodup) :
    (putAll items store).items = store.items ++ items := by
  induction items generalizing store with
  | nil => exact (List.append_nil _).symm
  | cons first rest ih =>
    have missing : ∀ old ∈ store.items, key old ≠ key first := by
      rw [List.map_append, List.nodup_append] at fresh
      exact fun old member => fresh.2.2 _ (List.mem_map_of_mem member) _ (by simp)
    have put : (store.put first).items = store.items ++ [first] := by
      unfold Keyed.put
      rw [dif_pos missing]
    have unlike : (((store.put first).items ++ rest).map key).Nodup := by
      rwa [put, List.append_assoc]
    have later := ih unlike
    rw [put, List.append_assoc] at later
    exact later

@[simp] theorem ofList_items (store : Keyed key) : ofList store.items = store := by
  apply ext_items
  rw [ofList, items_putAll (by simpa using store.distinct)]
  rfl

theorem find?_putAll (changes store : Keyed key) (k : κ) :
    (putAll changes.items store).find? k = (changes.find? k).or (store.find? k) := by
  obtain ⟨items, distinct⟩ := changes
  simp only [find?]
  induction items generalizing store with
  | nil => rfl
  | cons first rest ih =>
    rw [List.map_cons, List.nodup_cons] at distinct
    have later := ih (store.put first) distinct.2
    have found := find?_put first store k
    simp only [find?] at found
    have whole : (putAll (first :: rest) store).items = (putAll rest (store.put first)).items := rfl
    rw [whole, later, found]
    by_cases here : key first = k
    · have others : rest.find? (fun item => key item = k) = none := by
        rw [List.find?_eq_none]
        intro item member same
        have clash : key item = key first := (of_decide_eq_true same).trans here.symm
        exact distinct.1 (List.mem_map.mpr ⟨item, member, clash⟩)
      simp [here, others]
    · simp [here]

/-- Keeping the items of some keys. -/
theorem find?_ofList_filter (keep : κ → Bool) (store : Keyed key) (k : κ) :
    (ofList (store.items.filter fun item => keep (key item)) : Keyed key).find? k =
      if keep k = true then store.find? k else none := by
  have apart : ((store.items.filter fun item => keep (key item)).map key).Nodup :=
    store.distinct.sublist (List.filter_sublist.map key)
  have items : (ofList (store.items.filter fun item => keep (key item)) : Keyed key).items =
      store.items.filter fun item => keep (key item) := by
    rw [ofList, items_putAll (by simpa using apart)]
    rfl
  rw [find?, items, List.find?_filter]
  by_cases kept : keep k = true
  · rw [if_pos kept, find?]
    refine congrArg (fun test => List.find? test store.items) ?_
    funext item
    by_cases same : key item = k
    · simp [same, kept]
    · simp [same]
  · rw [if_neg kept, List.find?_eq_none]
    intro item _ both
    simp only [decide_eq_true_eq] at both
    exact kept (both.2 ▸ both.1)

theorem isEmpty_ofList (items : List α) : (ofList items : Keyed key).items.isEmpty = items.isEmpty := by
  rw [Bool.eq_iff_iff, List.isEmpty_iff, List.isEmpty_iff, ofList, items_putAll_eq_nil]
  simp

theorem erase_comm (first second : κ) (store : Keyed key) :
    (store.erase first).erase second = (store.erase second).erase first := by
  apply ext_items
  simp only [erase, List.filter_filter]
  congr 1
  funext item
  exact Bool.and_comm _ _

@[simp] theorem erase_put_self (item : α) (store : Keyed key) :
    (store.put item).erase (key item) = store.erase (key item) := by
  apply ext_items
  unfold put
  split
  · simp [erase, List.filter_append]
  · simp only [erase, List.filter_map]
    have unchanged : ∀ old ∈ store.items.filter (fun old => key old ≠ key item),
        (if key old = key item then item else old) = old := by
      intro old member
      have other := of_decide_eq_true (List.mem_filter.mp member).2
      rw [if_neg other]
    have test : ((fun old => decide (key old ≠ key item)) ∘ fun old => if key old = key item then item else old) =
        fun old => decide (key old ≠ key item) := by
      funext old
      by_cases same : key old = key item <;> simp [same]
    rw [test, List.map_congr_left unchanged, List.map_id']

theorem find?_isSome_iff {k : κ} {store : Keyed key} : (store.find? k).isSome = true ↔ k ∈ store.items.map key := by
  rw [Option.isSome_iff_ne_none, ne_eq, find?_eq_none, List.mem_map]
  simp

/-- An item whose key is there takes the place of the old one. -/
theorem keys_put {item : α} {store : Keyed key} (present : key item ∈ store.items.map key) :
    (store.put item).items.map key = store.items.map key := by
  obtain ⟨old, member, same⟩ := List.mem_map.mp present
  have taken : ¬∀ old ∈ store.items, key old ≠ key item := fun fresh => fresh old member same
  rw [put, dif_neg taken]
  exact map_replace store.items item

theorem keys_putAll {items : List α} {store : Keyed key} (present : ∀ item ∈ items, key item ∈ store.items.map key) :
    (putAll items store).items.map key = store.items.map key := by
  induction items generalizing store with
  | nil => rfl
  | cons first rest ih =>
    have here := keys_put (present first List.mem_cons_self)
    have later : ∀ item ∈ rest, key item ∈ (store.put first).items.map key := by
      rw [here]
      exact fun item member => present item (List.mem_cons_of_mem first member)
    exact (ih later).trans here

/-- The order of the keys and what is found at each of them make up a collection. -/
theorem ext_find {first second : Keyed key} (keys : first.items.map key = second.items.map key)
    (found : ∀ k, first.find? k = second.find? k) : first = second := by
  apply ext_items
  have length : first.items.length = second.items.length := by simpa using congrArg List.length keys
  refine List.ext_getElem length fun i here there => ?_
  have same : key first.items[i] = key second.items[i] := by
    have pair := List.getElem_of_eq keys (by simpa using here)
    simpa using pair
  have one := find?_of_mem (List.getElem_mem here)
  have two := find?_of_mem (List.getElem_mem there)
  rw [same, found, two] at one
  exact (Option.some.inj one).symm

/-- A change of what the keys stand for can be made before or after. -/
theorem find?_putAll_map {β : Type v} (change : α → β) (items : List (κ × α))
    {first : Keyed (Prod.fst : κ × α → κ)} {second : Keyed (Prod.fst : κ × β → κ)}
    (same : ∀ k, second.find? k = (first.find? k).map (Prod.map id change)) (k : κ) :
    (putAll (items.map (Prod.map id change)) second).find? k =
      ((putAll items first).find? k).map (Prod.map id change) := by
  induction items generalizing first second with
  | nil => exact same k
  | cons item rest ih =>
    have put (key : κ) : (second.put (Prod.map id change item)).find? key = ((first.put item).find? key).map (Prod.map id change) := by
      rw [find?_put, find?_put, same]
      by_cases here : item.1 = key
      · simp [here]
      · simp [here]
    exact ih put

/-- The last item of a key is the one that is found. -/
theorem find?_putAll_reverse (items : List α) (store : Keyed key) (k : κ) :
    (putAll items store).find? k = (items.reverse.find? fun item => key item = k).or (store.find? k) := by
  induction items generalizing store with
  | nil => rfl
  | cons first rest ih =>
    have later : (putAll (first :: rest) store).find? k = (putAll rest (store.put first)).find? k := rfl
    rw [later, ih, List.reverse_cons, List.find?_append, Option.or_assoc, find?_put]
    by_cases here : key first = k
    · simp [here]
    · simp [here]

end Keyed
