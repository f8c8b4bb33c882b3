import Mathlib.Data.List.Basic

/-! A file that is locked by its open file descriptions. A fork copies the descriptors of a
process, and the lock of a description is held until its last descriptor is closed. -/

namespace FileLock

/-- For each process the open file descriptions that it has descriptors of, and the one that
holds the lock. -/
structure Files where
  tables : List (List Nat)
  opened : Nat
  holder : Option Nat
  held : ∀ file, holder = some file → ∃ table ∈ tables, file ∈ table

namespace Files
variable {files : Files} {process other file : Nat}

def table (files : Files) (process : Nat) : List Nat := (files.tables[process]?).getD []

def start (processes : Nat) : Files where
  tables := List.replicate processes []
  opened := 0
  holder := none
  held := nofun

/-- A lock whose description is open nowhere is released. -/
def withTables (files : Files) (tables : List (List Nat)) : Files where
  tables := tables
  opened := files.opened
  holder := files.holder.filter fun file => tables.any fun table => table.contains file
  held := by
    intro file holds
    simpa using (Option.filter_eq_some_iff.mp holds).2

/-- The new description is the one of number `files.opened`. -/
def openFile (files : Files) (process : Nat) : Files :=
  { files.withTables (files.tables.modify process (files.opened :: ·)) with opened := files.opened + 1 }

def close (files : Files) (process file : Nat) : Files :=
  files.withTables (files.tables.modify process fun table => table.filter (· ≠ file))

def exit (files : Files) (process : Nat) : Files := files.withTables (files.tables.set process [])

def fork (files : Files) (process : Nat) : Files := files.withTables (files.tables ++ [files.table process])

def launch (files : Files) : Files := files.withTables (files.tables ++ [[]])

/-- One attempt that does not wait. -/
def tryLock (files : Files) (process file : Nat) : Option Files :=
  if inside : file ∈ files.table process ∧ (files.holder = none ∨ files.holder = some file) then
    some { files with
      holder := some file
      held := by
        intro holds same
        obtain rfl := Option.some.inj same
        have found := inside.1
        rw [table] at found
        cases here : files.tables[process]? with
        | none => simp [here] at found
        | some table => exact ⟨table, List.mem_of_getElem? here, by simpa [here] using found⟩ }
  else none

@[simp] theorem table_start (processes : Nat) : (start processes).table process = [] := by
  rw [table, start, List.getElem?_replicate]
  split <;> rfl

theorem mem_table_openFile : file ∈ (files.openFile process).table other ↔
    file ∈ files.table other ∨ file = files.opened ∧ other = process ∧ process < files.tables.length := by
  simp only [table, openFile, withTables, List.getElem?_modify]
  by_cases same : process = other
  · subst same
    cases here : files.tables[process]? with
    | none => simp [List.getElem?_eq_none_iff.mp here]
    | some table => simp [(List.getElem?_eq_some_iff.mp here).1, or_comm]
  · simp [same, Ne.symm same]

theorem mem_table_close {closed : Nat} : file ∈ (files.close process closed).table other ↔
    file ∈ files.table other ∧ ¬(other = process ∧ file = closed) := by
  simp only [table, close, withTables, List.getElem?_modify]
  by_cases same : process = other
  · subst same
    cases here : files.tables[process]? with
    | none => simp
    | some table => simp
  · simp [same, Ne.symm same]

theorem mem_table_exit : file ∈ (files.exit process).table other ↔ file ∈ files.table other ∧ other ≠ process := by
  simp only [table, exit, withTables, List.getElem?_set]
  by_cases same : process = other
  · subst same
    simp only [if_true, ne_eq, not_true_eq_false, and_false, iff_false]
    split <;> exact List.not_mem_nil
  · simp [same, Ne.symm same]

theorem mem_table_append {added : List Nat} : file ∈ (files.withTables (files.tables ++ [added])).table other ↔
    file ∈ files.table other ∨ file ∈ added ∧ other = files.tables.length := by
  simp only [table, withTables]
  rcases Nat.lt_trichotomy other files.tables.length with below | rfl | above
  · simp [List.getElem?_append_left below, Nat.ne_of_lt below]
  · simp
  · have longer : (files.tables ++ [added]).length ≤ other := by
      rw [List.length_append, List.length_singleton]
      omega
    simp [List.getElem?_eq_none_iff.mpr longer, List.getElem?_eq_none_iff.mpr (Nat.le_of_lt above), Nat.ne_of_gt above]

/-- An attempt changes no descriptor, and takes the lock or leaves it to another. -/
theorem tryLock_some {locked : Files} (got : files.tryLock process file = some locked) :
    locked.tables = files.tables ∧ locked.holder = some file := by
  rw [tryLock] at got
  split at got
  · obtain rfl := Option.some.inj got
    exact ⟨rfl, rfl⟩
  · cases got

theorem open_of_holder (holds : files.holder = some file) : ∃ process, file ∈ files.table process := by
  obtain ⟨table, member, inside⟩ := files.held file holds
  obtain ⟨process, here⟩ := List.mem_iff_getElem?.mp member
  refine ⟨process, ?_⟩
  rw [Files.table, here]
  exact inside

end Files

end FileLock
