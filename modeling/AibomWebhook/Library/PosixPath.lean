import Mathlib.Data.List.DropRight

/-! Python's `posixpath`, and the names that a relative path leads through. -/

namespace PosixPath

abbrev Path := List Char

def basename (path : Path) : Path := path.rtakeWhile (· ≠ '/')

def join (path rest : Path) : Path :=
  if rest.head? = some '/' then rest
  else if path = [] ∨ path.getLast? = some '/' then path ++ rest
  else path ++ '/' :: rest

/-- What `normpath` makes of the next component; the ones before it stand in reverse. -/
def settle (rooted : Bool) (before : List Path) (part : Path) : List Path :=
  if part = [] ∨ part = ['.'] then before
  else if part ≠ ['.', '.'] ∨ (rooted = false ∧ before = []) ∨ before.head? = some ['.', '.'] then part :: before
  else before.tail

def initialSlashes : Path → Nat
  | ['/', '/'] => 2
  | '/' :: '/' :: c :: _ => if c = '/' then 1 else 2
  | '/' :: _ => 1
  | _ => 0

def normpath (path : Path) : Path :=
  let slashes := initialSlashes path
  let parts := ((path.splitOn '/').foldl (settle (slashes != 0)) []).reverse
  let whole := List.replicate slashes '/' ++ ['/'].intercalate parts
  if whole = [] then ['.'] else whole

/-- The names that a path leads through. -/
def components (path : Path) : List Path := (path.splitOn '/').filter fun part => part ≠ [] ∧ part ≠ ['.']

/-- A path from where one is that leads nowhere up. -/
structure Downward (path : Path) : Prop where
  relative : path.head? ≠ some '/'
  straight : ['.', '.'] ∉ components path

variable {path rest : Path}

theorem initialSlashes_of_relative (relative : path.head? ≠ some '/') : initialSlashes path = 0 := by
  rcases path with _ | ⟨c, more⟩
  · rfl
  · have other : c ≠ '/' := fun same => relative (congrArg some same)
    unfold initialSlashes
    split <;> simp_all

/-! The parts. -/

theorem not_mem_of_mem_splitOn {part : Path} (member : part ∈ path.splitOn '/') : '/' ∉ part := by
  induction path generalizing part with
  | nil =>
    rw [List.splitOn_nil, List.mem_singleton] at member
    rw [member]
    exact List.not_mem_nil
  | cons c more ih =>
    rw [List.splitOn_cons_eq_if_modifyHead] at member
    by_cases slash : (c == '/') = true
    · rw [if_pos slash, List.mem_cons] at member
      rcases member with rfl | later
      · exact List.not_mem_nil
      · exact ih later
    · rw [if_neg slash] at member
      cases pieces : more.splitOn '/' with
      | nil => exact absurd pieces (List.splitOn_ne_nil _ _)
      | cons first others =>
        rw [pieces, List.modifyHead_cons, List.mem_cons] at member
        rcases member with rfl | later
        · have free : '/' ∉ first := ih (pieces ▸ List.mem_cons_self)
          intro inside
          rcases List.mem_cons.mp inside with same | inside
          · exact slash (same ▸ beq_self_eq_true _)
          · exact free inside
        · exact ih (pieces ▸ List.mem_cons_of_mem _ later)

theorem not_mem_of_mem_components {part : Path} (member : part ∈ components path) : '/' ∉ part :=
  not_mem_of_mem_splitOn (List.mem_of_mem_filter member)

/-- A path that is joined to another one goes on from where that leads. -/
theorem components_join (relative : rest.head? ≠ some '/') : components (join path rest) = components path ++ components rest := by
  rw [join, if_neg relative]
  split
  next ends =>
    rcases ends with rfl | slash
    · rfl
    · obtain ⟨front, rfl⟩ := List.getLast?_eq_some_iff.mp slash
      simp [components, List.splitOn_append_cons_self]
  next => simp [components, List.splitOn_append_cons_self]

theorem join_ne_nil (path : Path) (some' : rest ≠ []) : join path rest ≠ [] := by
  unfold join
  split
  · exact some'
  · split <;> simp [some']

theorem Downward.join (first : Downward path) (second : Downward rest) : Downward (join path rest) where
  relative := by
    rw [PosixPath.join, if_neg second.relative]
    rcases path with _ | ⟨c, more⟩
    · simpa using second.relative
    · split <;> exact first.relative
  straight := by
    rw [components_join second.relative, List.mem_append]
    exact not_or.mpr ⟨first.straight, second.straight⟩

theorem Downward.nil : Downward [] where
  relative := nofun
  straight := by decide

/-! The last name. -/

theorem basename_of_free (free : '/' ∉ path) : basename path = path := by
  rw [basename, List.rtakeWhile_eq_self_iff]
  intro c inside
  have other : c ≠ '/' := fun same => free (same ▸ inside)
  simpa using other

theorem basename_append (front rest : Path) : basename (front ++ '/' :: rest) = basename rest := by
  induction rest using List.reverseRecOn with
  | nil => simp [basename]
  | append_singleton before last ih =>
    have split : front ++ '/' :: (before ++ [last]) = (front ++ '/' :: before) ++ [last] := by simp
    rw [split, basename, basename]
    by_cases slash : last = '/'
    · simp [slash]
    · have keeps (text : Path) : (text ++ [last]).rtakeWhile (fun c => decide (c ≠ '/')) =
          text.rtakeWhile (fun c => decide (c ≠ '/')) ++ [last] := List.rtakeWhile_concat_pos _ _ _ (by simpa using slash)
      rw [keeps, keeps]
      exact congrArg (· ++ [last]) ih

theorem basename_intercalate {parts : List Path} (free : ∀ part ∈ parts, '/' ∉ part) :
    basename (['/'].intercalate parts) = parts.getLastD [] := by
  induction parts with
  | nil => rfl
  | cons part others ih =>
    rcases others with _ | ⟨next, later⟩
    · simpa [List.intercalate] using basename_of_free (free part (by simp))
    · have step : ['/'].intercalate (part :: next :: later) = part ++ '/' :: ['/'].intercalate (next :: later) := by
        simp [List.intercalate]
      rw [step, basename_append, ih fun part member => free part (List.mem_cons_of_mem _ member)]
      rfl

theorem foldl_settle {parts : List Path} (straight : ['.', '.'] ∉ parts) (rooted : Bool) (before : List Path) :
    parts.foldl (settle rooted) before = (parts.filter fun part => part ≠ [] ∧ part ≠ ['.']).reverse ++ before := by
  induction parts generalizing before with
  | nil => rfl
  | cons part later ih =>
    rw [List.mem_cons, not_or] at straight
    rw [List.foldl_cons, ih straight.2]
    by_cases skipped : part = [] ∨ part = ['.']
    · have out : ¬(part ≠ [] ∧ part ≠ ['.']) := not_and_or.mpr (skipped.imp not_not.mpr not_not.mpr)
      rw [settle, if_pos skipped, List.filter_cons_of_neg (by simpa using out)]
    · have kept : part ≠ [] ∧ part ≠ ['.'] := not_or.mp skipped
      rw [settle, if_neg skipped, if_pos (Or.inl (Ne.symm straight.1)), List.filter_cons_of_pos (by simpa using kept),
        List.reverse_cons, List.append_assoc]
      rfl

/-- The name that a path is known by is that of the last directory it leads to. -/
theorem basename_normpath (down : Downward path) : basename (normpath path) = (components path).getLastD ['.'] := by
  have straight : ['.', '.'] ∉ path.splitOn '/' := by
    intro member
    exact down.straight (List.mem_filter.mpr ⟨member, by decide⟩)
  have parts : (((path.splitOn '/').foldl (settle (initialSlashes path != 0)) []).reverse) = components path := by
    rw [foldl_settle straight, List.append_nil, List.reverse_reverse, components]
  have whole : normpath path =
      if ['/'].intercalate (components path) = [] then ['.'] else ['/'].intercalate (components path) := by
    rw [normpath]
    simp only [parts]
    rw [initialSlashes_of_relative down.relative]
    rfl
  have free : ∀ part ∈ components path, '/' ∉ part := fun part member => not_mem_of_mem_components member
  have last := basename_intercalate free
  rw [whole]
  cases names : components path with
  | nil => rfl
  | cons first others =>
    rw [names] at last
    have filled : ['/'].intercalate (first :: others) ≠ [] := by
      have named : first ≠ [] := by
        have member : first ∈ components path := names ▸ List.mem_cons_self
        exact (of_decide_eq_true (List.mem_filter.mp member).2).1
      rcases others with _ | ⟨next, later⟩ <;> simp [List.intercalate, named]
    rw [if_neg filled, last]
    rfl

end PosixPath
