import Mathlib.Tactic.Common
import Mathlib.Logic.Function.Basic

/-! Lists of environment variables, as a container runtime evaluates them: entry after
entry, a later one of a name in place of an earlier one, with the references `$(NAME)`
of a text standing for the values so far and `$$` for a dollar sign. Values are texts
over any alphabet that has the letters, so that a part of a value can be marked and
followed. -/

namespace EnvList

inductive Piece where
  | letter (c : Char)
  | reference (name : String)
  deriving DecidableEq, Repr

/-- The pieces of a text of which some letters are to be skipped. A reference that is
never closed is text. -/
def pieces : Nat → List Char → List Piece
  | _, [] => []
  | skip + 1, _ :: rest => pieces skip rest
  | 0, c :: rest =>
    if c = '$' ∧ rest.head? = some '$' then .letter '$' :: pieces 1 rest
    else if c = '$' ∧ rest.head? = some '(' ∧ ')' ∈ rest then
      let name := rest.tail.takeWhile (· ≠ ')')
      .reference (String.ofList name) :: pieces (name.length + 2) rest
    else .letter c :: pieces 0 rest

theorem pieces_plain {plain : List Char} (clean : '$' ∉ plain) (rest : List Char) :
    pieces 0 (plain ++ rest) = plain.map Piece.letter ++ pieces 0 rest := by
  induction plain with
  | nil => rfl
  | cons c plain ih =>
    have other : c ≠ '$' := fun same => clean (same ▸ List.mem_cons_self)
    have later := ih fun member => clean (List.mem_cons_of_mem c member)
    simp [pieces, other, later]

/-! Evaluation. -/

abbrev Env (α : Type) := String → Option (List α)

/-- An entry's text, and where its value comes from if it has none. -/
structure Entry (σ : Type) where
  name : String
  text : String
  source : Option σ

section Evaluation
variable {α σ : Type} (letter : Char → α) (resolve : σ → Option String) (env : Env α)

def spell (text : String) : List α := text.toList.map letter

/-- An unknown reference is left as it is. -/
def Piece.meaning : Piece → List α
  | .letter c => [letter c]
  | .reference name => (env name).getD (spell letter ("$(" ++ name ++ ")"))

def expand (text : String) : List α := (pieces 0 text.toList).flatMap (Piece.meaning letter env)

/-- A source that may be missing gives no value. -/
def Entry.value (entry : Entry σ) : Option (List α) :=
  if entry.text ≠ "" then some (expand letter env entry.text)
  else
    match entry.source with
    | some source => (resolve source).map (spell letter)
    | none => some []

def define (entry : Entry σ) : Env α :=
  match entry.value letter resolve env with
  | some value => Function.update env entry.name (some value)
  | none => env

def evaluate (entries : List (Entry σ)) : Env α := entries.foldl (define letter resolve) env

variable {letter resolve env}

theorem expand_plain_append {plain : String} (clean : '$' ∉ plain.toList) (text : String) :
    expand letter env (plain ++ text) = spell letter plain ++ expand letter env text := by
  simp only [expand, String.toList_append, pieces_plain clean, List.flatMap_append, spell]
  congr 1
  induction plain.toList with
  | nil => rfl
  | cons c rest ih => simp only [List.map_cons, List.flatMap_cons, ih, Piece.meaning, List.singleton_append]

theorem expand_plain {text : String} (clean : '$' ∉ text.toList) : expand letter env text = spell letter text := by
  have append : expand letter env (text ++ "") = spell letter text ++ expand letter env "" :=
    expand_plain_append clean ""
  simpa [expand, pieces] using append

theorem evaluate_append (first second : List (Entry σ)) :
    evaluate letter resolve env (first ++ second) =
      evaluate letter resolve (evaluate letter resolve env first) second := List.foldl_append

theorem define_of_ne {entry : Entry σ} {name : String} (other : entry.name ≠ name) :
    define letter resolve env entry name = env name := by
  cases value : entry.value letter resolve env with
  | none => simp only [define, value]
  | some text => simp only [define, value, Function.update_of_ne (Ne.symm other)]

theorem evaluate_of_ne {entries : List (Entry σ)} {name : String} (others : ∀ entry ∈ entries, entry.name ≠ name) :
    evaluate letter resolve env entries name = env name := by
  induction entries generalizing env with
  | nil => rfl
  | cons entry rest ih =>
    have first : define letter resolve env entry name = env name := define_of_ne (others entry List.mem_cons_self)
    exact (ih fun other member => others other (List.mem_cons_of_mem entry member)).trans first

theorem evaluate_append_one (entries : List (Entry σ)) (entry : Entry σ) :
    evaluate letter resolve env (entries ++ [entry]) =
      define letter resolve (evaluate letter resolve env entries) entry := evaluate_append entries [entry]

theorem define_text {entry : Entry σ} (filled : entry.text ≠ "") :
    define letter resolve env entry = Function.update env entry.name (some (expand letter env entry.text)) := by
  have value : entry.value letter resolve env = some (expand letter env entry.text) := if_pos filled
  simp only [define, value]

/-- The last piece is a reference to a variable that has a value. -/
theorem expand_reference {plain name : String} {value : List α} (clean : '$' ∉ plain.toList)
    (simple : pieces 0 ("$(" ++ name ++ ")").toList = [.reference name]) (known : env name = some value) :
    expand letter env (plain ++ ("$(" ++ name ++ ")")) = spell letter plain ++ value := by
  rw [expand_plain_append clean]
  simp only [expand, simple, List.flatMap_singleton, Piece.meaning, known, Option.getD_some]

end Evaluation

/-! Evaluation over another alphabet. -/

section Hom
variable {α β σ : Type} {letter : Char → α} {other : Char → β} {resolve : σ → Option String} {change : α → List β}

def translate (change : α → List β) (env : Env α) : Env β := fun name => (env name).map (List.flatMap change)

variable (letters : ∀ c, change (letter c) = [other c])
include letters

theorem spell_translate (text : String) : (spell letter text).flatMap change = spell other text := by
  rw [spell, spell, List.flatMap_map, List.map_eq_flatMap]
  simp only [letters]

theorem expand_translate (env : Env α) (text : String) :
    (expand letter env text).flatMap change = expand other (translate change env) text := by
  simp only [expand, List.flatMap_assoc]
  congr 1
  funext piece
  cases piece with
  | letter c => simp [Piece.meaning, letters]
  | reference name =>
    simp only [Piece.meaning, translate]
    cases env name with
    | none => exact spell_translate letters _
    | some value => rfl

theorem define_translate (env : Env α) (entry : Entry σ) :
    translate change (define letter resolve env entry) = define other resolve (translate change env) entry := by
  have value : (entry.value letter resolve env).map (List.flatMap change) =
      entry.value other resolve (translate change env) := by
    unfold Entry.value
    split
    · exact congrArg some (expand_translate letters env entry.text)
    · cases entry.source with
      | none => rfl
      | some source =>
        dsimp only
        cases resolve source with
        | none => rfl
        | some text => exact congrArg some (spell_translate letters text)
  unfold define
  rw [← value]
  cases entry.value letter resolve env with
  | none => rfl
  | some text =>
    funext name
    by_cases here : name = entry.name
    · subst here
      simp [translate]
    · simp [translate, Function.update_of_ne here]

theorem evaluate_translate (env : Env α) (entries : List (Entry σ)) :
    translate change (evaluate letter resolve env entries) = evaluate other resolve (translate change env) entries := by
  induction entries generalizing env with
  | nil => rfl
  | cons entry rest ih =>
    have later := ih (define letter resolve env entry)
    rw [define_translate letters env entry] at later
    exact later

end Hom

/-! Texts with marks in them. -/

section Marks
variable {α : Type}

/-- A marked text, with a text for the marks. -/
def fill (value : List α) : Option α → List α
  | some letter => [letter]
  | none => value

theorem fill_letters (value text : List α) : (text.map some).flatMap (fill value) = text := by
  simp only [List.flatMap_map, fill]
  exact List.flatMap_singleton' text

theorem length_fill [DecidableEq α] (value : List α) (marked : List (Option α)) :
    (marked.flatMap (fill value)).length = (marked.filter Option.isSome).length + marked.count none * value.length := by
  induction marked with
  | nil => simp
  | cons piece rest ih =>
    cases piece with
    | none =>
      simp only [List.flatMap_cons, List.length_append, ih, fill, List.count_cons_self, Nat.add_mul, Nat.one_mul]
      simp
      omega
    | some letter =>
      simp only [List.flatMap_cons, List.length_append, ih, fill]
      simp
      omega

theorem length_longer [DecidableEq α] (front value : List α) (marked : List (Option α)) :
    (marked.flatMap (fill (front ++ value))).length =
      (marked.flatMap (fill value)).length + marked.count none * front.length := by
  rw [length_fill, length_fill, List.length_append, Nat.mul_add]
  omega

/-- The value of the marks shows exactly if there is a mark. -/
theorem fill_eq_iff [DecidableEq α] {front : List α} (filled : front ≠ []) (value : List α) (marked : List (Option α)) :
    marked.flatMap (fill (front ++ value)) = marked.flatMap (fill value) ↔ none ∉ marked := by
  constructor
  · intro same
    have lengths := length_longer front value marked
    rw [same] at lengths
    have positive : 0 < front.length := List.length_pos_iff.mpr filled
    have unmarked : marked.count none = 0 := by
      rcases Nat.mul_eq_zero.mp (Nat.add_eq_left.mp lengths.symm) with zero | zero
      · exact zero
      · omega
    exact List.count_eq_zero.mp unmarked
  · intro unmarked
    induction marked with
    | nil => rfl
    | cons piece rest ih =>
      have later := ih fun member => unmarked (List.mem_cons_of_mem piece member)
      cases piece with
      | none => exact absurd List.mem_cons_self unmarked
      | some letter => simp only [List.flatMap_cons, fill, later]

theorem letters_of_unmarked {marked : List (Option α)} (unmarked : none ∉ marked) :
    ∃ text : List α, marked = text.map some := by
  induction marked with
  | nil => exact ⟨[], rfl⟩
  | cons piece rest ih =>
    obtain ⟨text, same⟩ := ih fun member => unmarked (List.mem_cons_of_mem piece member)
    cases piece with
    | none => exact absurd List.mem_cons_self unmarked
    | some letter => exact ⟨letter :: text, by simp [same]⟩

/-- What is put before the value of the marks comes before the whole text exactly if
there is one mark, and what is before it can change places with that. -/
theorem fill_front_iff [DecidableEq α] {front : List α} (filled : front ≠ []) (value : List α)
    (marked : List (Option α)) :
    marked.flatMap (fill (front ++ value)) = front ++ marked.flatMap (fill value) ↔
      ∃ before later : List α, marked = before.map some ++ none :: later.map some ∧ before ++ front = front ++ before := by
  constructor
  · intro same
    have lengths := length_longer front value marked
    rw [same, List.length_append] at lengths
    have positive : 0 < front.length := List.length_pos_iff.mpr filled
    have once : marked.count none = 1 := by
      have product : marked.count none * front.length = 1 * front.length := by omega
      exact Nat.eq_of_mul_eq_mul_right positive product
    have present : none ∈ marked := List.count_pos_iff.mp (by omega)
    obtain ⟨first, rest, split, unmarked⟩ := List.eq_append_cons_of_mem present
    rw [split, List.count_append, List.count_cons_self, List.count_eq_zero.mpr unmarked] at once
    obtain ⟨before, rfl⟩ := letters_of_unmarked unmarked
    obtain ⟨later, rfl⟩ := letters_of_unmarked (List.count_eq_zero.mp (by omega : rest.count none = 0))
    refine ⟨before, later, split, ?_⟩
    rw [split] at same
    simp only [List.flatMap_append, List.flatMap_cons, fill_letters, fill, ← List.append_assoc] at same
    exact List.append_cancel_right (List.append_cancel_right same)
  · rintro ⟨before, later, rfl, commute⟩
    simp only [List.flatMap_append, List.flatMap_cons, fill_letters, fill, ← List.append_assoc, commute]

/-- A text whose first letter does not come again changes places with its repetitions only. -/
theorem commute_iff {first : α} {rest : List α} (fresh : first ∉ rest) (text : List α) :
    text ++ first :: rest = first :: rest ++ text ↔ ∃ n, text = (List.replicate n (first :: rest)).flatten := by
  constructor
  · intro same
    induction length : text.length using Nat.strongRecOn generalizing text with
    | ind n ih =>
      subst length
      cases text with
      | nil => exact ⟨0, rfl⟩
      | cons letter more =>
        by_cases short : (letter :: more).length < (first :: rest).length
        · have place := congrArg (fun list => list[(letter :: more).length]?) same
          simp only [List.getElem?_append_right (Nat.le_refl _), Nat.sub_self, List.getElem?_append_left short] at place
          have inside : first ∈ rest := by
            rw [List.length_cons, List.getElem?_cons_succ] at place
            exact List.mem_of_getElem? place.symm
          exact absurd inside fresh
        · have starts : first :: rest <+: letter :: more :=
            List.prefix_of_prefix_length_le ⟨letter :: more, same.symm⟩ (List.prefix_append _ _)
              (Nat.le_of_not_lt short)
          obtain ⟨shorter, split⟩ := starts
          have less : shorter.length < (letter :: more).length := by
            rw [← split, List.length_append, List.length_cons]
            omega
          have commute : shorter ++ first :: rest = first :: rest ++ shorter := by
            rw [← split, List.append_assoc] at same
            exact List.append_cancel_left same
          obtain ⟨n, repeated⟩ := ih _ less shorter commute rfl
          refine ⟨n + 1, ?_⟩
          rw [← split, repeated, List.replicate_succ, List.flatten_cons]
  · rintro ⟨n, rfl⟩
    induction n with
    | zero => simp
    | succ n ih => rw [List.replicate_succ, List.flatten_cons, List.append_assoc, ih]

end Marks

end EnvList
