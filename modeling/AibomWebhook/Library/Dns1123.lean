import Mathlib.Computability.DFA
import Mathlib.Data.List.DropRight
import Mathlib.Data.Bool.AllAny

/-! The names and label values that the Kubernetes API server accepts, and what is left
of a name that is cut, stripped of hyphens and given an ending. -/

namespace Dns1123

/-- Where the regular expression of a DNS-1123 subdomain stands: before a label, after a
letter or digit of one, or after a hyphen of one. -/
inductive Place where
  | start
  | word
  | hyphen
  | dead
  deriving DecidableEq, Repr

def isWord (c : Char) : Bool := c.isLower || c.isDigit

def Place.step : Place → Char → Place
  | .start, c => if isWord c then .word else .dead
  | .word, c => if isWord c then .word else if c = '-' then .hyphen else if c = '.' then .start else .dead
  | .hyphen, c => if isWord c then .word else if c = '-' then .hyphen else .dead
  | .dead, _ => .dead

/-- `[a-z0-9]([-a-z0-9]*[a-z0-9])?(\.[a-z0-9]([-a-z0-9]*[a-z0-9])?)*` -/
def subdomain : DFA Char Place where
  step := Place.step
  start := .start
  accept := {.word}

def IsSubdomain (text : String) : Prop := text.length ≤ 253 ∧ subdomain.eval text.toList = .word

def IsLabel (text : String) : Prop := text.length ≤ 63 ∧ '.' ∉ text.toList ∧ subdomain.eval text.toList = .word

def isValueChar (c : Char) : Bool := c.isAlphanum || c = '-' || c = '_' || c = '.'

/-- `(([A-Za-z0-9][-A-Za-z0-9_.]*)?[A-Za-z0-9])?`, of at most 63 characters. -/
def IsLabelValue (text : String) : Prop :=
  text.length ≤ 63 ∧ text.toList.all isValueChar ∧ text.toList.head?.all Char.isAlphanum ∧
    text.toList.getLast?.all Char.isAlphanum

instance (text : String) : Decidable (IsSubdomain text) := inferInstanceAs (Decidable (_ ∧ _))
instance (text : String) : Decidable (IsLabel text) := inferInstanceAs (Decidable (_ ∧ _ ∧ _))
instance (text : String) : Decidable (IsLabelValue text) := inferInstanceAs (Decidable (_ ∧ _ ∧ _ ∧ _))

/-! The steps. -/

theorem isAlphanum_of_isWord {c : Char} (word : isWord c = true) : c.isAlphanum = true := by
  simp only [isWord, Bool.or_eq_true] at word
  rw [Char.isAlphanum, Bool.or_eq_true]
  delta Char.isAlpha
  rw [Bool.or_eq_true]
  tauto

theorem step_word (place : Place) {c : Char} (word : isWord c = true) (alive : place ≠ .dead) : place.step c = .word := by
  cases place <;> simp_all [Place.step]

theorem step_hyphen (place : Place) : place.step '-' = if place = .word ∨ place = .hyphen then .hyphen else .dead := by
  cases place <;> rfl

/-- The character last read. -/
theorem step_cases {place next : Place} {c : Char} (stepped : place.step c = next) (alive : next ≠ .dead) :
    place ≠ .dead ∧ ((next = .word ∧ isWord c = true) ∨ (next = .hyphen ∧ c = '-') ∨ (next = .start ∧ c = '.')) := by
  subst stepped
  cases place <;> simp only [Place.step] at alive ⊢ <;> (repeat' split at alive) <;> simp_all

theorem evalFrom_dead (text : List Char) : subdomain.evalFrom .dead text = .dead := by
  induction text with
  | nil => rfl
  | cons c rest ih => exact ih

theorem subdomain_step (place : Place) (c : Char) : subdomain.step place c = place.step c := rfl

theorem alive_of_append {place : Place} {left right : List Char}
    (alive : subdomain.evalFrom place (left ++ right) ≠ .dead) : subdomain.evalFrom place left ≠ .dead := by
  intro dead
  rw [DFA.evalFrom_of_append, dead, evalFrom_dead] at alive
  exact alive rfl

theorem isValueChar_of_alive {place : Place} {c : Char} (alive : place.step c ≠ .dead) : isValueChar c = true := by
  obtain ⟨-, ⟨-, word⟩ | ⟨-, rfl⟩ | ⟨-, rfl⟩⟩ := step_cases rfl alive
  · simp [isValueChar, isAlphanum_of_isWord word]
  · rfl
  · rfl

theorem all_of_alive {text : List Char} {place : Place} (alive : subdomain.evalFrom place text ≠ .dead) :
    text.all isValueChar = true := by
  induction text generalizing place with
  | nil => rfl
  | cons c rest ih =>
    rw [DFA.evalFrom_cons] at alive
    have first : place.step c ≠ .dead := by
      intro dead
      rw [subdomain_step, dead, evalFrom_dead] at alive
      exact alive rfl
    rw [List.all_cons, isValueChar_of_alive first, ih alive, Bool.and_self]

/-! Subdomains as label values. -/

theorem isLabelValue_iff {text : String} (valid : subdomain.eval text.toList = .word) :
    IsLabelValue text ↔ text.length ≤ 63 := by
  refine ⟨fun legal => legal.1, fun short => ⟨short, ?_, ?_, ?_⟩⟩
  · have whole : subdomain.evalFrom subdomain.start text.toList = .word := valid
    exact all_of_alive (by rw [whole]; decide)
  · cases chars : text.toList with
    | nil => rfl
    | cons c rest =>
      rw [chars, DFA.eval, DFA.evalFrom_cons] at valid
      have word : isWord c = true := by
        by_contra other
        have dead : subdomain.step subdomain.start c = .dead := if_neg other
        rw [dead, evalFrom_dead] at valid
        cases valid
      simp [isAlphanum_of_isWord word]
  · rcases text.toList.eq_nil_or_concat' with nil | ⟨front, last, chars⟩
    · simp [nil]
    · rw [chars, DFA.eval_append_singleton] at valid
      obtain ⟨-, ⟨-, word⟩ | ⟨hyphen, -⟩ | ⟨start, -⟩⟩ := step_cases valid (by decide)
      · simp [chars, isAlphanum_of_isWord word]
      · cases hyphen
      · cases start

/-! Cutting a name. -/

/-- A name that is cut right after a dot. -/
theorem eval_take_eq_start {text : List Char} (valid : subdomain.eval text = .word) (n : Nat) :
    subdomain.eval (text.take (n + 1)) = .start ↔ text[n]? = some '.' := by
  cases here : text[n]? with
  | none =>
    have short : text.length ≤ n := List.getElem?_eq_none_iff.mp here
    rw [List.take_of_length_le (by omega), valid]
    simp
  | some c =>
    have cut : text.take (n + 1) = text.take n ++ [c] := by
      rw [List.take_add_one, here, Option.toList_some]
    have alive : subdomain.eval (text.take (n + 1)) ≠ .dead := by
      have whole : subdomain.evalFrom subdomain.start (text.take (n + 1) ++ text.drop (n + 1)) = .word := by
        rw [List.take_append_drop]
        exact valid
      exact alive_of_append (by rw [whole]; decide)
    rw [cut, DFA.eval_append_singleton, subdomain_step] at alive ⊢
    obtain ⟨-, ⟨now, word⟩ | ⟨now, rfl⟩ | ⟨now, rfl⟩⟩ := step_cases rfl alive
    · rw [now]
      have other : c ≠ '.' := by
        rintro rfl
        cases word
      simp [other]
    · rw [now]
      simp
    · rw [now]
      simp

theorem eval_rdropWhile {text : List Char} (alive : subdomain.eval text ≠ .dead) :
    subdomain.eval (text.rdropWhile (· = '-')) = if subdomain.eval text = .hyphen then .word else subdomain.eval text := by
  induction text using List.reverseRecOn with
  | nil => rfl
  | append_singleton front last ih =>
    by_cases hyphen : last = '-'
    · subst hyphen
      rw [List.rdropWhile_concat_pos _ _ _ (by simp), ih (alive_of_append alive)]
      rw [DFA.eval_append_singleton, subdomain_step, step_hyphen] at alive ⊢
      split at alive
      · rename_i either
        rcases either with word | again
        · simp [word]
        · simp [again]
      · exact absurd rfl alive
    · rw [List.rdropWhile_concat_neg _ _ _ (by simpa using hyphen), if_neg]
      rw [DFA.eval_append_singleton] at alive ⊢
      intro now
      obtain ⟨-, ⟨word, -⟩ | ⟨-, same⟩ | ⟨start, -⟩⟩ := step_cases now (by decide)
      · cases word
      · exact hyphen same
      · cases start

/-- An ending that a label can have: a hyphen first, a letter or digit last. -/
def IsEnding (ending : List Char) : Prop :=
  ∃ middle last, ending = '-' :: middle ++ [last] ∧ (∀ c ∈ middle, isWord c = true ∨ c = '-') ∧ isWord last = true

theorem evalFrom_middle {middle : List Char} (plain : ∀ c ∈ middle, isWord c = true ∨ c = '-') {place : Place}
    (inside : place = .word ∨ place = .hyphen) :
    subdomain.evalFrom place middle = .word ∨ subdomain.evalFrom place middle = .hyphen := by
  induction middle generalizing place with
  | nil => exact inside
  | cons c rest ih =>
    rw [DFA.evalFrom_cons]
    refine ih (fun other member => plain other (List.mem_cons_of_mem c member)) ?_
    have alive : place ≠ .dead := by rcases inside with rfl | rfl <;> decide
    rcases plain c List.mem_cons_self with word | rfl
    · exact Or.inl (step_word place word alive)
    · exact Or.inr ((step_hyphen place).trans (if_pos inside))

theorem evalFrom_ending {ending : List Char} (legal : IsEnding ending) (place : Place) :
    subdomain.evalFrom place ending = if place = .word ∨ place = .hyphen then .word else .dead := by
  obtain ⟨middle, last, rfl, plain, word⟩ := legal
  rw [List.cons_append, DFA.evalFrom_cons]
  rw [subdomain_step, step_hyphen]
  split
  · rw [DFA.evalFrom_append_singleton]
    refine step_word _ word ?_
    rcases evalFrom_middle plain (Or.inr rfl) with here | here <;> rw [here] <;> decide
  · exact evalFrom_dead _

/-- A name that is cut, stripped of hyphens and given an ending is legal unless the cut is right after a dot. -/
theorem eval_cut {text ending : List Char} (valid : subdomain.eval text = .word) (legal : IsEnding ending) (n : Nat) :
    subdomain.eval ((text.take (n + 1)).rdropWhile (· = '-') ++ ending) = .word ↔ text[n]? ≠ some '.' := by
  have alive : subdomain.eval (text.take (n + 1)) ≠ .dead := by
    have whole : subdomain.evalFrom subdomain.start (text.take (n + 1) ++ text.drop (n + 1)) = .word := by
      rw [List.take_append_drop]
      exact valid
    exact alive_of_append (by rw [whole]; decide)
  have dotted := eval_take_eq_start valid n
  have joined : subdomain.eval ((text.take (n + 1)).rdropWhile (· = '-') ++ ending) =
      subdomain.evalFrom (subdomain.eval ((text.take (n + 1)).rdropWhile (· = '-'))) ending :=
    DFA.evalFrom_of_append _ _ _ _
  rw [joined, eval_rdropWhile alive, evalFrom_ending legal, ne_eq, ← dotted]
  generalize subdomain.eval (text.take (n + 1)) = place at alive
  cases place with
  | start => simp
  | word => simp
  | hyphen => simp
  | dead => exact absurd rfl alive

end Dns1123
