import Mathlib.Algebra.Ring.Int.Defs
import Mathlib.Algebra.Ring.Nat
import Mathlib.Tactic.Common
import Mathlib.Data.List.DropRight

/-! The functions of Go's `strings` and `strconv` packages, on strings read as
lists of characters. -/

namespace GoText

def truncate (length : Nat) (text : String) : String := String.ofList (text.toList.take length)

def trimRight (cut : Char) (text : String) : String := String.ofList (text.toList.rdropWhile (· = cut))

def trim (cut : Char) (text : String) : String :=
  String.ofList ((text.toList.dropWhile (· = cut)).rdropWhile (· = cut))

def hasPrefix (start text : String) : Bool := start.toList.isPrefixOf text.toList

def cutPrefix (start text : String) : Option String :=
  if hasPrefix start text then some (String.ofList (text.toList.drop start.length)) else none

/-- What stands before and after the first separator, all of it before one that is missing. -/
def cut (separator : Char) (text : String) : String × String :=
  (String.ofList (text.toList.takeWhile (· ≠ separator)),
    String.ofList ((text.toList.dropWhile (· ≠ separator)).drop 1))

def splitChars (separator : Char) : List Char → List (List Char)
  | [] => [[]]
  | c :: rest =>
    if c = separator then [] :: splitChars separator rest
    else (c :: (splitChars separator rest).headD []) :: (splitChars separator rest).tail

def split (separator : Char) (text : String) : List String :=
  (splitChars separator text.toList).map String.ofList

def digits (text : List Char) : Option Nat :=
  if text ≠ [] ∧ text.all Char.isDigit then some (Nat.ofDigitChars 10 text 0) else none

/-- A decimal integer with an optional sign, in the range of 64 bits. -/
def atoi (text : String) : Option Int :=
  match text.toList with
  | '-' :: rest => (digits rest).bind fun n => if n ≤ 2 ^ 63 then some (-(n : Int)) else none
  | '+' :: rest => (digits rest).bind fun n => if n < 2 ^ 63 then some (n : Int) else none
  | rest => (digits rest).bind fun n => if n < 2 ^ 63 then some (n : Int) else none

/-- What a 64-bit int holds of a number. -/
def int64 (n : Int) : Int := n.bmod (2 ^ 64)

theorem int64_range (n : Int) : -(2 ^ 63) ≤ int64 n ∧ int64 n < 2 ^ 63 := by
  have low : -(2 ^ 63) ≤ int64 n := Int.le_bmod (by decide)
  have high : int64 n < 2 ^ 63 := Int.bmod_lt (by decide)
  exact ⟨low, high⟩

theorem int64_eq {n : Int} (low : -(2 ^ 63) ≤ n) (high : n < 2 ^ 63) : int64 n = n :=
  Int.bmod_eq_of_le (by omega) (by omega)

theorem digits_repr (n : Nat) : digits n.repr.toList = some n := by
  have all : (Nat.toDigits 10 n).all Char.isDigit = true := List.all_eq_true.mpr fun c member =>
    Nat.isDigit_of_mem_toDigits (by decide) (by decide) member
  rw [digits, Nat.toList_repr, if_pos ⟨Nat.toDigits_ne_nil, all⟩, Nat.ofDigitChars_ten_toDigits]

theorem atoi_repr {n : Nat} (range : n < 2 ^ 63) : atoi n.repr = some (n : Int) := by
  have value := digits_repr n
  have unsigned : ∀ c rest, n.repr.toList = c :: rest → c.isDigit = true := by
    intro c rest first
    rw [Nat.toList_repr] at first
    exact Nat.isDigit_of_mem_toDigits (by decide) (by decide) (first ▸ List.mem_cons_self)
  unfold atoi
  split
  · rename_i rest first
    exact absurd (unsigned _ _ first) (by decide)
  · rename_i rest first
    exact absurd (unsigned _ _ first) (by decide)
  · rw [value, Option.bind_some, if_pos range]

theorem atoi_toString {n : Int} (low : -(2 ^ 63) ≤ n) (high : n < 2 ^ 63) : atoi (toString n) = some n := by
  cases n with
  | ofNat n =>
    have text : toString (Int.ofNat n) = n.repr := rfl
    have range : n < 2 ^ 63 := by simp only [Int.ofNat_eq_natCast] at high; omega
    rw [text, atoi_repr range]
    rfl
  | negSucc n =>
    have text : (toString (Int.negSucc n)).toList = '-' :: (n + 1).repr.toList := by
      have split : toString (Int.negSucc n) = "-" ++ (n + 1).repr := rfl
      rw [split, String.toList_append]
      rfl
    have range : n + 1 ≤ 2 ^ 63 := by omega
    simp only [atoi, text, digits_repr, Option.bind_some, if_pos range]
    rfl

theorem atoi_range {text : String} {n : Int} (value : atoi text = some n) : -(2 ^ 63) ≤ n ∧ n < 2 ^ 63 := by
  unfold atoi at value
  split at value <;>
    · obtain ⟨digit, _, bounded⟩ := Option.bind_eq_some_iff.mp value
      split at bounded
      · obtain rfl := Option.some.inj bounded
        omega
      · exact absurd bounded (by simp)

theorem rdropWhile_append_replicate (stem : List Char) (cut : Char) (count : Nat) :
    (stem ++ List.replicate count cut).rdropWhile (· = cut) = stem.rdropWhile (· = cut) := by
  induction count with
  | zero => simp
  | succ n ih => rw [List.replicate_succ', ← List.append_assoc, List.rdropWhile_concat_pos _ _ _ (by simp), ih]

theorem exists_rdropWhile_append (cut : Char) (text : List Char) :
    ∃ count, text = text.rdropWhile (· = cut) ++ List.replicate count cut := by
  induction text using List.reverseRecOn with
  | nil => exact ⟨0, rfl⟩
  | append_singleton stem last ih =>
    by_cases same : last = cut
    · obtain ⟨count, split⟩ := ih
      refine ⟨count + 1, ?_⟩
      rw [List.rdropWhile_concat_pos _ _ _ (by simpa using same), List.replicate_succ', ← List.append_assoc,
        ← split, same]
    · refine ⟨0, ?_⟩
      rw [List.rdropWhile_concat_neg _ _ _ (by simpa using same)]
      simp

/-- Two texts have one trimmed form exactly when they extend one stem by the trimmed character. -/
theorem rdropWhile_eq_iff (cut : Char) (first second : List Char) :
    first.rdropWhile (· = cut) = second.rdropWhile (· = cut) ↔
      ∃ stem m n, first = stem ++ List.replicate m cut ∧ second = stem ++ List.replicate n cut := by
  constructor
  · intro same
    obtain ⟨m, left⟩ := exists_rdropWhile_append cut first
    obtain ⟨n, right⟩ := exists_rdropWhile_append cut second
    exact ⟨_, m, n, left, same ▸ right⟩
  · rintro ⟨stem, m, n, rfl, rfl⟩
    rw [rdropWhile_append_replicate, rdropWhile_append_replicate]

theorem length_rdropWhile_le (cut : Char) (text : List Char) :
    (text.rdropWhile (· = cut)).length ≤ text.length := 
  List.IsPrefix.length_le (List.rdropWhile_prefix _ text)

end GoText
