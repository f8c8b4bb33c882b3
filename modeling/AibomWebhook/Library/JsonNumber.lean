import AibomWebhook.Library.Float64
import AibomWebhook.Library.JsonText
import Mathlib.Data.List.DropRight

/-! The numbers in JSON texts: the decimal that one stands for, the binary64 number
nearest to it, and how a binary64 number is written. -/

namespace JsonText
open Float64

/-! Reading. -/

/-- The digits as one number, without the point. -/
def Literal.significand (literal : Literal) : Nat :=
  Nat.ofDigitChars 10 (literal.whole ++ literal.fraction.getD []) 0

def Literal.scale (literal : Literal) : Int :=
  match literal.exponent with
  | none => 0
  | some (_, sign, digits) =>
    if sign = some '-' then -(Nat.ofDigitChars 10 digits 0 : Int) else Nat.ofDigitChars 10 digits 0

/-- The power of ten that the last digit counts. -/
def Literal.power (literal : Literal) : Int := literal.scale - (literal.fraction.getD []).length

def Literal.value (literal : Literal) : Rat := decimal literal.negative literal.significand literal.power

def Literal.float (literal : Literal) : Option Float64 :=
  ofDecimal literal.negative literal.significand literal.power

/-! Writing. -/

/-- The digits of a number up to the last one that is not a zero. -/
def significant (n : Nat) : List Char := (Nat.toDigits 10 n).rdropWhile (· = '0')

/-- A fraction of these digits, if there are any. -/
def fractionOf : List Char → Option (List Char)
  | [] => none
  | c :: rest => some (c :: rest)

/-- A decimal is written with an exponent when it is below 1e-6 or from 1e21 on. -/
def formatDecimal (negative : Bool) (n : Nat) (power : Int) : Literal :=
  let point : Int := (Nat.toDigits 10 n).length + power
  let found := significant n
  if n = 0 then { negative := negative, whole := ['0'], fraction := none, exponent := none }
  else if point < -5 ∨ 21 < point then
    { negative := negative
      whole := found.take 1
      fraction := fractionOf found.tail
      exponent := some ('e', some (if point < 1 then '-' else '+'), Nat.toDigits 10 (point - 1).natAbs) }
  else if point ≤ 0 then
    { negative := negative
      whole := ['0']
      fraction := some (List.replicate (-point).toNat '0' ++ found)
      exponent := none }
  else if point < found.length then
    { negative := negative
      whole := found.take point.toNat
      fraction := some (found.drop point.toNat)
      exponent := none }
  else
    { negative := negative
      whole := found ++ List.replicate (point - found.length).toNat '0'
      fraction := none
      exponent := none }

/-- A number as its shortest decimal. -/
def formatFloat (f : Float64) : Literal := formatDecimal f.negative f.shortest.1 f.shortest.2

/-! What is written stands for the number. -/

theorem isDigits_toDigits (n : Nat) : isDigits (Nat.toDigits 10 n) = true := by
  have each : ∀ c ∈ Nat.toDigits 10 n, c.isDigit = true := fun c member =>
    Nat.isDigit_of_mem_toDigits (by decide) (by decide) member
  simp only [isDigits, List.all_eq_true.mpr each, Bool.and_true, decide_eq_true_eq]
  exact Nat.toDigits_ne_nil

/-- The first digit of a positive number is no zero. -/
theorem toDigits_head {n : Nat} (positive : n ≠ 0) : (Nat.toDigits 10 n).head? ≠ some '0' := by
  induction n using Nat.strongRecOn with
  | ind n ih =>
    by_cases small : n < 10
    · have each : ∀ k < 10, k ≠ 0 → [k.digitChar].head? ≠ some '0' := by decide
      rw [Nat.toDigits_of_lt_base small]
      exact each n small positive
    · rw [Nat.toDigits_of_base_le (by decide) (Nat.le_of_not_lt small),
        List.head?_append_of_ne_nil _ Nat.toDigits_ne_nil]
      exact ih (n / 10) (by omega) (by omega)

/-- What is known of the digits that are written. -/
structure Significant (n : Nat) (first : Char) (rest : List Char) (zeros : Nat) : Prop where
  found : significant n = first :: rest
  nonzero : first ≠ '0'
  all : (first :: rest).all Char.isDigit = true
  padded : Nat.toDigits 10 n = first :: rest ++ List.replicate zeros '0'

theorem significant_cons {n : Nat} (positive : n ≠ 0) : ∃ first rest zeros, Significant n first rest zeros := by
  let ends := (Nat.toDigits 10 n).rtakeWhile (· = '0')
  have whole : significant n ++ ends = Nat.toDigits 10 n := List.rdropWhile_append_rtakeWhile
  have zeros : ends = List.replicate ends.length '0' :=
    List.eq_replicate_of_mem fun c member =>
      of_decide_eq_true (@List.mem_rtakeWhile_imp _ (fun c => decide (c = '0')) _ c member)
  have digits := isDigits_toDigits n
  simp only [isDigits, Bool.and_eq_true, List.all_eq_true] at digits
  cases found : significant n with
  | nil =>
    have first := toDigits_head positive
    rw [← whole, found, List.nil_append, zeros] at first
    cases length : ends.length with
    | zero =>
      rw [found, zeros, length] at whole
      exact absurd whole.symm Nat.toDigits_ne_nil
    | succ k =>
      rw [length, List.replicate_succ] at first
      exact absurd rfl first
  | cons first rest =>
    have padded : Nat.toDigits 10 n = first :: rest ++ List.replicate ends.length '0' := by
      rw [← zeros, ← found, whole]
    refine ⟨first, rest, ends.length, found, ?_, ?_, padded⟩
    · rintro rfl
      have head := toDigits_head positive
      rw [padded] at head
      exact head rfl
    · rw [List.all_eq_true]
      intro c member
      exact digits.2 c (padded ▸ List.mem_append_left _ member)

theorem Significant.value {n zeros : Nat} {first : Char} {rest : List Char} (known : Significant n first rest zeros)
    (power : Int) : SameDecimal (Nat.ofDigitChars 10 (first :: rest) 0, power + zeros) (n, power) := by
  have number : n = Nat.ofDigitChars 10 (first :: rest) 0 * 10 ^ zeros := by
    have read := congrArg (fun text => Nat.ofDigitChars 10 text 0) known.padded
    simp only [Nat.ofDigitChars_ten_toDigits, Nat.ofDigitChars_append, Nat.ofDigitChars_replicate_zero] at read
    rw [read, Nat.mul_comm]
  have scaled := sameDecimal_scale (Nat.ofDigitChars 10 (first :: rest) 0) zeros power
  rw [← number] at scaled
  exact scaled.symm

theorem getD_fractionOf (digits : List Char) : (fractionOf digits).getD [] = digits := by
  cases digits <;> rfl

theorem formatDecimal_same (negative : Bool) (n : Nat) (power : Int) :
    SameDecimal ((formatDecimal negative n power).significand, (formatDecimal negative n power).power) (n, power) := by
  by_cases zero : n = 0
  · subst zero
    exact sameDecimal_zero _ _
  · obtain ⟨first, rest, zeros, known⟩ := significant_cons zero
    have length : (Nat.toDigits 10 n).length = rest.length + 1 + zeros := by
      rw [known.padded, List.length_append, List.length_cons, List.length_replicate]
    have value := known.value power
    have exactly {literal : Literal} (digits : literal.significand = Nat.ofDigitChars 10 (first :: rest) 0)
        (scale : literal.power = power + zeros) : SameDecimal (literal.significand, literal.power) (n, power) := by
      rw [digits, scale]
      exact value
    simp only [formatDecimal, if_neg zero, known.found, length]
    split
    · refine exactly ?_ ?_
      · simp only [Literal.significand, List.tail_cons, getD_fractionOf]
        rfl
      · simp only [Literal.power, Literal.scale, List.tail_cons, getD_fractionOf, Nat.ofDigitChars_ten_toDigits]
        by_cases small : ((rest.length + 1 + zeros : Nat) : Int) + power < 1
        · rw [if_pos small, if_pos rfl]
          omega
        · rw [if_neg small, if_neg (by decide)]
          omega
    · split
      · refine exactly ?_ ?_
        · simp [Literal.significand, Nat.ofDigitChars_cons, Nat.ofDigitChars_append]
        · simp only [Literal.power, Literal.scale, Option.getD_some, List.length_append, List.length_replicate,
            List.length_cons]
          omega
      · split
        · refine exactly ?_ ?_
          · simp only [Literal.significand, Option.getD_some, List.take_append_drop]
          · rename_i short
            simp only [Literal.power, Literal.scale, Option.getD_some, List.length_drop]
            simp only [List.length_cons] at short ⊢
            omega
        · rename_i long
          have scaled := sameDecimal_scale (Nat.ofDigitChars 10 (first :: rest) 0)
            ((rest.length + 1 + zeros : Nat) + power - (first :: rest).length).toNat 0
          refine SameDecimal.trans ?_ value
          simp only [Literal.significand, Literal.power, Literal.scale, Option.getD_none, List.append_nil,
            Nat.ofDigitChars_append, Nat.ofDigitChars_replicate_zero, List.length_nil]
          simp only [List.length_cons] at long scaled ⊢
          have places : 0 + ((((rest.length + 1 + zeros : Nat) + power - (rest.length + 1 : Nat)).toNat : Nat) : Int) =
              power + zeros := by omega
          rw [places] at scaled
          rw [Nat.mul_comm]
          exact scaled

theorem formatDecimal_negative (negative : Bool) (n : Nat) (power : Int) :
    (formatDecimal negative n power).negative = negative := by
  simp only [formatDecimal]
  split
  · rfl
  · split
    · rfl
    · split
      · rfl
      · split <;> rfl

/-- A number is read back from its shortest decimal. -/
theorem float_formatFloat (f : Float64) : (formatFloat f).float = some f := by
  rw [Literal.float, formatFloat, formatDecimal_negative,
    ofDecimal_congr (formatDecimal_same f.negative f.shortest.1 f.shortest.2) f.negative]
  exact ofDecimal_shortest f

theorem value_formatFloat (f : Float64) : (formatFloat f).value = f.written := by
  rw [Literal.value, formatFloat, formatDecimal_negative]
  exact decimal_congr (formatDecimal_same f.negative f.shortest.1 f.shortest.2) f.negative

/-! What is written is legal. -/

theorem isDigits_cons {c : Char} {rest : List Char} : isDigits (c :: rest) = (c.isDigit && rest.all Char.isDigit) := by
  simp [isDigits]

theorem isDigits_fractionOf {digits : List Char} (all : digits.all Char.isDigit = true) :
    (fractionOf digits).all isDigits = true := by
  cases digits with
  | nil => rfl
  | cons c rest => simpa [fractionOf, isDigits_cons] using all

theorem all_replicate_zero (n : Nat) : (List.replicate n '0').all Char.isDigit = true :=
  List.all_eq_true.mpr fun c member => by rw [List.eq_of_mem_replicate member]; decide

theorem formatDecimal_legal (negative : Bool) (n : Nat) (power : Int) :
    (formatDecimal negative n power).legal = true := by
  by_cases zero : n = 0
  · subst zero
    rfl
  · obtain ⟨first, rest, zeros, known⟩ := significant_cons zero
    obtain ⟨digit, digits⟩ : first.isDigit = true ∧ rest.all Char.isDigit = true := by
      simpa only [List.all_cons, Bool.and_eq_true] using known.all
    have nonzero := known.nonzero
    simp only [formatDecimal, if_neg zero, known.found]
    split
    · have sign : (some (if ((Nat.toDigits 10 n).length : Int) + power < 1 then '-' else '+')).all
          (fun c => c = '+' || c = '-') = true := by
        split <;> rfl
      simp [Literal.legal, isDigits_cons, digit, isDigits_fractionOf digits, isDigits_toDigits, sign]
    · split
      · have padded (k : Nat) : isDigits (List.replicate k '0' ++ first :: rest) = true := by
          simp only [isDigits, List.all_append, all_replicate_zero, List.all_cons, digit, digits]
          simp
        simp [Literal.legal, padded, isDigits_cons]
      · split
        · rename_i above short
          obtain ⟨k, point⟩ : ∃ k, (((Nat.toDigits 10 n).length : Int) + power).toNat = k + 1 :=
            ⟨(((Nat.toDigits 10 n).length : Int) + power).toNat - 1, by omega⟩
          have some_ : rest.drop k ≠ [] := by
            rw [Ne, List.drop_eq_nil_iff]
            simp only [List.length_cons] at short
            omega
          have left : (rest.take k).all Char.isDigit = true :=
            List.all_eq_true.mpr fun c member => List.all_eq_true.mp digits c (List.mem_of_mem_take member)
          have right : isDigits (rest.drop k) = true := by
            simp only [isDigits, Bool.and_eq_true, decide_eq_true_eq]
            exact ⟨some_, List.all_eq_true.mpr fun c member => List.all_eq_true.mp digits c (List.mem_of_mem_drop member)⟩
          simp [Literal.legal, point, isDigits_cons, digit, left, right, nonzero]
        · simp [Literal.legal, isDigits_cons, digit, digits, nonzero]

theorem formatFloat_legal (f : Float64) : (formatFloat f).legal = true := formatDecimal_legal _ _ _

end JsonText
