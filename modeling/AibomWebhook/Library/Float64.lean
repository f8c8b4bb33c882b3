import Mathlib.Tactic.Common
import Mathlib.Algebra.Order.Ring.Nat

/-! The finite binary64 numbers, as multiples of 2 ^ -1074: the one nearest to a
quotient, and the shortest decimal that is read back as a given one. -/

/-- The number `mantissa * 2 ^ exponent / 2 ^ 1074`. -/
structure Float64 where
  negative : Bool
  mantissa : Nat
  exponent : Nat
  small : mantissa < 2 ^ 53
  normal : exponent = 0 ∨ 2 ^ 52 ≤ mantissa
  finite : exponent ≤ 2045
  deriving DecidableEq

namespace Float64

/-- The smallest positive number is `2 ^ -1074`. -/
@[irreducible] def bias : Nat := 1074

/-! Rounding. -/

/-- The quotient, rounded to the nearest number and to the even one of two. -/
def halfEven (p q : Nat) : Nat :=
  if 2 * (p % q) < q ∨ 2 * (p % q) = q ∧ p / q % 2 = 0 then p / q else p / q + 1

theorem halfEven_mul {q : Nat} (positive : 0 < q) (n : Nat) : halfEven (q * n) q = n := by
  rw [halfEven, Nat.mul_mod_right, Nat.mul_div_cancel_left n positive]
  simp [positive]

/-- The first exponent whose mantissas reach a number of units. -/
def exponentOf (units : Nat) : Nat := units.log2 - 52

/-- Rounding may carry into the next exponent. -/
def ofMantissa (negative : Bool) (mantissa exponent : Nat) : Option Float64 :=
  let carried := if mantissa = 2 ^ 53 then (2 ^ 52, exponent + 1) else (mantissa, exponent)
  if valid : carried.1 < 2 ^ 53 ∧ (carried.2 = 0 ∨ 2 ^ 52 ≤ carried.1) ∧ carried.2 ≤ 2045 then
    some { negative := negative, mantissa := carried.1, exponent := carried.2
           small := valid.1, normal := valid.2.1, finite := valid.2.2 }
  else none

/-- The number nearest to `p / q`, unless that is too large for any. -/
def nearest (negative : Bool) (p q : Nat) : Option Float64 :=
  let exponent := exponentOf (2 ^ bias * p / q)
  ofMantissa negative (halfEven (2 ^ bias * p) (q * 2 ^ exponent)) exponent

theorem ofMantissa_self (f : Float64) : ofMantissa f.negative f.mantissa f.exponent = some f := by
  have small : f.mantissa ≠ 2 ^ 53 := Nat.ne_of_lt f.small
  simp only [ofMantissa, if_neg small]
  rw [dif_pos ⟨f.small, f.normal, f.finite⟩]

theorem exponentOf_exact (f : Float64) : exponentOf (f.mantissa * 2 ^ f.exponent) = f.exponent := by
  unfold exponentOf
  by_cases zero : f.exponent = 0
  · have low : f.mantissa.log2 ≤ 52 := by
      by_cases empty : f.mantissa = 0
      · rw [empty]
        decide
      · exact Nat.le_of_lt_succ ((Nat.log2_lt empty).mpr f.small)
    rw [zero, Nat.pow_zero, Nat.mul_one]
    exact Nat.sub_eq_zero_of_le low
  · have normal : 2 ^ 52 ≤ f.mantissa := f.normal.resolve_left zero
    have lower : 2 ^ (52 + f.exponent) ≤ f.mantissa * 2 ^ f.exponent :=
      Nat.pow_add 2 52 f.exponent ▸ Nat.mul_le_mul_right _ normal
    have upper : f.mantissa * 2 ^ f.exponent < 2 ^ (52 + f.exponent + 1) := by
      have exponents : 52 + f.exponent + 1 = 53 + f.exponent := by omega
      rw [exponents, Nat.pow_add]
      exact Nat.mul_lt_mul_of_pos_right f.small (Nat.two_pow_pos _)
    have positive : f.mantissa * 2 ^ f.exponent ≠ 0 :=
      Nat.ne_of_gt (Nat.lt_of_lt_of_le (Nat.two_pow_pos _) lower)
    rw [(Nat.log2_eq_iff positive).mpr ⟨lower, upper⟩]
    exact Nat.add_sub_cancel_left 52 f.exponent

/-- A quotient that is a number is rounded to itself. -/
theorem nearest_exact (f : Float64) {p q : Nat} (positive : 0 < q)
    (exact_ : 2 ^ bias * p = q * (f.mantissa * 2 ^ f.exponent)) : nearest f.negative p q = some f := by
  have exponent : exponentOf (2 ^ bias * p / q) = f.exponent := by
    rw [exact_, Nat.mul_div_cancel_left _ positive, exponentOf_exact]
  have rounded : halfEven (2 ^ bias * p) (q * 2 ^ f.exponent) = f.mantissa := by
    have product : q * (f.mantissa * 2 ^ f.exponent) = q * 2 ^ f.exponent * f.mantissa := by
      rw [Nat.mul_comm f.mantissa, Nat.mul_assoc]
    rw [exact_, product]
    exact halfEven_mul (Nat.mul_pos positive (Nat.two_pow_pos _)) f.mantissa
  simp only [nearest, exponent, rounded]
  exact ofMantissa_self f

theorem halfEven_mul_right {c : Nat} (positive : 0 < c) (p q : Nat) : halfEven (p * c) (q * c) = halfEven p q := by
  have left : 2 * (p % q * c) < q * c ↔ 2 * (p % q) < q := by
    rw [← Nat.mul_assoc]
    exact Nat.mul_lt_mul_right positive
  have middle : 2 * (p % q * c) = q * c ↔ 2 * (p % q) = q := by
    rw [← Nat.mul_assoc]
    exact Nat.mul_left_inj (Nat.ne_of_gt positive)
  simp only [halfEven, Nat.mul_mod_mul_right, Nat.mul_div_mul_right p q positive, left, middle]

theorem nearest_mul_right {c : Nat} (positive : 0 < c) (negative : Bool) (p q : Nat) :
    nearest negative (p * c) (q * c) = nearest negative p q := by
  have units : 2 ^ bias * (p * c) / (q * c) = 2 ^ bias * p / q := by
    rw [← Nat.mul_assoc, Nat.mul_div_mul_right _ q positive]
  have scale (e : Nat) : halfEven (2 ^ bias * (p * c)) (q * c * 2 ^ e) = halfEven (2 ^ bias * p) (q * 2 ^ e) := by
    rw [← Nat.mul_assoc, Nat.mul_right_comm q c, halfEven_mul_right positive]
  simp only [nearest, units, scale]

/-- Only the quotient matters. -/
theorem nearest_congr {p q r s : Nat} (positive : 0 < q) (other : 0 < s) (same : p * s = r * q) (negative : Bool) :
    nearest negative p q = nearest negative r s := by
  rw [← nearest_mul_right other negative p q, same, Nat.mul_comm q s, nearest_mul_right positive]

/-! Decimals. -/

/-- The two decimals, digits with a power of ten, are one number. -/
def SameDecimal (one other : Nat × Int) : Prop :=
  one.1 * 10 ^ one.2.toNat * 10 ^ (-other.2).toNat = other.1 * 10 ^ other.2.toNat * 10 ^ (-one.2).toNat

theorem sameDecimal_zero (power other : Int) : SameDecimal (0, power) (0, other) := by
  simp [SameDecimal]

theorem SameDecimal.symm {one other : Nat × Int} (same : SameDecimal one other) : SameDecimal other one := Eq.symm same

theorem SameDecimal.trans {one two three : Nat × Int} (first : SameDecimal one two) (second : SameDecimal two three) :
    SameDecimal one three := by
  have positive : 0 < 10 ^ (-two.2).toNat := Nat.pow_pos (by decide)
  refine Nat.eq_of_mul_eq_mul_right positive ?_
  calc one.1 * 10 ^ one.2.toNat * 10 ^ (-three.2).toNat * 10 ^ (-two.2).toNat
      = one.1 * 10 ^ one.2.toNat * 10 ^ (-two.2).toNat * 10 ^ (-three.2).toNat := Nat.mul_right_comm _ _ _
    _ = two.1 * 10 ^ two.2.toNat * 10 ^ (-one.2).toNat * 10 ^ (-three.2).toNat := by rw [first]
    _ = two.1 * 10 ^ two.2.toNat * 10 ^ (-three.2).toNat * 10 ^ (-one.2).toNat := Nat.mul_right_comm _ _ _
    _ = three.1 * 10 ^ three.2.toNat * 10 ^ (-two.2).toNat * 10 ^ (-one.2).toNat := by rw [second]
    _ = three.1 * 10 ^ three.2.toNat * 10 ^ (-one.2).toNat * 10 ^ (-two.2).toNat := Nat.mul_right_comm _ _ _

/-- Trailing zeros go into the power. -/
theorem sameDecimal_scale (digits k : Nat) (power : Int) : SameDecimal (digits * 10 ^ k, power) (digits, power + k) := by
  have powers : k + power.toNat + (-(power + k)).toNat = (power + k).toNat + (-power).toNat := by omega
  simp only [SameDecimal, Nat.mul_assoc, ← Nat.pow_add]
  rw [powers]

/-- The number nearest to `digits * 10 ^ power`. -/
def ofDecimal (negative : Bool) (digits : Nat) (power : Int) : Option Float64 :=
  nearest negative (digits * 10 ^ power.toNat) (10 ^ (-power).toNat)

/-- Beyond the powers of ten that are ever needed. -/
@[irreducible] def pad : Nat := 400

/-- How many decimal digits a number has before the point, plus `pad`. -/
def places (f : Float64) : Nat :=
  (Nat.toDigits 10 (10 ^ pad * (f.mantissa * 2 ^ f.exponent) / 2 ^ bias)).length

/-- A decimal of so many digits that is read back as the number, the nearer one if there are two. -/
def withDigits (f : Float64) (count : Nat) : Option (Nat × Int) :=
  let power : Int := f.places - pad - count
  let p := 10 ^ pad * (f.mantissa * 2 ^ f.exponent)
  let q := 2 ^ bias * 10 ^ (power + pad).toNat
  let low := p / q
  let candidates := if halfEven p q = low then [low, low + 1] else [low + 1, low]
  (candidates.find? fun digits => ofDecimal f.negative digits power = some f).map fun digits => (digits, power)

/-- The shortest decimal that is read back as the number: 17 digits always suffice. -/
def shortest (f : Float64) : Nat × Int :=
  ((List.range 17).findSome? fun n => f.withDigits (n + 1)).getD (5 ^ bias * (f.mantissa * 2 ^ f.exponent), -bias)

theorem ofDecimal_congr {one other : Nat × Int} (same : SameDecimal one other) (negative : Bool) :
    ofDecimal negative one.1 one.2 = ofDecimal negative other.1 other.2 :=
  nearest_congr (Nat.pow_pos (by decide)) (Nat.pow_pos (by decide)) same negative

theorem ofDecimal_withDigits {f : Float64} {count : Nat} {decimal : Nat × Int}
    (found : f.withDigits count = some decimal) : ofDecimal f.negative decimal.1 decimal.2 = some f := by
  simp only [withDigits, Option.map_eq_some_iff] at found
  obtain ⟨digits, member, rfl⟩ := found
  have fits := List.find?_some member
  exact of_decide_eq_true fits

theorem ofDecimal_shortest (f : Float64) : ofDecimal f.negative f.shortest.1 f.shortest.2 = some f := by
  unfold shortest
  cases found : (List.range 17).findSome? fun n => f.withDigits (n + 1) with
  | some decimal =>
    obtain ⟨n, _, fits⟩ := List.exists_of_findSome?_eq_some found
    exact ofDecimal_withDigits fits
  | none =>
    have tens : (10 : Nat) ^ bias = 2 ^ bias * 5 ^ bias := by rw [← Nat.mul_pow]
    have whole : (-(bias : Int)).toNat = 0 := Int.toNat_of_nonpos (Int.neg_nonpos_of_nonneg (Int.natCast_nonneg bias))
    have fraction : (-(-(bias : Int))).toNat = bias := by rw [Int.neg_neg, Int.toNat_natCast]
    rw [Option.getD_none, ofDecimal, whole, fraction]
    refine nearest_exact f (Nat.pow_pos (by decide)) ?_
    rw [tens, Nat.pow_zero, Nat.mul_one, ← Nat.mul_assoc]

/-- The decimal number, with its sign. -/
def decimal (negative : Bool) (digits : Nat) (power : Int) : Rat :=
  mkRat ((if negative then -1 else 1) * (digits * 10 ^ power.toNat : Nat)) (10 ^ (-power).toNat)

/-- The decimal that a number is written as. -/
def written (f : Float64) : Rat := decimal f.negative f.shortest.1 f.shortest.2

/-! The numbers that decimals write. -/

theorem powers_pos (power : Int) : 0 < 10 ^ power.toNat := Nat.pow_pos (by decide)

theorem decimal_congr {one other : Nat × Int} (same : SameDecimal one other) (negative : Bool) :
    decimal negative one.1 one.2 = decimal negative other.1 other.2 := by
  rw [decimal, decimal, Rat.mkRat_eq_iff (powers_pos _).ne' (powers_pos _).ne', Int.mul_assoc, Int.mul_assoc]
  refine congrArg _ ?_
  exact_mod_cast same

/-- Decimals of one sign that are one number. -/
theorem sameDecimal_of_decimal {negative : Bool} {one other : Nat × Int}
    (same : decimal negative one.1 one.2 = decimal negative other.1 other.2) : SameDecimal one other := by
  rw [decimal, decimal, Rat.mkRat_eq_iff (powers_pos _).ne' (powers_pos _).ne', Int.mul_assoc, Int.mul_assoc] at same
  have sign : (if negative then -1 else 1 : Int) ≠ 0 := by split <;> decide
  exact_mod_cast Int.eq_of_mul_eq_mul_left sign same

/-- Decimals of two signs that are one number are zero. -/
theorem zero_of_decimal {negative : Bool} {one other : Nat × Int}
    (same : decimal negative one.1 one.2 = decimal (!negative) other.1 other.2) : one.1 = 0 ∧ other.1 = 0 := by
  rw [decimal, decimal, Rat.mkRat_eq_iff (powers_pos _).ne' (powers_pos _).ne', Int.mul_assoc, Int.mul_assoc,
    ← Int.natCast_mul, ← Int.natCast_mul] at same
  have sum : one.1 * 10 ^ one.2.toNat * 10 ^ (-other.2).toNat + other.1 * 10 ^ other.2.toNat * 10 ^ (-one.2).toNat = 0 := by
    cases negative <;> simp only [Bool.not_true, Bool.not_false, if_true, if_false, Bool.false_eq_true] at same <;> omega
  rw [Nat.add_eq_zero_iff] at sum
  have zero {n k m : Nat} (k_pos : 0 < k) (m_pos : 0 < m) (product : n * k * m = 0) : n = 0 :=
    (Nat.mul_eq_zero.mp ((Nat.mul_eq_zero.mp product).resolve_right m_pos.ne')).resolve_right k_pos.ne'
  exact ⟨zero (powers_pos _) (powers_pos _) sum.1, zero (powers_pos _) (powers_pos _) sum.2⟩

/-- The two zeros. -/
def zero (negative : Bool) : Float64 :=
  { negative := negative, mantissa := 0, exponent := 0
    small := Nat.two_pow_pos 53, normal := Or.inl rfl, finite := Nat.zero_le 2045 }

theorem ofDecimal_zero (negative : Bool) (power : Int) : ofDecimal negative 0 power = some (zero negative) :=
  nearest_exact (zero negative) (powers_pos _) (by simp [zero])

theorem shortest_zero (negative : Bool) : (zero negative).shortest.1 = 0 := by
  have found : ∃ power, (zero negative).withDigits 1 = some (0, power) := by
    have low (q : Nat) : halfEven 0 q = 0 := by
      rcases Nat.eq_zero_or_pos q with rfl | positive
      · rfl
      · exact halfEven_mul positive 0
    have none_ : (zero negative).mantissa = 0 := rfl
    refine ⟨(zero negative).places - pad - (1 : Nat), ?_⟩
    simp only [withDigits, none_, Nat.zero_mul, Nat.mul_zero, Nat.zero_div, low, if_true]
    rw [List.find?_cons_of_pos (by rw [ofDecimal_zero]; exact decide_eq_true rfl)]
    rfl
  obtain ⟨power, found⟩ := found
  have range : List.range 17 = 0 :: (List.range 16).map (· + 1) := by decide
  rw [shortest, range, List.findSome?_cons, Nat.zero_add, found]
  rfl

theorem decimal_zero (negative : Bool) (power : Int) : decimal negative 0 power = 0 := by simp [decimal]

theorem written_zero (negative : Bool) : (zero negative).written = 0 := by
  rw [written, shortest_zero, decimal_zero]

/-- A decimal that some number is written as is read as a number that is written so. -/
theorem written_ofDecimal {f : Float64} {negative : Bool} {digits : Nat} {power : Int}
    (same : f.written = decimal negative digits power) :
    ∃ g, ofDecimal negative digits power = some g ∧ g.written = decimal negative digits power := by
  by_cases sign : f.negative = negative
  · subst sign
    have read := ofDecimal_congr (@sameDecimal_of_decimal f.negative f.shortest (digits, power) same) f.negative
    exact ⟨f, read.symm.trans (ofDecimal_shortest f), same⟩
  · have other : f.negative = !negative := by
      cases h : f.negative <;> cases negative <;> simp_all
    rw [written, other] at same
    obtain rfl : digits = 0 := (@zero_of_decimal negative (digits, power) f.shortest same.symm).1
    refine ⟨zero negative, ofDecimal_zero negative power, ?_⟩
    rw [written_zero, decimal_zero]

/-! Small integers. -/

/-- The number is so large an integer. -/
def IsInteger (f : Float64) (n : Nat) : Prop := f.mantissa * 2 ^ f.exponent = n * 2 ^ bias

theorem exists_isInteger (negative : Bool) {n : Nat} (small : n < 2 ^ 53) :
    ∃ f : Float64, f.negative = negative ∧ f.IsInteger n := by
  by_cases none_ : n = 0
  · subst none_
    exact ⟨zero negative, rfl, (Nat.zero_mul _).trans (Nat.zero_mul _).symm⟩
  have bits : n.log2 ≤ 52 := Nat.le_of_lt_succ ((Nat.log2_lt none_).mpr small)
  have bias_eq : bias = 1074 := by unfold bias; rfl
  have powers : n.log2 + (52 - n.log2) = 52 := by omega
  have below : n * 2 ^ (52 - n.log2) < 2 ^ 53 :=
    calc n * 2 ^ (52 - n.log2) < 2 ^ (n.log2 + 1) * 2 ^ (52 - n.log2) :=
          Nat.mul_lt_mul_of_pos_right Nat.lt_log2_self (Nat.two_pow_pos _)
      _ = 2 ^ 53 := by rw [← Nat.pow_add, Nat.add_right_comm, powers]
  have normal : 2 ^ 52 ≤ n * 2 ^ (52 - n.log2) :=
    calc 2 ^ 52 = 2 ^ n.log2 * 2 ^ (52 - n.log2) := by rw [← Nat.pow_add, powers]
      _ ≤ n * 2 ^ (52 - n.log2) := Nat.mul_le_mul_right _ (Nat.log2_self_le none_)
  have sum : 52 - n.log2 + (bias - (52 - n.log2)) = bias := by omega
  refine ⟨{ negative := negative, mantissa := n * 2 ^ (52 - n.log2), exponent := bias - (52 - n.log2)
            small := below, normal := Or.inr normal, finite := by omega }, rfl, ?_⟩
  rw [IsInteger, Nat.mul_assoc, ← Nat.pow_add, sum]

theorem IsInteger.nearest {f : Float64} {n : Nat} (integer : f.IsInteger n) : nearest f.negative n 1 = some f :=
  nearest_exact f Nat.one_pos (by rw [Nat.one_mul, integer, Nat.mul_comm])

theorem le_exponent_of_ofMantissa {negative : Bool} {mantissa exponent : Nat} {f : Float64}
    (built : ofMantissa negative mantissa exponent = some f) : exponent ≤ f.exponent := by
  have carried : exponent ≤ (if mantissa = 2 ^ 53 then (2 ^ 52, exponent + 1) else (mantissa, exponent)).2 := by
    split
    · exact Nat.le_succ exponent
    · exact Nat.le_refl exponent
  rw [ofMantissa] at built
  obtain ⟨_, made⟩ := Option.dite_none_right_eq_some.mp built
  rw [← Option.some.inj made]
  exact carried

/-- Only the integer itself is rounded to a small one. -/
theorem IsInteger.eq_of_nearest {f : Float64} {n x : Nat} (integer : f.IsInteger n) (small : n < 2 ^ 53)
    (read : Float64.nearest f.negative x 1 = some f) : x = n := by
  by_cases below : x < 2 ^ 53
  · obtain ⟨g, sign, other⟩ := exists_isInteger f.negative below
    have found := other.nearest
    rw [sign, read] at found
    obtain rfl := Option.some.inj found
    exact Nat.eq_of_mul_eq_mul_right (Nat.two_pow_pos bias) (other.symm.trans integer)
  · have large : 2 ^ (bias + 53) ≤ 2 ^ bias * x := by
      rw [Nat.pow_add]
      exact Nat.mul_le_mul_left _ (Nat.le_of_not_lt below)
    have high : bias + 1 ≤ f.exponent := by
      refine Nat.le_trans ?_ (le_exponent_of_ofMantissa read)
      have bits : bias + 53 ≤ (2 ^ bias * x).log2 :=
        (Nat.le_log2 (Nat.ne_of_gt (Nat.lt_of_lt_of_le (Nat.two_pow_pos _) large))).mpr large
      rw [exponentOf, Nat.div_one]
      omega
    have normal : 2 ^ 52 ≤ f.mantissa := f.normal.resolve_left (by omega)
    have bound : n * 2 ^ bias < f.mantissa * 2 ^ f.exponent :=
      calc n * 2 ^ bias < 2 ^ 53 * 2 ^ bias := Nat.mul_lt_mul_of_pos_right small (Nat.two_pow_pos _)
        _ = 2 ^ 52 * 2 ^ (bias + 1) := by rw [← Nat.pow_add, ← Nat.pow_add, Nat.add_comm bias 1, ← Nat.add_assoc]
        _ ≤ f.mantissa * 2 ^ f.exponent := Nat.mul_le_mul normal (Nat.pow_le_pow_right (by decide) high)
    exact absurd integer (Nat.ne_of_gt bound)

theorem ofDecimal_natCast (negative : Bool) (digits k : Nat) :
    ofDecimal negative digits k = nearest negative (digits * 10 ^ k) 1 := by
  have none_ : (-(k : Int)).toNat = 0 := by omega
  rw [ofDecimal, Int.toNat_natCast, none_, Nat.pow_zero]

/-- Any number of digits that suffices for a small integer writes it as it is. -/
theorem IsInteger.withDigits {f : Float64} {n count : Nat} {found : Nat × Int} (integer : f.IsInteger n)
    (small : n < 2 ^ 53) (positive : n ≠ 0) (few : count ≤ pad) (digits : f.withDigits count = some found) :
    SameDecimal found (n, 0) := by
  have scaled : 10 ^ pad * (f.mantissa * 2 ^ f.exponent) = 2 ^ bias * (10 ^ pad * n) := by
    rw [integer, Nat.mul_comm n, Nat.mul_left_comm]
  have places : pad < f.places := by
    rw [Float64.places, scaled, Nat.mul_div_cancel_left _ (Nat.two_pow_pos bias), ← Nat.not_le,
      Nat.length_toDigits_le_iff (by decide) (by unfold pad; decide), Nat.not_lt]
    exact Nat.le_mul_of_pos_right _ (Nat.pos_of_ne_zero positive)
  simp only [Float64.withDigits, scaled, Option.map_eq_some_iff] at digits
  obtain ⟨candidate, chosen, rfl⟩ := digits
  have fits := List.find?_some chosen
  have reads : ofDecimal f.negative candidate (f.places - pad - count) = some f := of_decide_eq_true fits
  rcases Int.eq_nat_or_neg ((f.places : Int) - pad - count) with ⟨k, whole | fraction⟩
  · rw [whole, ofDecimal_natCast] at reads
    rw [whole]
    have exactly : candidate * 10 ^ k = n := integer.eq_of_nearest small reads
    simpa [SameDecimal] using exactly
  · have scale : (((f.places : Int) - pad - count) + pad).toNat + k = pad := by omega
    have exactly : 2 ^ bias * (10 ^ pad * n) =
        2 ^ bias * 10 ^ (((f.places : Int) - pad - count) + pad).toNat * (10 ^ k * n) := by
      rw [Nat.mul_assoc (2 ^ bias), ← Nat.mul_assoc (10 ^ _), ← Nat.pow_add, scale]
    have unit : 0 < 2 ^ bias * 10 ^ (((f.places : Int) - pad - count) + pad).toNat :=
      Nat.mul_pos (Nat.two_pow_pos _) (Nat.pow_pos (by decide))
    have zeros : (-(k : Int)).toNat = 0 := by omega
    have powers : (- -(k : Int)).toNat = k := by omega
    have nearer : ofDecimal f.negative (10 ^ k * n) (f.places - pad - count) = some f := by
      rw [fraction, ofDecimal, zeros, powers, Nat.pow_zero, Nat.mul_one]
      refine nearest_exact f (Nat.pow_pos (by decide)) ?_
      rw [integer, Nat.mul_comm n, Nat.mul_left_comm]
    rw [exactly, halfEven_mul unit, Nat.mul_div_cancel_left _ unit, if_pos rfl,
      List.find?_cons, nearer, decide_eq_true rfl] at chosen
    obtain rfl := Option.some.inj chosen
    rw [fraction]
    simp [SameDecimal, Nat.mul_comm]

/-- A small integer is written as it is. -/
theorem IsInteger.shortest {f : Float64} {n : Nat} (integer : f.IsInteger n) (small : n < 2 ^ 53) (positive : n ≠ 0) :
    SameDecimal f.shortest (n, 0) := by
  unfold Float64.shortest
  cases found : (List.range 17).findSome? fun k => f.withDigits (k + 1) with
  | some decimal =>
    obtain ⟨k, inside, here⟩ := List.exists_of_findSome?_eq_some found
    have few : k + 1 ≤ pad := by
      have bound := List.mem_range.mp inside
      unfold pad
      omega
    exact integer.withDigits small positive few here
  | none =>
    have tens : (10 : Nat) ^ bias = 2 ^ bias * 5 ^ bias := by rw [← Nat.mul_pow]
    have exactly : f.mantissa * 2 ^ f.exponent = n * 2 ^ bias := integer
    simp only [SameDecimal, Option.getD_none, exactly]
    simp [tens, Nat.mul_comm (5 ^ bias), Nat.mul_assoc]

/-- Below 2 ^ 53 every integer is one that a number is written as. -/
theorem exists_written_intCast {z : Int} (small : z.natAbs < 2 ^ 53) : ∃ f : Float64, f.written = z := by
  by_cases none_ : z = 0
  · exact ⟨zero false, by rw [written_zero, none_]; rfl⟩
  · obtain ⟨f, sign, integer⟩ := exists_isInteger (decide (z < 0)) small
    have same := integer.shortest small (Int.natAbs_ne_zero.mpr none_)
    have signed : (if f.negative then -1 else 1) * (z.natAbs : Int) = z := by
      rw [sign]
      by_cases below : z < 0
      · rw [if_pos (decide_eq_true below)]
        omega
      · rw [if_neg (by simpa using below)]
        omega
    refine ⟨f, ?_⟩
    rw [written, @decimal_congr f.shortest (z.natAbs, 0) same f.negative, decimal, Int.neg_zero, Int.toNat_zero,
      Nat.pow_zero, Nat.mul_one, signed, Rat.mkRat_one]

end Float64
