import Mathlib.Data.Rat.Floor
import Mathlib.Data.Int.Log
import Mathlib.Tactic.Linarith
import Mathlib.Tactic.Ring

/-! Rounding of rational numbers to the nearest multiple of a unit, to a number of
decimals and to a number of significant digits. Ties go to the even multiple. -/

namespace Rounding

def nearestEven (q : ℚ) : ℤ :=
  if q - ⌊q⌋ < 1 / 2 then ⌊q⌋
  else if 1 / 2 < q - ⌊q⌋ then ⌊q⌋ + 1
  else if ⌊q⌋ % 2 = 0 then ⌊q⌋
  else ⌊q⌋ + 1

/-- The nearest multiple of a unit. -/
def roundTo (unit q : ℚ) : ℚ := nearestEven (q / unit) * unit

/-- The unit of the last decimal. -/
def decimalUnit (decimals : ℕ) : ℚ := (10 : ℚ) ^ (-(decimals : ℤ))

/-- The unit of the last of some significant digits. -/
def digitUnit (digits : ℕ) (q : ℚ) : ℚ := (10 : ℚ) ^ (Int.log 10 |q| - ((digits : ℤ) - 1))

/-! What is fixed, and what is kept in order. -/

theorem floor_le_nearestEven (q : ℚ) : ⌊q⌋ ≤ nearestEven q := by
  unfold nearestEven
  split_ifs <;> omega

theorem nearestEven_le_floor (q : ℚ) : nearestEven q ≤ ⌊q⌋ + 1 := by
  unfold nearestEven
  split_ifs <;> omega

theorem nearestEven_intCast (n : ℤ) : nearestEven n = n := by
  have whole : ((n : ℚ) - ⌊(n : ℚ)⌋) < 1 / 2 := by
    rw [Int.floor_intCast, sub_self]
    norm_num
  rw [nearestEven, if_pos whole, Int.floor_intCast]

theorem nearestEven_mono {x y : ℚ} (le : x ≤ y) : nearestEven x ≤ nearestEven y := by
  have floors : ⌊x⌋ ≤ ⌊y⌋ := Int.floor_mono le
  rcases Int.lt_or_eq_of_le floors with below | same
  · have upper := nearestEven_le_floor x
    have lower := floor_le_nearestEven y
    omega
  · have fractions : x - ⌊x⌋ ≤ y - ⌊x⌋ := by linarith
    unfold nearestEven
    rw [← same]
    split_ifs with first second third fourth fifth <;> first | omega | (exfalso; linarith)

theorem roundTo_mono {unit x y : ℚ} (positive : 0 < unit) (le : x ≤ y) : roundTo unit x ≤ roundTo unit y := by
  have quotients : x / unit ≤ y / unit := div_le_div_of_nonneg_right le (le_of_lt positive)
  have multiples : (nearestEven (x / unit) : ℚ) ≤ nearestEven (y / unit) := Int.cast_le.mpr (nearestEven_mono quotients)
  exact mul_le_mul_of_nonneg_right multiples (le_of_lt positive)

theorem roundTo_multiple {unit : ℚ} (positive : 0 < unit) (n : ℤ) : roundTo unit (n * unit) = n * unit := by
  rw [roundTo, mul_div_cancel_right₀ _ (ne_of_gt positive), nearestEven_intCast]

/-- A power of ten is a multiple of a smaller one. -/
theorem roundTo_pow {small large : ℤ} (le : small ≤ large) (n : ℤ) :
    roundTo ((10 : ℚ) ^ small) (n * (10 : ℚ) ^ large) = n * (10 : ℚ) ^ large := by
  obtain ⟨more, rfl⟩ := Int.le.dest le
  have positive : (0 : ℚ) < 10 ^ small := zpow_pos (by norm_num) small
  have multiple : (n : ℚ) * 10 ^ (small + (more : ℤ)) = ((n * 10 ^ more : ℤ) : ℚ) * 10 ^ small := by
    rw [zpow_add₀ (by norm_num), zpow_natCast]
    push_cast
    ring
  rw [multiple]
  exact roundTo_multiple positive _

/-- Numbers on both sides of one that is fixed stay on their sides. -/
theorem roundTo_le_of_pivot {small large pivot x y : ℚ} (positive : 0 < small) (other : 0 < large)
    (below : x ≤ pivot) (above : pivot ≤ y) (first : roundTo small pivot = pivot) (second : roundTo large pivot = pivot) :
    roundTo small x ≤ roundTo large y :=
  calc roundTo small x ≤ roundTo small pivot := roundTo_mono positive below
    _ = roundTo large pivot := first.trans second.symm
    _ ≤ roundTo large y := roundTo_mono other above

end Rounding
