import Mathlib.Data.Rat.Floor
import Mathlib.Tactic.Linarith
import Mathlib.Tactic.FieldSimp
import Mathlib.Tactic.Positivity

/-!
Rounding to a number of decimals, half to even, as `round` does it.
-/
namespace FundingRadar

/-- The nearest integer; of two that are equally near, the even one. -/
def nearestEven (x : ℚ) : ℤ :=
  if x - ⌊x⌋ < 1 / 2 then ⌊x⌋
  else if 1 / 2 < x - ⌊x⌋ then ⌊x⌋ + 1
  else if ⌊x⌋ % 2 = 0 then ⌊x⌋ else ⌊x⌋ + 1
/-- `round(x, digits)`. -/
def roundTo (digits : ℕ) (x : ℚ) : ℚ := nearestEven (x * 10 ^ digits) / 10 ^ digits

theorem abs_nearestEven_sub_le (x : ℚ) : |(nearestEven x : ℚ) - x| ≤ 1 / 2 := by
  have below := Int.floor_le x
  have above := Int.lt_floor_add_one x
  rw [abs_le,nearestEven]
  split_ifs <;> push_cast <;> constructor <;> linarith

theorem floor_le_nearestEven (x : ℚ) : ⌊x⌋ ≤ nearestEven x := by
  rw [nearestEven]
  split_ifs <;> omega
theorem nearestEven_le_floor_add_one (x : ℚ) : nearestEven x ≤ ⌊x⌋ + 1 := by
  rw [nearestEven]
  split_ifs <;> omega

/-- Rounding keeps the order. -/
theorem nearestEven_mono {x y : ℚ} (le : x ≤ y) : nearestEven x ≤ nearestEven y := by
  rcases (Int.floor_le_floor le).lt_or_eq with below | same
  · exact ((nearestEven_le_floor_add_one x).trans below).trans (floor_le_nearestEven y)
  · -- between two integers the larger fraction is rounded up where the smaller one is
    rw [nearestEven,nearestEven,same]
    have fractions : x - ⌊y⌋ ≤ y - ⌊y⌋ := sub_le_sub_right le _
    split_ifs <;> first | omega | linarith
theorem roundTo_mono (digits : ℕ) {x y : ℚ} (le : x ≤ y) : roundTo digits x ≤ roundTo digits y := by
  have scale : (0 : ℚ) < 10 ^ digits := by positivity
  refine div_le_div_of_nonneg_right ?_ scale.le
  exact_mod_cast nearestEven_mono (mul_le_mul_of_nonneg_right le scale.le)

/-- Integers stay as they are. -/
theorem nearestEven_intCast (m : ℤ) : nearestEven m = m := by
  rw [nearestEven,Int.floor_intCast,sub_self,if_pos (by norm_num)]
theorem roundTo_natCast (digits m : ℕ) : roundTo digits m = m := by
  have scale : (10 : ℚ) ^ digits ≠ 0 := by positivity
  have whole : (m : ℚ) * 10 ^ digits = ((m * 10 ^ digits : ℕ) : ℤ) := by push_cast; ring
  rw [roundTo,whole,nearestEven_intCast,div_eq_iff scale]
  push_cast
  ring

/-- Rounding moves a value by at most half a unit of its last decimal. -/
theorem abs_roundTo_sub_le (digits : ℕ) (x : ℚ) : |roundTo digits x - x| ≤ 1 / 2 / 10 ^ digits := by
  have scale : (0 : ℚ) < 10 ^ digits := by positivity
  have moved : roundTo digits x - x = (nearestEven (x * 10 ^ digits) - x * 10 ^ digits) / 10 ^ digits := by
    rw [roundTo]
    field_simp
  rw [moved,abs_div,abs_of_pos scale]
  exact div_le_div_of_nonneg_right (abs_nearestEven_sub_le _) scale.le

end FundingRadar
