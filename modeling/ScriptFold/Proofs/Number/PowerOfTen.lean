import Mathlib.Algebra.Order.Field.Power
import Mathlib.Data.Rat.Cast.Order
import Mathlib.Tactic.FieldSimp
import Mathlib.Tactic.Linarith
import Mathlib.Tactic.NormNum
import Mathlib.Tactic.Positivity
import Mathlib.Tactic.Ring
import ScriptFold.Number.Shortest

/-!
# Powers of ten

Digits before a power of ten are a rational number, `scientific`.  Fractions are multiplied by
powers of ten, and the greatest power of ten below a fraction is estimated from the widths of
its two numbers and then found in three steps: `decimalExponent_bounds` says that the estimate
is good enough.
-/

namespace ScriptFold

/-- Some digits before a power of ten. -/
def scientific (digits : Nat) (power : Int) : ℚ :=
  digits * 10 ^ power

theorem scientific_le {first second : Nat} (less : first ≤ second) (power : Int) :
    scientific first power ≤ scientific second power := by
  have isLess : (first : ℚ) ≤ second := by exact_mod_cast less
  exact mul_le_mul_of_nonneg_right isLess (by positivity)

theorem scientific_nonneg (digits : Nat) (power : Int) : 0 ≤ scientific digits power :=
  mul_nonneg (Nat.cast_nonneg digits) (by positivity)

theorem scientific_zero (power : Int) : scientific 0 power = 0 := by
  rw [scientific, Nat.cast_zero, zero_mul]

theorem scientific_mul_tenPow (digits places : Nat) (power : Int) :
    scientific (digits * 10 ^ places) power = scientific digits (power + places) := by
  rw [scientific, scientific, zpow_add₀ (by norm_num), zpow_natCast]
  push_cast
  ring

/-- Powers of ten and of two are compared by their exponents: ten is a little more than the
power 196/59 of two, and a little less than the power 93/28. -/
theorem tenPow_le_twoPow {ten two : Int} (more : 196 * ten ≤ 59 * two)
    (less : 93 * ten ≤ 28 * two) : (10 : ℚ) ^ ten ≤ 2 ^ two := by
  rcases Int.le_total 0 two with positive | negative
  · obtain ⟨two, rfl⟩ := Int.eq_ofNat_of_zero_le positive
    rcases Int.le_total 0 ten with isPower | isInverse
    · obtain ⟨ten, rfl⟩ := Int.eq_ofNat_of_zero_le isPower
      have raised : (10 ^ ten) ^ 196 ≤ (2 ^ two) ^ 196 := by
        calc (10 ^ ten) ^ 196 = 10 ^ (196 * ten) := by rw [← Nat.pow_mul, Nat.mul_comm]
          _ ≤ 10 ^ (59 * two) := Nat.pow_le_pow_right (by decide) (by omega)
          _ = (10 ^ 59) ^ two := Nat.pow_mul 10 59 two
          _ ≤ (2 ^ 196) ^ two := Nat.pow_le_pow_left (by norm_num) two
          _ = (2 ^ two) ^ 196 := by rw [← Nat.pow_mul, ← Nat.pow_mul, Nat.mul_comm]
      have same := (Nat.pow_le_pow_iff_left (by decide)).mp raised
      exact_mod_cast same
    · calc (10 : ℚ) ^ ten ≤ 1 := zpow_le_one_of_nonpos₀ (by norm_num) isInverse
        _ ≤ 2 ^ (two : Int) := one_le_zpow₀ (by norm_num) positive
  · obtain ⟨two, rfl⟩ : ∃ n : Nat, two = -n := ⟨(-two).toNat, by omega⟩
    obtain ⟨ten, rfl⟩ : ∃ n : Nat, ten = -n := ⟨(-ten).toNat, by omega⟩
    have raised : (2 ^ two) ^ 93 ≤ (10 ^ ten) ^ 93 := by
      calc (2 ^ two) ^ 93 = (2 ^ 93) ^ two := by rw [← Nat.pow_mul, ← Nat.pow_mul, Nat.mul_comm]
        _ ≤ (10 ^ 28) ^ two := Nat.pow_le_pow_left (by norm_num) two
        _ = 10 ^ (28 * two) := (Nat.pow_mul 10 28 two).symm
        _ ≤ 10 ^ (93 * ten) := Nat.pow_le_pow_right (by decide) (by omega)
        _ = (10 ^ ten) ^ 93 := by rw [← Nat.pow_mul, Nat.mul_comm]
    have same := (Nat.pow_le_pow_iff_left (by decide)).mp raised
    rw [zpow_neg, zpow_neg]
    refine inv_anti₀ (by positivity) ?_
    exact_mod_cast same

theorem twoPow_le_tenPow {ten two : Int} (more : 59 * two ≤ 196 * ten)
    (less : 28 * two ≤ 93 * ten) : (2 : ℚ) ^ two ≤ 10 ^ ten := by
  have inverse := @tenPow_le_twoPow (-ten) (-two) (by omega) (by omega)
  rw [zpow_neg, zpow_neg] at inverse
  exact (inv_le_inv₀ (by positivity) (by positivity)).mp inverse

section Scaling

variable {numerator denominator : Nat} (positive : 0 < denominator)
include positive

theorem scaleByTen_pos (power : Int) : 0 < (scaleByTen numerator denominator power).2 := by
  unfold scaleByTen
  split
  · exact positive
  · exact Nat.mul_pos positive (Nat.pow_pos (by decide))

/-- A fraction is multiplied by a power of ten. -/
theorem scaleByTen_eq (power : Int) :
    ((scaleByTen numerator denominator power).1 / (scaleByTen numerator denominator power).2 : ℚ) =
      numerator / denominator * 10 ^ power := by
  unfold scaleByTen
  split
  case isTrue isPower =>
    obtain ⟨exponent, rfl⟩ := Int.eq_ofNat_of_zero_le isPower
    simp only [Int.toNat_natCast, Nat.pow_eq, zpow_natCast]
    push_cast
    ring
  case isFalse isInverse =>
    obtain ⟨exponent, rfl⟩ : ∃ n : Nat, power = -n := ⟨(-power).toNat, by omega⟩
    have isPositive : (0 : ℚ) < denominator := by exact_mod_cast positive
    simp only [Int.neg_neg, Int.toNat_natCast, Nat.pow_eq, zpow_neg, zpow_natCast]
    push_cast
    field_simp

/-- A power of ten is reached if the fraction divided by it is not below one. -/
theorem reaches_iff (power : Int) :
    (scaleByTen numerator denominator (-power)).2 ≤ (scaleByTen numerator denominator (-power)).1 ↔
      (10 : ℚ) ^ power ≤ numerator / denominator := by
  have isScaled := @scaleByTen_eq numerator _ positive (-power)
  have isPositive : (0 : ℚ) < (scaleByTen numerator denominator (-power)).2 := by
    exact_mod_cast scaleByTen_pos positive (-power)
  have tens : (0 : ℚ) < 10 ^ power := by positivity
  rw [zpow_neg, ← div_eq_mul_inv] at isScaled
  rw [← one_le_div₀ tens, ← isScaled, one_le_div₀ isPositive]
  exact_mod_cast Iff.rfl

end Scaling

section Exponent

variable {numerator denominator : Nat} (notZero : 0 < numerator) (positive : 0 < denominator)
include notZero positive

/-- A fraction lies between the powers of two of the difference of the two widths. -/
theorem ratio_bounds :
    (2 : ℚ) ^ ((numerator.log2 : Int) - denominator.log2 - 1) ≤ numerator / denominator ∧
      (numerator / denominator : ℚ) < 2 ^ ((numerator.log2 : Int) - denominator.log2 + 1) := by
  have isPositive : (0 : ℚ) < denominator := by exact_mod_cast positive
  have low : (2 : ℚ) ^ numerator.log2 ≤ numerator := by
    exact_mod_cast Nat.log2_self_le (Nat.ne_of_gt notZero)
  have high : (numerator : ℚ) < 2 ^ (numerator.log2 + 1) := by
    exact_mod_cast Nat.lt_log2_self
  have lowBelow : (2 : ℚ) ^ denominator.log2 ≤ denominator := by
    exact_mod_cast Nat.log2_self_le (Nat.ne_of_gt positive)
  have highBelow : (denominator : ℚ) < 2 ^ (denominator.log2 + 1) := by
    exact_mod_cast Nat.lt_log2_self
  constructor
  · rw [le_div_iff₀ isPositive]
    calc (2 : ℚ) ^ ((numerator.log2 : Int) - denominator.log2 - 1) * denominator
        ≤ 2 ^ ((numerator.log2 : Int) - denominator.log2 - 1) * 2 ^ (denominator.log2 + 1) := by
          gcongr
      _ = 2 ^ numerator.log2 := by
          rw [← zpow_natCast, ← zpow_natCast, ← zpow_add₀ (by norm_num)]
          congr 1
          omega
      _ ≤ numerator := low
  · rw [div_lt_iff₀ isPositive]
    calc (numerator : ℚ) < 2 ^ (numerator.log2 + 1) := high
      _ = 2 ^ ((numerator.log2 : Int) - denominator.log2 + 1) * 2 ^ denominator.log2 := by
          rw [← zpow_natCast, ← zpow_natCast, ← zpow_add₀ (by norm_num)]
          congr 1
          omega
      _ ≤ 2 ^ ((numerator.log2 : Int) - denominator.log2 + 1) * denominator := by
          gcongr

/-- The exponent that is found is that of the greatest power of ten below a fraction. -/
theorem decimalExponent_bounds
    (near : ((numerator.log2 : Int) - denominator.log2).natAbs ≤ 10000) :
    (10 : ℚ) ^ decimalExponent numerator denominator ≤ numerator / denominator ∧
      (numerator / denominator : ℚ) < 10 ^ (decimalExponent numerator denominator + 1) := by
  obtain ⟨above, below⟩ := ratio_bounds notZero positive
  simp only [decimalExponent, decide_eq_true_eq, reaches_iff positive]
  generalize isEstimate :
    ((numerator.log2 : Int) - denominator.log2 - 1) * 30103 / 100000 - 1 = estimate
  -- the estimate is no greater than the exponent, and less than four below it
  have low : (10 : ℚ) ^ estimate ≤ numerator / denominator :=
    le_trans (tenPow_le_twoPow (by omega) (by omega)) above
  have high : (numerator / denominator : ℚ) < 10 ^ (estimate + 3 + 1) :=
    lt_of_lt_of_le below (twoPow_le_tenPow (by omega) (by omega))
  split
  case isTrue reached => exact ⟨reached, high⟩
  case isFalse third =>
    split
    case isTrue reached =>
      rw [Int.add_assoc]
      exact ⟨reached, lt_of_not_ge third⟩
    case isFalse second =>
      split
      case isTrue reached =>
        rw [Int.add_assoc]
        exact ⟨reached, lt_of_not_ge second⟩
      case isFalse first => exact ⟨low, lt_of_not_ge first⟩

end Exponent

theorem decimalWidth_le_iff {digits width : Nat} (positive : 0 < width) :
    decimalWidth digits ≤ width ↔ digits < 10 ^ width :=
  Nat.length_toDigits_le_iff (by decide) positive

theorem decimalWidth_pos (digits : Nat) : 0 < decimalWidth digits :=
  Nat.length_toDigits_pos

theorem lt_tenPow_decimalWidth (digits : Nat) : digits < 10 ^ decimalWidth digits :=
  (decimalWidth_le_iff (decimalWidth_pos digits)).mp (Nat.le_refl _)

theorem decimalWidth_mul_tenPow {digits : Nat} (notZero : digits ≠ 0) (zeros : Nat) :
    decimalWidth (digits * 10 ^ zeros) = decimalWidth digits + zeros := by
  induction zeros with
  | zero => simp
  | succ zeros induction =>
      have isPositive : 0 < digits * 10 ^ zeros := Nat.mul_pos (by omega) (by positivity)
      have lastZero : Nat.toDigits 10 (digits * 10 ^ (zeros + 1)) =
          Nat.toDigits 10 (digits * 10 ^ zeros) ++ [Nat.digitChar 0] := by
        rw [Nat.pow_succ, ← Nat.mul_assoc, Nat.toDigits_of_base_le (by decide) (by omega),
          Nat.mul_div_cancel _ (by decide), Nat.mul_mod_left]
      rw [decimalWidth] at induction ⊢
      rw [lastZero, List.length_append, induction]
      rfl

/-- The digits of a decimal stand behind the point. -/
theorem tenPow_le_of_decimalWidth {digits : Nat} (notZero : digits ≠ 0) :
    10 ^ (decimalWidth digits - 1) ≤ digits := by
  by_contra less
  have fewer : decimalWidth digits ≤ decimalWidth digits - 1 := by
    by_cases single : decimalWidth digits - 1 = 0
    · rw [single] at less
      omega
    · exact (decimalWidth_le_iff (by omega)).mpr (Nat.not_le.mp less)
  have positive := decimalWidth_pos digits
  omega

/-- A decimal lies between the powers of ten at its point. -/
theorem scientific_bounds {digits : Nat} (notZero : digits ≠ 0) (power : Int) :
    (10 : ℚ) ^ (decimalWidth digits + power - 1) ≤ scientific digits power ∧
      scientific digits power < 10 ^ (decimalWidth digits + power) := by
  have positive := decimalWidth_pos digits
  have low : (10 : ℚ) ^ (decimalWidth digits - 1) ≤ digits := by
    exact_mod_cast tenPow_le_of_decimalWidth notZero
  have high : (digits : ℚ) < 10 ^ decimalWidth digits := by
    exact_mod_cast lt_tenPow_decimalWidth digits
  constructor
  · calc (10 : ℚ) ^ (decimalWidth digits + power - 1)
        = 10 ^ (decimalWidth digits - 1) * 10 ^ power := by
          rw [← zpow_natCast, ← zpow_add₀ (by norm_num)]
          congr 1
          omega
      _ ≤ scientific digits power := mul_le_mul_of_nonneg_right low (by positivity)
  · calc scientific digits power < 10 ^ decimalWidth digits * 10 ^ power :=
          mul_lt_mul_of_pos_right high (by positivity)
      _ = 10 ^ (decimalWidth digits + power) := by
          rw [← zpow_natCast, ← zpow_add₀ (by norm_num)]

end ScriptFold
