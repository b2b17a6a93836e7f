import Mathlib.Algebra.Order.Ring.Int
import ScriptFold.Fault
import ScriptFold.Value.Operator

/-!
# Integer arithmetic

Sums, differences, products, remainders and exact quotients of integers that are exact as
doubles are the exact integers.  An integer has no negative zero, so a result that is zero
is always the positive one: `apply_safe` says of each operation when that is the zero that
scripts have.  A quotient needs a bound on rounding, since the operands are divided as
doubles before it is known that they divide.
-/

namespace ScriptFold

theorem roundHalfEven_le (numerator denominator : Nat) :
    roundHalfEven numerator denominator ≤ numerator / denominator + 1 := by
  have parity : numerator / denominator % 2 < 2 := Nat.mod_lt _ (by decide)
  simp only [roundHalfEven]
  split
  · omega
  · split
    · omega
    · omega

namespace Double

/-- What is below 2^1128 units is rounded to a finite number. -/
theorem nearestRank_lt {numerator denominator bits : Nat}
    (small : numerator / denominator < 2 ^ bits) (fits : bits ≤ 1128) :
    nearestRank numerator denominator < rankCount := by
  simp only [nearestRank, rankCount]
  by_cases few : numerator / denominator < 2 * binade
  · have rounded := roundHalfEven_le numerator denominator
    rw [if_pos few]
    simp only [binade] at few
    omega
  · rw [if_neg few]
    simp only [binade] at few ⊢
    have notZero : numerator / denominator ≠ 0 := by omega
    have width : (numerator / denominator).log2 < bits := (Nat.log2_lt notZero).mpr small
    have low : 53 ≤ (numerator / denominator).log2 := (Nat.le_log2 notZero).mpr (by omega)
    have rounded :=
      roundHalfEven_le numerator (denominator <<< ((numerator / denominator).log2 - 52))
    -- the shift leaves fifty-three binary digits of the quotient
    have digits : numerator / (denominator <<< ((numerator / denominator).log2 - 52)) < 2 ^ 53 := by
      rw [Nat.shiftLeft_eq, ← Nat.div_div_eq_div_mul, Nat.div_lt_iff_lt_mul (Nat.two_pow_pos _),
        ← Nat.pow_add]
      have exponent : 53 + ((numerator / denominator).log2 - 52) =
          (numerator / denominator).log2 + 1 := by
        omega
      rw [exponent]
      exact Nat.lt_log2_self
    omega

private theorem mul_two_pow_lt {n width : Nat} (small : n ≤ 2 ^ width) (places : Nat) :
    n * 2 ^ places < 2 ^ (width + places + 1) := by
  calc n * 2 ^ places ≤ 2 ^ width * 2 ^ places := Nat.mul_le_mul_right _ small
    _ = 2 ^ (width + places) := (Nat.pow_add 2 width places).symm
    _ < 2 ^ (width + places + 1) := Nat.pow_lt_pow_right (by decide) (Nat.lt_succ_self _)

theorem unitsPerOne_eq : unitsPerOne = 2 ^ 1074 := by
  have shifted : ∀ places, 1 <<< places = 2 ^ places :=
    fun places => (Nat.shiftLeft_eq 1 places).trans (Nat.one_mul _)
  exact shifted 1074

/-- A quotient of an integer that is exact as a double is finite. -/
theorem ofRatio_finite {numerator : Nat} (safe : numerator ≤ Num.greatestSafe)
    (negative : Bool) (denominator : Nat) :
    ∃ rank, ofRatio negative numerator denominator = .finite negative rank := by
  have isPower : Num.greatestSafe = 2 ^ 53 := by decide
  rw [isPower] at safe
  have small : numerator * unitsPerOne / denominator < 2 ^ (53 + 1074 + 1) := by
    rw [unitsPerOne_eq]
    exact Nat.lt_of_le_of_lt (Nat.div_le_self _ _) (mul_two_pow_lt safe 1074)
  have bounded := nearestRank_lt small (by decide)
  refine ⟨⟨_, bounded⟩, ?_⟩
  rw [ofRatio, ofUnits, ofRank, dif_pos bounded]

end Double

namespace Num

theorem settle_safe {n : Int} (safe : n.natAbs ≤ greatestSafe) :
    settle (.int n) = .ok (.int n) :=
  if_neg (Nat.not_lt.mpr safe)

theorem quotient_of_dvd {a b : Int} (safe : a.natAbs ≤ greatestSafe) (divides : b ∣ a) :
    quotient (.int a) (.int b) = .ok (.int (a / b)) := by
  have isFinite : (Double.ofRatio ((a < 0) != (b < 0)) a.natAbs b.natAbs).isInfinite = false := by
    obtain ⟨rank, isFinite⟩ := Double.ofRatio_finite safe ((a < 0) != (b < 0)) b.natAbs
    rw [isFinite]
    rfl
  have small : (a / b).natAbs ≤ greatestSafe :=
    Nat.le_trans (Int.natAbs_ediv_le_natAbs a b) safe
  simp only [quotient, intQuotient, isFinite, Int.emod_eq_zero_of_dvd divides, settle_safe small,
    Bool.false_eq_true, if_false, if_true]

/-- The number that a script has for an exact integer result: a zero takes the sign that the
operands give the result. -/
def withSign (negative : Bool) (n : Int) : Num :=
  if n = 0 ∧ negative = true then .float (Double.ofRank true 0) else .int n

private theorem int_eq_withSign_iff (negative : Bool) (n : Int) :
    Num.int n = withSign negative n ↔ ¬ (n = 0 ∧ negative = true) := by
  by_cases isNegativeZero : n = 0 ∧ negative = true
  · simp [withSign, isNegativeZero]
  · simp [withSign, isNegativeZero]

end Num

namespace BinaryOp

/-- An operator gives an integer, and that is the result of scripts unless they have the
negative zero there. -/
structure GivesUpToZero (op : BinaryOp) (a b : Int) (negative : Bool) (result : Int) : Prop where
  gives : op.apply (.int a) (.int b) = .ok (.int result)
  same_iff : op.apply (.int a) (.int b) = .ok (.num (Num.withSign negative result)) ↔
    ¬ (result = 0 ∧ negative = true)

theorem GivesUpToZero.of_gives {op : BinaryOp} {a b : Int} {negative : Bool} {result : Int}
    (gives : op.apply (.int a) (.int b) = .ok (.int result)) :
    GivesUpToZero op a b negative result := by
  constructor
  · exact gives
  · rw [gives, ← Num.int_eq_withSign_iff]
    simp [Value.int]

section Safe

variable {a b : Int}

theorem apply_add_int (safe : (a + b).natAbs ≤ Num.greatestSafe) :
    add.apply (.int a) (.int b) = .ok (.int (a + b)) := by
  have sum : (Num.int a).add (.int b) = .ok (.int (a + b)) := rfl
  simp only [apply, addValues, Value.int, Value.toPrimitive, Value.toNumber, Calculation.ok_bind,
    sum, Num.settle_safe safe]
  rfl

/-- A result that is exact as a double is not touched. -/
theorem saturate_safe {n : Int} (safe : n.natAbs ≤ Num.greatestSafe) :
    saturate (.ok (.int n)) = .ok (.int n) := by
  have settled : (Except.ok (Num.int n)).bind Num.settle = .ok (.int n) := Num.settle_safe safe
  simp only [saturate, settled]

theorem onNumbers_int {op : Num → Num → Except Fault Num} {result : Int}
    (gives : op (.int a) (.int b) = .ok (.int result)) :
    onNumbers op (.int a) (.int b) = .ok (.int result) := by
  simp only [onNumbers, Value.int, Value.toNumber, Calculation.ok_bind, gives]
  rfl

theorem apply_sub_int (safe : (a - b).natAbs ≤ Num.greatestSafe) :
    sub.apply (.int a) (.int b) = .ok (.int (a - b)) :=
  onNumbers_int (saturate_safe safe)

theorem apply_mul_int (safe : (a * b).natAbs ≤ Num.greatestSafe) :
    mul.apply (.int a) (.int b) = .ok (.int (a * b)) :=
  onNumbers_int (saturate_safe safe)

theorem apply_rem_int (notZero : b ≠ 0) :
    rem.apply (.int a) (.int b) = .ok (.int (a.tmod b)) := by
  have isRemainder : (Num.int a).rem (.int b) = .ok (.int (a.tmod b)) := by
    simp [Num.rem, Num.isZero, Num.isInfinite, notZero]
  exact onNumbers_int isRemainder

private theorem apply_div_int (safe : a.natAbs ≤ Num.greatestSafe) (notZero : b ≠ 0) (divides
    : b ∣ a) :
    div.apply (.int a) (.int b) = .ok (.int (a / b)) := by
  have isQuotient : (Num.int a).div (.int b) = .ok (.int (a / b)) := by
    simp [Num.div, Num.isZero, notZero, Num.quotient_of_dvd safe divides]
  exact onNumbers_int isQuotient

/-- The remainder has the sign of the dividend. -/
theorem mul_tmod_nonneg (a b : Int) : 0 ≤ a * a.tmod b := by
  rcases Int.le_total 0 a with positive | negative
  · exact mul_nonneg positive (Int.tmod_nonneg b positive)
  · have opposite : 0 ≤ (-a).tmod b := Int.tmod_nonneg b (Int.neg_nonneg_of_nonpos negative)
    rw [Int.neg_tmod] at opposite
    exact mul_nonneg_of_nonpos_of_nonpos negative (Int.nonpos_of_neg_nonneg opposite)

/-- Integers that are exact as doubles are added, subtracted and multiplied exactly whenever
the result is exact as a double too.  The remainder is that of truncated division, and a
quotient without remainder is exact.  These are the results of scripts except for zeros that
scripts have negative: a product or quotient of which exactly one operand is negative, and a
remainder of a negative dividend. -/
theorem apply_safe (safeA : a.natAbs ≤ Num.greatestSafe) :
    ((a + b).natAbs ≤ Num.greatestSafe → add.apply (.int a) (.int b) = .ok (.int (a + b))) ∧
    ((a - b).natAbs ≤ Num.greatestSafe → sub.apply (.int a) (.int b) = .ok (.int (a - b))) ∧
    ((a * b).natAbs ≤ Num.greatestSafe →
      GivesUpToZero mul a b (decide (a < 0) != decide (b < 0)) (a * b)) ∧
    (b ≠ 0 → ∃ r : Int, r.natAbs < b.natAbs ∧ b ∣ a - r ∧ 0 ≤ a * r ∧
      GivesUpToZero rem a b (decide (a < 0)) r) ∧
    (b ≠ 0 → b ∣ a → ∃ q : Int, q * b = a ∧
      GivesUpToZero div a b (decide (a < 0) != decide (b < 0)) q) := by
  refine ⟨apply_add_int, apply_sub_int, ?_, ?_, ?_⟩
  · intro safe
    exact .of_gives (apply_mul_int safe)
  · intro notZero
    have small : (a.tmod b).natAbs < b.natAbs := by
      rw [Int.natAbs_tmod]
      exact Nat.mod_lt _ (Int.natAbs_pos.mpr notZero)
    exact ⟨a.tmod b, small, Int.dvd_self_sub_tmod, mul_tmod_nonneg a b,
      .of_gives (apply_rem_int notZero)⟩
  · intro notZero divides
    exact ⟨a / b, Int.ediv_mul_cancel divides, .of_gives (apply_div_int safeA notZero divides)⟩

end Safe

/-- The operations on -12 and 4; scripts have the negative zero for their remainder. -/
theorem minusTwelve_and_four : (-12 : Int).natAbs ≤ Num.greatestSafe ∧
    add.apply (.int (-12)) (.int 4) = .ok (.int (-8)) ∧
    sub.apply (.int (-12)) (.int 4) = .ok (.int (-16)) ∧
    GivesUpToZero mul (-12) 4 true (-48) ∧
    (∃ r : Int, r.natAbs < (4 : Int).natAbs ∧ 4 ∣ -12 - r ∧ 0 ≤ -12 * r ∧
      GivesUpToZero rem (-12) 4 true r) ∧
    (∃ q : Int, q * 4 = -12 ∧ GivesUpToZero div (-12) 4 true q) := by
  have safe : (-12 : Int).natAbs ≤ Num.greatestSafe := by decide
  obtain ⟨sum, difference, product, remainder, quotient⟩ := apply_safe (b := 4) safe
  exact ⟨safe, sum (by decide), difference (by decide), product (by decide),
    remainder (by decide), quotient (by decide) (by decide)⟩

/-- Zeros do not have the signs of scripts: `0 * -1` is the positive one. -/
theorem zeroSign_lost : ¬ ∀ a b : Int, a.natAbs ≤ Num.greatestSafe → b.natAbs ≤ Num.greatestSafe →
    (a * b).natAbs ≤ Num.greatestSafe →
    mul.apply (.int a) (.int b) =
      .ok (.num (Num.withSign (decide (a < 0) != decide (b < 0)) (a * b))) := by
  intro signed
  have negative := signed 0 (-1) (by decide) (by decide) (by decide)
  have positive : mul.apply (.int 0) (.int (-1)) = .ok (.int 0) := apply_mul_int (by decide)
  rw [positive] at negative
  simp [Value.int, Num.withSign] at negative

end BinaryOp

end ScriptFold
