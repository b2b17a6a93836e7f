import Mathlib.Algebra.Order.Field.Basic
import Mathlib.Data.Rat.Cast.Order
import Mathlib.Tactic.Linarith
import Mathlib.Tactic.MkIffOfInductiveProp
import Mathlib.Tactic.Positivity
import Mathlib.Tactic.Ring
import ScriptFold.Proofs.Number.Integer

/-!
# Ranks and the numbers that belong to them

A rank is a whole number of binades and a rest, and its magnitude is the rest shifted by that
number.  From this come the order of magnitudes and a bound on the gaps between them.  A
rational number of units belongs to the rank that it is nearest to, to the even one of two:
`nearestRank` finds that rank, and there is no other.
-/

namespace ScriptFold

/-- A quotient is rounded to a natural number that is at most a half away, and less than that
if the natural number is odd. -/
theorem roundHalfEven_nearest (numerator : Nat) {denominator : Nat} (positive : 0 < denominator) :
    2 * (roundHalfEven numerator denominator * denominator) ≤ 2 * numerator + denominator ∧
      2 * numerator ≤ 2 * (roundHalfEven numerator denominator * denominator) + denominator ∧
      (roundHalfEven numerator denominator % 2 = 1 →
        2 * (roundHalfEven numerator denominator * denominator) < 2 * numerator + denominator ∧
        2 * numerator < 2 * (roundHalfEven numerator denominator * denominator) + denominator) := by
  have whole := Nat.div_add_mod' numerator denominator
  have small := Nat.mod_lt numerator positive
  have next : (numerator / denominator + 1) * denominator =
      numerator / denominator * denominator + denominator := Nat.succ_mul _ _
  simp only [roundHalfEven]
  split
  · omega
  · split
    · rw [next]
      omega
    · rcases Nat.mod_two_eq_zero_or_one (numerator / denominator) with even | odd
      · rw [even, Nat.add_zero]
        omega
      · rw [odd, next]
        omega

namespace Double

/-- The magnitude of a rank that is a number of binades and a rest. -/
theorem unitsOfRank_shift {shift rest : Nat} (large : shift = 0 ∨ binade ≤ rest)
    (small : rest ≤ 2 * binade) : unitsOfRank (shift * binade + rest) = rest * 2 ^ shift := by
  by_cases subnormal : rest < binade
  · obtain rfl : shift = 0 := by omega
    simp [unitsOfRank, subnormal]
  · have notSmall : ¬ shift * binade + rest < binade := by
      rw [Nat.not_lt] at subnormal ⊢
      exact Nat.le_add_left_of_le subnormal
    rw [unitsOfRank, if_neg notSmall, Nat.shiftLeft_eq]
    simp only [binade] at *
    by_cases last : rest = 2 * 0x10000000000000
    · -- the rest of a full binade is the first of the next one
      have places : (shift * 0x10000000000000 + rest) / 0x10000000000000 - 1 = shift + 1 := by
        omega
      have digits : (shift * 0x10000000000000 + rest) % 0x10000000000000 = 0 := by
        omega
      rw [places, digits, last, Nat.pow_succ]
      ring
    · have places : (shift * 0x10000000000000 + rest) / 0x10000000000000 - 1 = shift := by
        omega
      have digits : 0x10000000000000 + (shift * 0x10000000000000 + rest) % 0x10000000000000 =
          rest := by
        omega
      rw [places, digits]

/-- Twice the midpoint below a rank that is not the first of its binade. -/
theorem midpoint_below {shift rest : Nat} (positive : 0 < rest)
    (large : shift = 0 ∨ binade < rest) (small : rest ≤ 2 * binade) :
    unitsOfRank (shift * binade + rest - 1) + unitsOfRank (shift * binade + rest) + 2 ^ shift =
      2 * (rest * 2 ^ shift) := by
  obtain ⟨before, rfl⟩ := Nat.exists_eq_succ_of_ne_zero (Nat.ne_of_gt positive)
  have previous : unitsOfRank (shift * binade + before) = before * 2 ^ shift :=
    unitsOfRank_shift (large.imp_right Nat.le_of_lt_succ) (Nat.le_of_succ_le small)
  have own := unitsOfRank_shift (large.imp_right Nat.le_of_lt) small
  have isPrevious : shift * binade + before.succ - 1 = shift * binade + before :=
    Nat.add_succ_sub_one _ _
  rw [isPrevious, previous, own, Nat.succ_mul]
  omega

/-- Twice the midpoint above a rank that does not end a binade. -/
theorem midpoint_above {shift rest : Nat} (large : shift = 0 ∨ binade ≤ rest)
    (small : rest < 2 * binade) :
    unitsOfRank (shift * binade + rest) + unitsOfRank (shift * binade + rest + 1) =
      2 * (rest * 2 ^ shift) + 2 ^ shift := by
  have own := unitsOfRank_shift large (Nat.le_of_lt small)
  have next : unitsOfRank (shift * binade + (rest + 1)) = (rest + 1) * 2 ^ shift :=
    unitsOfRank_shift (large.imp_right Nat.le_succ_of_le) small
  rw [Nat.add_assoc, next, own, Nat.succ_mul]
  omega

/-- Every rank is a number of binades and a rest. -/
theorem exists_shift (rank : Nat) : ∃ shift rest, rank = shift * binade + rest ∧
    (shift = 0 ∨ binade ≤ rest) ∧ rest < 2 * binade := by
  refine ⟨rank / binade - 1, rank - (rank / binade - 1) * binade, ?_⟩
  simp only [binade]
  omega

/-- The next magnitude is a gap away, and has at most fifty-three binary digits in gaps. -/
theorem exists_gap (rank : Nat) : ∃ gap, 0 < gap ∧
    unitsOfRank (rank + 1) = unitsOfRank rank + gap ∧ unitsOfRank (rank + 1) ≤ 2 ^ 53 * gap := by
  obtain ⟨shift, rest, rfl, large, small⟩ := exists_shift rank
  have units := unitsOfRank_shift large (Nat.le_of_lt small)
  have next : unitsOfRank (shift * binade + (rest + 1)) = (rest + 1) * 2 ^ shift :=
    unitsOfRank_shift (large.imp_right Nat.le_succ_of_le) small
  have bound : 2 ^ 53 = 2 * binade := by decide
  refine ⟨2 ^ shift, Nat.two_pow_pos shift, ?_, ?_⟩
  · rw [Nat.add_assoc, next, units, Nat.succ_mul]
  · rw [Nat.add_assoc, next, bound]
    exact Nat.mul_le_mul_right _ small

theorem unitsOfRank_strictMono : StrictMono unitsOfRank := by
  refine strictMono_nat_of_lt_succ fun rank => ?_
  obtain ⟨gap, positive, next, -⟩ := exists_gap rank
  omega

theorem unitsOfRank_zero : unitsOfRank 0 = 0 := by
  decide

theorem unitsOfRank_pos {rank : Nat} (positive : 0 < rank) : 0 < unitsOfRank rank := by
  have below := unitsOfRank_strictMono positive
  rwa [unitsOfRank_zero] at below

/-- The first magnitude that is not finite, 2^1024 ones. -/
theorem unitsOfRank_rankCount : unitsOfRank rankCount = 2 ^ 2098 := by
  have isRank : rankCount = 2045 * binade + 2 * binade := by decide
  rw [isRank, unitsOfRank_shift (.inr (by decide)) (Nat.le_refl _)]
  decide +kernel

theorem unitsOfRank_lt {rank : Nat} (bounded : rank < rankCount) : unitsOfRank rank < 2 ^ 2098 :=
  Nat.lt_of_lt_of_eq (unitsOfRank_strictMono bounded) unitsOfRank_rankCount

/-- What has no more than fifty-three binary digits before zeros is a magnitude. -/
theorem exists_rank_of_shift {digits : Nat} (few : digits ≤ 2 * binade) (shift : Nat) :
    ∃ rank, unitsOfRank rank = digits * 2 ^ shift := by
  induction shift generalizing digits with
  | zero => exact ⟨0 * binade + digits, unitsOfRank_shift (.inl rfl) few⟩
  | succ shift induction =>
      by_cases large : binade ≤ digits
      · exact ⟨(shift + 1) * binade + digits, unitsOfRank_shift (.inr large) few⟩
      · obtain ⟨rank, isRank⟩ := @induction (2 * digits) (by omega)
        refine ⟨rank, ?_⟩
        rw [isRank, Nat.pow_succ]
        ring

section Rounded

variable {numerator denominator shift rest : Nat} (restLarge : shift = 0 ∨ binade ≤ rest)
  (restSmall : rest ≤ 2 * binade)
include restLarge restSmall

/-- The midpoint below a rank is half a step away; below the first rank of a binade it is
nearer, but out of reach of what has the width of the binade. -/
theorem low_cases (positive : 0 < denominator)
    (large : shift = 0 ∨ binade * (denominator * 2 ^ shift) ≤ numerator) :
    shift * binade + rest = 0 ∨
      (unitsOfRank (shift * binade + rest - 1) + unitsOfRank (shift * binade + rest)) *
        denominator + denominator * 2 ^ shift = 2 * (rest * (denominator * 2 ^ shift)) ∨
      (unitsOfRank (shift * binade + rest - 1) + unitsOfRank (shift * binade + rest)) *
        denominator < 2 * numerator := by
  by_cases inside : shift = 0 ∨ binade < rest
  · by_cases isZero : rest = 0
    · refine .inl ?_
      have noShift : shift = 0 := inside.resolve_right (by simp [isZero])
      rw [noShift, isZero]
      rfl
    · have midpoint := midpoint_below (Nat.pos_of_ne_zero isZero) inside restSmall
      refine .inr (.inl ?_)
      calc (unitsOfRank (shift * binade + rest - 1) + unitsOfRank (shift * binade + rest)) *
            denominator + denominator * 2 ^ shift
          = (unitsOfRank (shift * binade + rest - 1) + unitsOfRank (shift * binade + rest) +
              2 ^ shift) * denominator := by ring
        _ = 2 * (rest * (denominator * 2 ^ shift)) := by
          rw [midpoint]
          ring
  · obtain ⟨shifted, notInside⟩ := not_or.mp inside
    obtain rfl : rest = binade :=
      Nat.le_antisymm (Nat.not_lt.mp notInside) (restLarge.resolve_left shifted)
    have notZero : shift * binade + binade ≠ 0 := Nat.ne_of_gt (Nat.add_pos_right _ (by decide))
    have before := unitsOfRank_strictMono (Nat.sub_one_lt notZero)
    have own := unitsOfRank_shift restLarge restSmall
    refine .inr (.inr ?_)
    calc (unitsOfRank (shift * binade + binade - 1) + unitsOfRank (shift * binade + binade)) *
          denominator
        < 2 * unitsOfRank (shift * binade + binade) * denominator :=
          Nat.mul_lt_mul_of_pos_right (by omega) positive
      _ = 2 * (binade * (denominator * 2 ^ shift)) := by
        rw [own]
        ring
      _ ≤ 2 * numerator := Nat.mul_le_mul_left 2 (large.resolve_left shifted)

theorem high_cases (small : numerator < 2 * binade * (denominator * 2 ^ shift)) :
    (unitsOfRank (shift * binade + rest) + unitsOfRank (shift * binade + rest + 1)) *
        denominator = 2 * (rest * (denominator * 2 ^ shift)) + denominator * 2 ^ shift ∨
      2 * numerator < (unitsOfRank (shift * binade + rest) +
        unitsOfRank (shift * binade + rest + 1)) * denominator := by
  by_cases inside : rest < 2 * binade
  · have midpoint := midpoint_above restLarge inside
    refine .inl ?_
    rw [midpoint]
    ring
  · obtain rfl : rest = 2 * binade := Nat.le_antisymm restSmall (Nat.not_lt.mp inside)
    have own := unitsOfRank_shift restLarge restSmall
    have after := unitsOfRank_strictMono (Nat.lt_add_one (shift * binade + 2 * binade))
    refine .inr ?_
    calc 2 * numerator < 2 * (2 * binade * 2 ^ shift) * denominator := by linarith
      _ ≤ _ := Nat.mul_le_mul_right _ (by omega)

end Rounded

/-- The number of units lies between the midpoints to the neighbours of a rank.  The midpoints
themselves belong to the even rank. -/
@[mk_iff]
structure Belongs (rank : Nat) (units : ℚ) : Prop where
  low : (unitsOfRank (rank - 1) + unitsOfRank rank : ℚ) ≤ 2 * units
  high : 2 * units ≤ (unitsOfRank rank + unitsOfRank (rank + 1) : ℚ)
  odd : rank % 2 = 1 → (unitsOfRank (rank - 1) + unitsOfRank rank : ℚ) < 2 * units ∧
    2 * units < (unitsOfRank rank + unitsOfRank (rank + 1) : ℚ)

section Fraction

variable {rank numerator denominator : Nat} (positive : 0 < denominator)
include positive

theorem le_twice_div (n : Nat) :
    (n : ℚ) ≤ 2 * (numerator / denominator : ℚ) ↔ n * denominator ≤ 2 * numerator := by
  have isPositive : (0 : ℚ) < denominator := by exact_mod_cast positive
  rw [← mul_div_assoc, le_div_iff₀ isPositive]
  exact_mod_cast Iff.rfl

theorem twice_div_le (n : Nat) :
    2 * (numerator / denominator : ℚ) ≤ n ↔ 2 * numerator ≤ n * denominator := by
  have isPositive : (0 : ℚ) < denominator := by exact_mod_cast positive
  rw [← mul_div_assoc, div_le_iff₀ isPositive]
  exact_mod_cast Iff.rfl

/-- Whether a fraction belongs to a rank is a matter of natural numbers. -/
theorem belongs_div_iff : Belongs rank (numerator / denominator) ↔
    (unitsOfRank (rank - 1) + unitsOfRank rank) * denominator ≤ 2 * numerator ∧
    2 * numerator ≤ (unitsOfRank rank + unitsOfRank (rank + 1)) * denominator ∧
    (rank % 2 = 1 →
      (unitsOfRank (rank - 1) + unitsOfRank rank) * denominator < 2 * numerator ∧
      2 * numerator < (unitsOfRank rank + unitsOfRank (rank + 1)) * denominator) := by
  have low := @le_twice_div numerator _ positive (unitsOfRank (rank - 1) + unitsOfRank rank)
  have high := @twice_div_le numerator _ positive (unitsOfRank rank + unitsOfRank (rank + 1))
  have aboveLow := @twice_div_le numerator _ positive (unitsOfRank (rank - 1) + unitsOfRank rank)
  have belowHigh := @le_twice_div numerator _ positive (unitsOfRank rank + unitsOfRank (rank + 1))
  push_cast at low high aboveLow belowHigh
  rw [← low, ← high, ← not_le, ← not_le, ← aboveLow, ← belowHigh, not_le, not_le, belongs_iff]

/-- The nearest rank is a number of binades, and the rest is rounded. -/
theorem exists_nearestRank (numerator : Nat) : ∃ shift,
    nearestRank numerator denominator =
      shift * binade + roundHalfEven numerator (denominator * 2 ^ shift) ∧
    (shift = 0 ∨ binade * (denominator * 2 ^ shift) ≤ numerator) ∧
    numerator < 2 * binade * (denominator * 2 ^ shift) := by
  simp only [nearestRank]
  split
  case isTrue few =>
    refine ⟨0, by simp, .inl rfl, ?_⟩
    rwa [Nat.pow_zero, Nat.mul_one, ← Nat.div_lt_iff_lt_mul positive]
  case isFalse many =>
    have notZero : numerator / denominator ≠ 0 := by
      intro isZero
      rw [isZero] at many
      exact many (by decide)
    have width : 53 ≤ (numerator / denominator).log2 := by
      rw [Nat.le_log2 notZero]
      exact Nat.not_lt.mp many
    have least := Nat.log2_self_le notZero
    have bound := @Nat.lt_log2_self (numerator / denominator)
    obtain ⟨shift, isShift⟩ := Nat.exists_eq_add_of_le width
    have isDifference : (numerator / denominator).log2 - 52 = shift + 1 := by omega
    refine ⟨shift + 1, by rw [isDifference, Nat.shiftLeft_eq], .inr ?_, ?_⟩
    · have isPower : 2 ^ (53 + shift) = binade * 2 ^ (shift + 1) := by
        rw [show binade = 2 ^ 52 by decide, ← Nat.pow_add]
        congr 1
        omega
      rw [isShift, isPower, Nat.le_div_iff_mul_le positive] at least
      calc binade * (denominator * 2 ^ (shift + 1))
          = binade * 2 ^ (shift + 1) * denominator := by ring
        _ ≤ numerator := least
    · have isPower : 2 ^ (53 + shift + 1) = 2 * binade * 2 ^ (shift + 1) := by
        rw [show 2 * binade = 2 ^ 53 by decide, ← Nat.pow_add]
        congr 1
      rw [isShift, isPower, Nat.div_lt_iff_lt_mul positive] at bound
      calc numerator < 2 * binade * 2 ^ (shift + 1) * denominator := bound
        _ = 2 * binade * (denominator * 2 ^ (shift + 1)) := by ring

/-- A fraction belongs to the rank that is found for it. -/
theorem nearestRank_belongs (numerator : Nat) :
    Belongs (nearestRank numerator denominator) (numerator / denominator) := by
  obtain ⟨shift, isRank, large, small⟩ := exists_nearestRank positive numerator
  have step : 0 < denominator * 2 ^ shift := Nat.mul_pos positive (Nat.two_pow_pos shift)
  obtain ⟨above, below, whenOdd⟩ := roundHalfEven_nearest numerator step
  rw [belongs_div_iff positive, isRank]
  generalize roundHalfEven numerator (denominator * 2 ^ shift) = rest at *
  have restLarge : shift = 0 ∨ binade ≤ rest := by
    refine large.imp_right fun isLarge => ?_
    have twice : 2 * binade * (denominator * 2 ^ shift) <
        (2 * rest + 2) * (denominator * 2 ^ shift) := by
      linarith
    have := Nat.lt_of_mul_lt_mul_right twice
    omega
  have restSmall : rest ≤ 2 * binade := by
    have twice : 2 * rest * (denominator * 2 ^ shift) <
        (4 * binade + 1) * (denominator * 2 ^ shift) := by
      linarith
    have := Nat.lt_of_mul_lt_mul_right twice
    omega
  have parity : (shift * binade + rest) % 2 = rest % 2 := by
    simp only [binade]
    omega
  have low := low_cases restLarge restSmall positive large
  have high := high_cases restLarge restSmall small
  rw [parity]
  refine ⟨?_, ?_, ?_⟩
  · rcases low with isZero | isStep | isFar
    · rw [isZero]
      simp [unitsOfRank_zero]
    · omega
    · omega
  · omega
  · intro isOdd
    have := whenOdd isOdd
    constructor
    · rcases low with isZero | isStep | isFar
      · omega
      · omega
      · exact isFar
    · omega

end Fraction

section Belongs

variable {rank other : Nat} {units first second : ℚ}

/-- The ranks of two numbers are in the order of the numbers. -/
theorem Belongs.not_lt (belongs : Belongs rank units) (otherBelongs : Belongs other units) :
    ¬ rank < other := by
  intro below
  have own := unitsOfRank_strictMono.monotone (Nat.le_sub_one_of_lt below)
  have next := unitsOfRank_strictMono.monotone (Nat.succ_le_of_lt below)
  have ownUnits : (unitsOfRank rank : ℚ) ≤ unitsOfRank (other - 1) := by exact_mod_cast own
  have nextUnits : (unitsOfRank (rank + 1) : ℚ) ≤ unitsOfRank other := by exact_mod_cast next
  have isHigh := belongs.high
  have isLow := otherBelongs.low
  -- the midpoint between two neighbours belongs to the even one only
  have even : rank % 2 ≠ 1 := fun isOdd => by linarith [(belongs.odd isOdd).2]
  have otherEven : other % 2 ≠ 1 := fun isOdd => by linarith [(otherBelongs.odd isOdd).1]
  have sameNext : unitsOfRank (rank + 1) = unitsOfRank other := by
    have : (unitsOfRank (rank + 1) : ℚ) = unitsOfRank other := by linarith
    exact_mod_cast this
  have neighbours := unitsOfRank_strictMono.injective sameNext
  omega

/-- A number belongs to one rank only. -/
theorem Belongs.unique (belongs : Belongs rank units) (otherBelongs : Belongs other units) :
    rank = other :=
  Nat.le_antisymm (Nat.not_lt.mp (otherBelongs.not_lt belongs))
    (Nat.not_lt.mp (belongs.not_lt otherBelongs))

/-- What lies between two numbers of a rank belongs to it. -/
theorem Belongs.between (isFirst : Belongs rank first) (isSecond : Belongs rank second)
    (low : first ≤ units) (high : units ≤ second) : Belongs rank units := by
  refine ⟨by linarith [isFirst.low], by linarith [isSecond.high], fun isOdd => ?_⟩
  have firstOdd := isFirst.odd isOdd
  have secondOdd := isSecond.odd isOdd
  constructor
  · linarith [firstOdd.1]
  · linarith [secondOdd.2]

/-- Half of a gap is more than the magnitude over 2^54, so what is no farther away belongs to
a rank, whether that is even or odd. -/
theorem belongs_of_near (positive : 0 < rank)
    (near : |units - unitsOfRank rank| * 2 ^ 54 < unitsOfRank rank) : Belongs rank units := by
  obtain ⟨before, rfl⟩ := Nat.exists_eq_succ_of_ne_zero (Nat.ne_of_gt positive)
  obtain ⟨gapBelow, -, isOwn, boundBelow⟩ := exists_gap before
  obtain ⟨gapAbove, -, isNext, boundAbove⟩ := exists_gap (before + 1)
  have own : (unitsOfRank (before + 1) : ℚ) = unitsOfRank before + gapBelow := by
    exact_mod_cast isOwn
  have next : (unitsOfRank (before + 1 + 1) : ℚ) = unitsOfRank (before + 1) + gapAbove := by
    exact_mod_cast isNext
  have below : (unitsOfRank (before + 1) : ℚ) ≤ 2 ^ 53 * gapBelow := by
    exact_mod_cast boundBelow
  have above : (unitsOfRank (before + 1) : ℚ) ≤ 2 ^ 53 * gapAbove := by
    exact_mod_cast (unitsOfRank_strictMono (Nat.lt_add_one _)).le.trans boundAbove
  have isLow := neg_abs_le (units - unitsOfRank (before + 1))
  have isHigh := le_abs_self (units - unitsOfRank (before + 1))
  have low : (unitsOfRank before + unitsOfRank (before + 1) : ℚ) < 2 * units := by linarith
  have high : 2 * units < (unitsOfRank (before + 1) + unitsOfRank (before + 1 + 1) : ℚ) := by
    linarith
  exact ⟨low.le, high.le, fun _ => ⟨low, high⟩⟩

/-- A magnitude belongs to its own rank. -/
theorem belongs_unitsOfRank (rank : Nat) : Belongs rank (unitsOfRank rank) := by
  rcases Nat.eq_zero_or_pos rank with rfl | positive
  · refine ⟨?_, ?_, fun isOdd => absurd isOdd (by decide)⟩
    · simp [unitsOfRank_zero]
    · simp [unitsOfRank_zero]
  · refine belongs_of_near positive ?_
    rw [sub_self, abs_zero, zero_mul]
    exact_mod_cast unitsOfRank_pos positive

end Belongs

theorem nearestRank_eq_iff {rank numerator denominator : Nat} (positive : 0 < denominator) :
    nearestRank numerator denominator = rank ↔ Belongs rank (numerator / denominator) := by
  have belongs := nearestRank_belongs positive numerator
  constructor
  · intro isRank
    rwa [← isRank]
  · exact belongs.unique

/-- A magnitude is found at its own rank. -/
theorem nearestRank_unitsOfRank (rank : Nat) : nearestRank (unitsOfRank rank) 1 = rank := by
  rw [nearestRank_eq_iff Nat.one_pos, Nat.cast_one, div_one]
  exact belongs_unitsOfRank rank

theorem ofRank_eq_finite_iff {negative : Bool} {found : Nat} {rank : Fin rankCount} :
    ofRank negative found = .finite negative rank ↔ found = rank.val := by
  unfold ofRank
  split
  case isTrue => simp [Fin.ext_iff]
  case isFalse beyond =>
    refine iff_of_false nofun fun same => beyond ?_
    rw [same]
    exact rank.isLt

/-- A finite double is an integer if it is that number of whole units. -/
theorem toInt?_finite_iff {negative : Bool} {rank : Fin rankCount} {n : Int} :
    (Double.finite negative rank).toInt? = some n ↔
      (if negative then -(unitsOfRank rank : Int) else unitsOfRank rank) = n * unitsPerOne := by
  have notZero : (unitsPerOne : Int) ≠ 0 := by
    rw [unitsPerOne_eq]
    positivity
  simp only [toInt?, units?, Option.bind_eq_bind, Option.bind_some, Option.ite_none_right_eq_some,
    Option.some.injEq]
  constructor
  · intro ⟨divides, isQuotient⟩
    rw [← isQuotient, Int.ediv_mul_cancel (Int.dvd_of_emod_eq_zero divides)]
  · intro isMultiple
    rw [isMultiple]
    exact ⟨Int.mul_emod_left _ _, Int.mul_ediv_cancel _ notZero⟩

/-- The integer part of an integer is that integer. -/
theorem truncate?_of_toInt? {x : Double} {n : Int} (isInt : x.toInt? = some n) :
    x.truncate? = some n := by
  cases x with
  | nan | infinity => cases isInt
  | finite negative rank =>
      have notZero : (unitsPerOne : Int) ≠ 0 := by
        rw [unitsPerOne_eq]
        positivity
      simp only [truncate?, units?, toInt?_finite_iff.mp isInt, Option.map_some,
        Int.mul_tdiv_cancel n notZero]

/-- An integer that is exact as a double is the integer of that double. -/
theorem toDouble_int {n : Int} (safe : n.natAbs ≤ Num.greatestSafe) :
    ∃ x, Num.toDouble (.int n) = .ok x ∧ x.toInt? = some n := by
  obtain ⟨rank, isFinite⟩ := ofRatio_finite safe (n < 0) 1
  have few : n.natAbs ≤ 2 * binade := by
    rwa [show 2 * binade = Num.greatestSafe by decide]
  obtain ⟨exact, isExact⟩ := exists_rank_of_shift few 1074
  rw [← unitsPerOne_eq] at isExact
  have isRank : exact = rank.val := by
    rw [ofRatio, ofUnits, ofRank_eq_finite_iff, ← isExact, nearestRank_unitsOfRank] at isFinite
    exact isFinite
  have signed : (if decide (n < 0) then -(n.natAbs : Int) else n.natAbs) = n := by
    simp only [decide_eq_true_eq]
    omega
  refine ⟨.finite (n < 0) rank, ?_, ?_⟩
  · rw [Num.toDouble, ofInt, isFinite]
    rfl
  · rw [toInt?_finite_iff, ← isRank, isExact, Nat.cast_mul, ← Int.neg_mul, ← ite_mul, signed]

end Double

end ScriptFold
