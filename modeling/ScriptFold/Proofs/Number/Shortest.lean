import Mathlib.Data.Nat.Log
import ScriptFold.Number.Numeral
import ScriptFold.Proofs.Number.PowerOfTen
import ScriptFold.Proofs.Number.Rank

/-!
# The shortest decimal

The search tries one number of digits after the other.  For each it looks at the two multiples of
a power of ten around the magnitude only, and it asks whether they read back by comparing natural
numbers.  What a decimal is read as is a question about rationals: `ReadAs` says that a value is
not beyond the midpoints to the neighbours of a rank.  These values form an interval, so whatever
reads back has one of the two candidates on its side, which reads back as well and is as near
(`Nearer.exists_side`).  Half of a seventeenth digit is nearer than any midpoint, so the search
ends with the fewest digits (`exists_shortestFrom`), and the zeros that are dropped from them
change nothing.  The reader of literals rounds to the same ranks (`nearest_eq_finite_iff`), so
the result can be stated without `ReadAs`.
-/

namespace ScriptFold

namespace Double

/-- The magnitude of a rank, in ones. -/
def magnitude (rank : Nat) : ℚ :=
  unitsOfRank rank / unitsPerOne

theorem cast_twoPow (exponent : Nat) : ((2 ^ exponent : Nat) : ℚ) = 2 ^ (exponent : Int) := by
  rw [Nat.cast_pow, Nat.cast_ofNat, zpow_natCast]

theorem tenPow_le_unitsPerOne : (10 : ℚ) ^ (323 : Int) ≤ unitsPerOne := by
  rw [unitsPerOne_eq, cast_twoPow]
  exact tenPow_le_twoPow (by decide) (by decide)

theorem unitsPerOne_le_tenPow : (unitsPerOne : ℚ) ≤ 10 ^ (324 : Int) := by
  rw [unitsPerOne_eq, cast_twoPow]
  exact twoPow_le_tenPow (by decide) (by decide)

theorem rankCount_le_tenPow : (unitsOfRank rankCount : ℚ) ≤ 10 ^ (632 : Int) := by
  rw [unitsOfRank_rankCount, cast_twoPow]
  exact twoPow_le_tenPow (by decide) (by decide)

theorem unitsPerOne_pos : 0 < unitsPerOne := by
  rw [unitsPerOne_eq]
  positivity

def ReadAs (rank : Nat) (value : ℚ) : Prop :=
  Belongs rank (value * unitsPerOne)

theorem readAs_magnitude (rank : Nat) : ReadAs rank (magnitude rank) := by
  have notZero : (unitsPerOne : ℚ) ≠ 0 := by exact_mod_cast Nat.ne_of_gt unitsPerOne_pos
  rw [ReadAs, magnitude, div_mul_cancel₀ _ notZero]
  exact belongs_unitsOfRank rank

theorem magnitude_pos {rank : Nat} (positive : 0 < rank) : 0 < magnitude rank := by
  have units : (0 : ℚ) < unitsOfRank rank := by exact_mod_cast unitsOfRank_pos positive
  have ones : (0 : ℚ) < unitsPerOne := by exact_mod_cast unitsPerOne_pos
  exact div_pos units ones

theorem magnitude_strictMono : StrictMono magnitude := by
  intro rank other less
  have units : (unitsOfRank rank : ℚ) < unitsOfRank other := by
    exact_mod_cast unitsOfRank_strictMono less
  have ones : (0 : ℚ) < unitsPerOne := by exact_mod_cast unitsPerOne_pos
  exact div_lt_div_of_pos_right units ones

/-- A few digits at a power of two that is not too small are the magnitude of a rank. -/
theorem exists_magnitude {digits : Nat} (few : digits ≤ 2 * binade) {power : Int}
    (notSmall : -1074 ≤ power) : ∃ rank, magnitude rank = digits * 2 ^ power := by
  obtain ⟨shift, isShift⟩ := Int.le.dest notSmall
  obtain ⟨rank, isRank⟩ := exists_rank_of_shift few shift
  have isPower : (shift : Int) - (1074 : Nat) = power := by omega
  refine ⟨rank, ?_⟩
  rw [magnitude, isRank, unitsPerOne_eq, Nat.cast_mul, cast_twoPow, cast_twoPow, mul_div_assoc,
    ← zpow_sub₀ (by norm_num), isPower]

section ReadAs

variable {rank other : Nat} {value first second : ℚ}

theorem ReadAs.between (isFirst : ReadAs rank first) (isSecond : ReadAs rank second)
    (low : first ≤ value) (high : value ≤ second) : ReadAs rank value := by
  have ones : (0 : ℚ) ≤ unitsPerOne := by positivity
  exact Belongs.between isFirst isSecond (mul_le_mul_of_nonneg_right low ones)
    (mul_le_mul_of_nonneg_right high ones)

/-- What is read as a rank lies between the magnitudes of the ranks below and above. -/
theorem ReadAs.lt_magnitude (reads : ReadAs rank value) (less : rank < other) :
    value < magnitude other := by
  by_contra reached
  have both := (readAs_magnitude rank).between reads (magnitude_strictMono less).le
    (not_lt.mp reached)
  exact Nat.ne_of_lt less (Belongs.unique both (readAs_magnitude other))

private theorem ReadAs.magnitude_lt (reads : ReadAs rank value) (less : other < rank) :
    magnitude other < value := by
  by_contra reached
  have both := reads.between (readAs_magnitude rank) (not_lt.mp reached)
    (magnitude_strictMono less).le
  exact Nat.ne_of_gt less (Belongs.unique both (readAs_magnitude other))

/-- It is on the same side of a few digits at a power of two as the magnitude of its rank. -/
theorem ReadAs.lt_twoPow {digits : Nat} {power : Int} (reads : ReadAs rank value)
    (few : digits ≤ 2 * binade) (notSmall : -1074 ≤ power)
    (less : magnitude rank < digits * 2 ^ power) : value < digits * 2 ^ power := by
  obtain ⟨other, isOther⟩ := exists_magnitude few notSmall
  rw [← isOther] at less ⊢
  exact reads.lt_magnitude (magnitude_strictMono.lt_iff_lt.mp less)

theorem ReadAs.twoPow_lt {digits : Nat} {power : Int} (reads : ReadAs rank value)
    (few : digits ≤ 2 * binade) (notSmall : -1074 ≤ power)
    (less : digits * 2 ^ power < magnitude rank) : digits * 2 ^ power < value := by
  obtain ⟨other, isOther⟩ := exists_magnitude few notSmall
  rw [← isOther] at less ⊢
  exact reads.magnitude_lt (magnitude_strictMono.lt_iff_lt.mp less)

/-- Where doubles are no further apart than one, what is read as a whole number lies between the
whole numbers around it. -/
theorem ReadAs.around_whole {n : Nat} (reads : ReadAs rank value) (small : n < 2 * binade)
    (isWhole : magnitude rank = n) :
    (∀ less : Nat, less < n → (less : ℚ) < value) ∧ value < n + 1 := by
  constructor
  · intro less isLess
    have below := @ReadAs.twoPow_lt rank value less 0 reads (by omega) (by decide)
    rw [zpow_zero, mul_one, isWhole] at below
    exact below (by exact_mod_cast isLess)
  · have above := @ReadAs.lt_twoPow rank value (n + 1) 0 reads small (by decide)
    rw [zpow_zero, mul_one, isWhole, Nat.cast_succ] at above
    exact above (lt_add_one _)

theorem not_readAs_zero (positive : 0 < rank) : ¬ ReadAs rank 0 := by
  intro reads
  have low := reads.low
  have units : (0 : ℚ) < unitsOfRank rank := by exact_mod_cast unitsOfRank_pos positive
  have before : (0 : ℚ) ≤ unitsOfRank (rank - 1) := by positivity
  linarith

/-- Half of a seventeenth digit is near enough. -/
theorem readAs_of_near (positive : 0 < rank)
    (near : |value - magnitude rank| * 2 ^ 54 < magnitude rank) : ReadAs rank value := by
  have ones : (0 : ℚ) < unitsPerOne := by exact_mod_cast unitsPerOne_pos
  have units : magnitude rank * unitsPerOne = unitsOfRank rank :=
    div_mul_cancel₀ _ (ne_of_gt ones)
  refine belongs_of_near positive ?_
  rw [← units, ← sub_mul, abs_mul, abs_of_pos ones, mul_right_comm]
  exact mul_lt_mul_of_pos_right near ones

/-- What is read as a positive rank is not less than half of a unit. -/
theorem ReadAs.low (reads : ReadAs rank value) (positive : 0 < rank) :
    1 ≤ 2 * (value * unitsPerOne) := by
  have isLow := Belongs.low reads
  have before : (0 : ℚ) ≤ unitsOfRank (rank - 1) := by positivity
  have unit : (1 : ℚ) ≤ unitsOfRank rank := by exact_mod_cast unitsOfRank_pos positive
  linarith

/-- What is read as a finite rank is not more than the first magnitude that is not finite. -/
theorem ReadAs.high (reads : ReadAs rank value) (bounded : rank < rankCount) :
    value * unitsPerOne ≤ unitsOfRank rankCount := by
  have isHigh := Belongs.high reads
  have own : (unitsOfRank rank : ℚ) ≤ unitsOfRank rankCount := by
    exact_mod_cast (unitsOfRank_strictMono bounded).le
  have next : (unitsOfRank (rank + 1) : ℚ) ≤ unitsOfRank rankCount := by
    exact_mod_cast unitsOfRank_strictMono.monotone (Nat.succ_le_of_lt bounded)
  linarith

/-- The midpoints are compared in natural numbers. -/
theorem readsBack_iff {digits : Nat} {power : Int} :
    readsBack rank digits power = true ↔ ReadAs rank (scientific digits power) := by
  have isScaled := @scaleByTen_eq (digits * (2 * unitsPerOne)) 1 Nat.one_pos power
  have isPositive : (0 : ℚ) < (scaleByTen (digits * (2 * unitsPerOne)) 1 power).2 := by
    exact_mod_cast scaleByTen_pos Nat.one_pos power
  have isTwice : 2 * (scientific digits power * unitsPerOne) =
      ((scaleByTen (digits * (2 * unitsPerOne)) 1 power).1 /
        (scaleByTen (digits * (2 * unitsPerOne)) 1 power).2 : ℚ) := by
    rw [isScaled, scientific]
    push_cast
    ring
  rw [ReadAs, belongs_iff, isTwice, le_div_iff₀ isPositive, div_le_iff₀ isPositive,
    lt_div_iff₀ isPositive, div_lt_iff₀ isPositive]
  norm_cast
  simp only [readsBack]
  split
  case isTrue even => simp [even]
  case isFalse odd =>
    have isOdd : rank % 2 = 1 := by omega
    simp only [isOdd, Bool.and_eq_true, decide_eq_true_eq, forall_const]
    omega

/-- The decimals that are read as a finite rank have their point within bounds. -/
theorem ReadAs.point_bounds {digits : Nat} {power : Int}
    (reads : ReadAs rank (scientific digits power)) (positive : 0 < rank)
    (bounded : rank < rankCount) :
    -400 ≤ decimalWidth digits + power ∧ decimalWidth digits + power ≤ 400 := by
  have notZero : digits ≠ 0 := by
    rintro rfl
    rw [scientific_zero] at reads
    exact not_readAs_zero positive reads
  obtain ⟨isLow, isHigh⟩ := scientific_bounds notZero power
  have ones : (0 : ℚ) < unitsPerOne := by exact_mod_cast unitsPerOne_pos
  constructor
  · by_contra small
    have less : scientific digits power * unitsPerOne < 10 ^ (-1 : Int) := by
      calc scientific digits power * unitsPerOne
          < 10 ^ (decimalWidth digits + power) * unitsPerOne := mul_lt_mul_of_pos_right isHigh ones
        _ ≤ 10 ^ (decimalWidth digits + power) * 10 ^ (324 : Int) :=
          mul_le_mul_of_nonneg_left unitsPerOne_le_tenPow (by positivity)
        _ = 10 ^ (decimalWidth digits + power + 324) := by rw [← zpow_add₀ (by norm_num)]
        _ ≤ 10 ^ (-1 : Int) := zpow_le_zpow_right₀ (by norm_num) (by omega)
    have half := reads.low positive
    norm_num at less
    linarith
  · by_contra large
    have more : (10 : ℚ) ^ (decimalWidth digits + power - 1 + 323) ≤ 10 ^ (632 : Int) := by
      calc (10 : ℚ) ^ (decimalWidth digits + power - 1 + 323)
          = 10 ^ (decimalWidth digits + power - 1) * 10 ^ (323 : Int) :=
            zpow_add₀ (by norm_num) _ _
        _ ≤ scientific digits power * unitsPerOne :=
          mul_le_mul isLow tenPow_le_unitsPerOne (by positivity) (scientific_nonneg _ _)
        _ ≤ unitsOfRank rankCount := reads.high bounded
        _ ≤ 10 ^ (632 : Int) := rankCount_le_tenPow
    rw [zpow_le_zpow_iff_right₀ (by norm_num)] at more
    omega

end ReadAs

/-- A fraction is a natural number and a part. -/
theorem exists_part (numerator : Nat) {denominator : Nat} (positive : 0 < denominator) :
    ∃ part : ℚ, (numerator / denominator : ℚ) = (numerator / denominator : Nat) + part ∧
      0 ≤ part ∧ part < 1 ∧
      (2 * (numerator % denominator) < denominator ↔ 2 * part < 1) ∧
      (denominator < 2 * (numerator % denominator) ↔ 1 < 2 * part) := by
  have isPositive : (0 : ℚ) < denominator := by exact_mod_cast positive
  have whole : (numerator : ℚ) =
      (numerator / denominator : Nat) * denominator + (numerator % denominator : Nat) := by
    exact_mod_cast (Nat.div_add_mod' numerator denominator).symm
  refine ⟨(numerator % denominator : Nat) / denominator, ?_, by positivity, ?_, ?_, ?_⟩
  · rw [whole]
    field_simp
  · rw [div_lt_one isPositive]
    exact_mod_cast Nat.mod_lt numerator positive
  · rw [← mul_div_assoc, div_lt_one isPositive]
    exact_mod_cast Iff.rfl
  · rw [← mul_div_assoc, one_lt_div isPositive]
    exact_mod_cast Iff.rfl

/-- The two multiples of a power of ten around a value, of which the first is the nearer one. -/
structure Nearer (value : ℚ) (power : Int) (below first second : Nat) : Prop where
  low : scientific below power ≤ value
  high : value < scientific (below + 1) power
  around : first = below ∧ second = below + 1 ∨ first = below + 1 ∧ second = below
  nearer : |scientific first power - value| ≤ |scientific second power - value|
  half : |scientific first power - value| * 2 ≤ 10 ^ power

/-- The natural numbers around a fraction, multiplied by a power of ten. -/
theorem exists_nearer (numerator : Nat) {denominator : Nat} (positive : 0 < denominator)
    {value : ℚ} {power : Int} (isValue : (numerator / denominator : ℚ) * 10 ^ power = value) :
    ∃ first second : Nat,
      (if 2 * (numerator % denominator) < denominator then
          [numerator / denominator, numerator / denominator + 1]
        else if denominator < 2 * (numerator % denominator) then
          [numerator / denominator + 1, numerator / denominator]
        else if numerator / denominator % 2 = 0 then
          [numerator / denominator, numerator / denominator + 1]
        else [numerator / denominator + 1, numerator / denominator]) = [first, second] ∧
      Nearer value power (numerator / denominator) first second := by
  obtain ⟨part, isRatio, notNegative, small, before, behind⟩ := exists_part numerator positive
  have tens : (0 : ℚ) < 10 ^ power := by positivity
  generalize numerator / denominator = below at *
  have difference : value - scientific below power = part * 10 ^ power := by
    rw [← isValue, isRatio, scientific]
    ring
  have next : scientific (below + 1) power = scientific below power + 10 ^ power := by
    simp only [scientific]
    push_cast
    ring
  have low : 0 ≤ part * (10 : ℚ) ^ power := mul_nonneg notNegative tens.le
  have high : part * (10 : ℚ) ^ power < 10 ^ power := by
    nlinarith
  have distance : |scientific below power - value| = part * 10 ^ power := by
    rw [abs_sub_comm, difference, abs_of_nonneg low]
  have distanceNext : |scientific (below + 1) power - value| = 10 ^ power - part * 10 ^ power := by
    rw [next, abs_of_pos (by linarith)]
    linarith
  have downward (isNear : 2 * part ≤ 1) : Nearer value power below below (below + 1) := by
    have twice : 2 * part * 10 ^ power ≤ (10 : ℚ) ^ power := mul_le_of_le_one_left tens.le isNear
    refine ⟨by linarith, by linarith, .inl ⟨rfl, rfl⟩, ?_, ?_⟩
    · rw [distance, distanceNext]
      linarith
    · rw [distance]
      linarith
  have upward (isNear : 1 ≤ 2 * part) : Nearer value power below (below + 1) below := by
    have twice : (10 : ℚ) ^ power ≤ 2 * part * 10 ^ power := le_mul_of_one_le_left tens.le isNear
    refine ⟨by linarith, by linarith, .inr ⟨rfl, rfl⟩, ?_, ?_⟩
    · rw [distance, distanceNext]
      linarith
    · rw [distanceNext]
      linarith
  split
  case isTrue isBefore => exact ⟨_, _, rfl, downward (before.mp isBefore).le⟩
  case isFalse notBefore =>
    rw [before, not_lt] at notBefore
    split
    case isTrue isBehind => exact ⟨_, _, rfl, upward (behind.mp isBehind).le⟩
    case isFalse notBehind =>
      rw [behind, not_lt] at notBehind
      split
      · exact ⟨_, _, rfl, downward notBehind⟩
      · exact ⟨_, _, rfl, upward notBefore⟩

section Width

variable {rank : Nat} (positive : 0 < rank) {exponent : Int} {count : Nat}
include positive

/-- A candidate is taken if it reads back, for zero does not read back as a positive rank. -/
theorem candidate_iff (digits : Nat) (power : Int) :
    (decide (digits ≠ 0) && readsBack rank digits power) = true ↔
      ReadAs rank (scientific digits power) := by
  rw [Bool.and_eq_true, decide_eq_true_eq, readsBack_iff]
  refine and_iff_right_of_imp fun reads isZero => not_readAs_zero positive ?_
  rwa [isZero, scientific_zero] at reads

/-- The decimal of a number of digits is the nearer one around a magnitude, if that reads back,
and the other one, if only that does. -/
theorem exists_candidates : ∃ below first second : Nat,
    Nearer (magnitude rank) (exponent - count + 1) below first second ∧
    (ReadAs rank (scientific first (exponent - count + 1)) →
      decimalOfWidth? rank exponent count =
        some ⟨first, exponent - count + 1 + decimalWidth first⟩) ∧
    (¬ ReadAs rank (scientific first (exponent - count + 1)) →
      (ReadAs rank (scientific second (exponent - count + 1)) →
        decimalOfWidth? rank exponent count =
          some ⟨second, exponent - count + 1 + decimalWidth second⟩) ∧
      (¬ ReadAs rank (scientific second (exponent - count + 1)) →
        decimalOfWidth? rank exponent count = none)) := by
  have ones := unitsPerOne_pos
  have isValue : ((scaleByTen (unitsOfRank rank) unitsPerOne (-(exponent - count + 1))).1 /
      (scaleByTen (unitsOfRank rank) unitsPerOne (-(exponent - count + 1))).2 : ℚ) *
        10 ^ (exponent - count + 1) = magnitude rank := by
    rw [scaleByTen_eq ones, mul_assoc, ← zpow_add₀ (by norm_num), Int.add_left_neg, zpow_zero,
      mul_one, magnitude]
  obtain ⟨first, second, isPair, nearer⟩ := exists_nearer _ (scaleByTen_pos ones _) isValue
  refine ⟨_, first, second, nearer, ?_⟩
  simp only [decimalOfWidth?, isPair, List.find?_cons, List.find?_nil]
  refine ⟨fun reads => ?_, fun fails => ⟨fun reads => ?_, fun bothFail => ?_⟩⟩
  · simp only [(candidate_iff positive _ _).mpr reads, Option.map_some]
  · rw [← candidate_iff positive, Bool.not_eq_true] at fails
    simp only [fails, (candidate_iff positive _ _).mpr reads, Option.map_some]
  · rw [← candidate_iff positive, Bool.not_eq_true] at fails bothFail
    simp only [fails, bothFail, Option.map_none]

end Width

section Grid

variable {value : ℚ} {exponent power : Int} {below first second count digits : Nat}
  (nearer : Nearer value (exponent - count + 1) below first second)
include nearer

/-- The candidates have no more digits than asked for, apart from the power of ten that follows
the greatest of them. -/
theorem Nearer.first_le (high : value < 10 ^ (exponent + 1)) :
    first ≤ 10 ^ count ∧ second ≤ 10 ^ count := by
  have tens : (0 : ℚ) < 10 ^ (exponent - count + 1) := by positivity
  have isPower : (10 : ℚ) ^ (exponent + 1) = 10 ^ count * 10 ^ (exponent - count + 1) := by
    rw [← zpow_natCast, ← zpow_add₀ (by norm_num)]
    congr 1
    ring
  have fits : below < 10 ^ count := by
    have less := lt_of_le_of_lt nearer.low high
    rw [isPower, scientific] at less
    exact_mod_cast lt_of_mul_lt_mul_right less tens.le
  rcases nearer.around with ⟨rfl, rfl⟩ | ⟨rfl, rfl⟩
  · exact ⟨fits.le, fits⟩
  · exact ⟨fits, fits.le⟩

/-- No decimal of so many digits lies between the candidates: either it is a multiple of their
power of ten, or it is below all numbers of the decimal exponent. -/
theorem Nearer.not_between (low : 10 ^ exponent ≤ value) (some : 0 < count)
    (fits : digits < 10 ^ count) :
    scientific digits power ≤ scientific below (exponent - count + 1) ∨
      scientific (below + 1) (exponent - count + 1) ≤ scientific digits power := by
  rcases Int.lt_or_le power (exponent - count + 1) with isFiner | isMultiple
  · have tens : (0 : ℚ) < 10 ^ (exponent - count + 1) := by positivity
    obtain ⟨places, rfl⟩ := Nat.exists_eq_succ_of_ne_zero (Nat.ne_of_gt some)
    have isPower : (10 : ℚ) ^ exponent = scientific (10 ^ places) (exponent - places.succ + 1) := by
      rw [scientific, Nat.cast_pow, Nat.cast_ofNat, ← zpow_natCast, ← zpow_add₀ (by norm_num)]
      congr 1
      push_cast
      ring
    have reached : 10 ^ places ≤ below := by
      have less := lt_of_le_of_lt low nearer.high
      rw [isPower, scientific, scientific] at less
      exact Nat.le_of_lt_succ (by exact_mod_cast lt_of_mul_lt_mul_right less tens.le)
    left
    calc scientific digits power ≤ 10 ^ places.succ * 10 ^ power := by
          rw [scientific]
          gcongr
          exact_mod_cast fits.le
      _ = 10 ^ (places.succ + power) := by rw [← zpow_natCast, ← zpow_add₀ (by norm_num)]
      _ ≤ 10 ^ exponent := zpow_le_zpow_right₀ (by norm_num) (by omega)
      _ = scientific (10 ^ places) (exponent - places.succ + 1) := isPower
      _ ≤ scientific below (exponent - places.succ + 1) := scientific_le reached _
  · obtain ⟨places, isPlaces⟩ := Int.le.dest isMultiple
    have multiple : scientific digits power =
        scientific (digits * 10 ^ places) (exponent - count + 1) := by
      rw [scientific_mul_tenPow, isPlaces]
    rw [multiple]
    rcases Nat.lt_or_ge below (digits * 10 ^ places) with isHigh | isLow
    · exact .inr (scientific_le isHigh _)
    · exact .inl (scientific_le isLow _)

end Grid

/-- A number that reads back and is not between the candidates has one of them on its side,
which reads back too and is as near. -/
theorem Nearer.exists_side {rank : Nat} {value : ℚ} {power : Int} {below first second : Nat}
    (nearer : Nearer (magnitude rank) power below first second) (reads : ReadAs rank value)
    (apart : value ≤ scientific below power ∨ scientific (below + 1) power ≤ value) :
    ∃ candidate, (candidate = first ∨ candidate = second) ∧
      ReadAs rank (scientific candidate power) ∧
      |scientific candidate power - magnitude rank| ≤ |value - magnitude rank| := by
  have own := readAs_magnitude rank
  have isLow := nearer.low
  have isHigh := nearer.high.le
  rcases apart with isBelow | isAbove
  · refine ⟨below, ?_, reads.between own isBelow isLow, ?_⟩
    · have around := nearer.around
      omega
    · rw [abs_sub_comm, abs_of_nonneg (by linarith), abs_sub_comm, abs_of_nonneg (by linarith)]
      linarith
  · refine ⟨below + 1, ?_, own.between reads isHigh isAbove, ?_⟩
    · have around := nearer.around
      omega
    · rw [abs_of_nonneg (by linarith), abs_of_nonneg (by linarith)]
      linarith

/-- What is found reads back, and has no more digits than asked for, or is the power of ten
after them. -/
theorem reads_of_decimalOfWidth? {rank : Nat} (positive : 0 < rank) {exponent : Int}
    (high : magnitude rank < 10 ^ (exponent + 1)) {count : Nat} {decimal : Decimal}
    (isFound : decimalOfWidth? rank exponent count = some decimal) :
    ReadAs rank (scientific decimal.digits (exponent - count + 1)) ∧
      decimal.digits ≤ 10 ^ count ∧
      decimal.point = exponent - count + 1 + decimalWidth decimal.digits := by
  obtain ⟨below, first, second, nearer, ifFirst, ifOther⟩ :=
    @exists_candidates rank positive exponent count
  have fits := nearer.first_le high
  by_cases firstReads : ReadAs rank (scientific first (exponent - count + 1))
  · rw [ifFirst firstReads, Option.some.injEq] at isFound
    rw [← isFound]
    exact ⟨firstReads, fits.1, rfl⟩
  · by_cases secondReads : ReadAs rank (scientific second (exponent - count + 1))
    · rw [(ifOther firstReads).1 secondReads, Option.some.injEq] at isFound
      rw [← isFound]
      exact ⟨secondReads, fits.2, rfl⟩
    · rw [(ifOther firstReads).2 secondReads] at isFound
      cases isFound

section Found

variable {rank : Nat} (positive : 0 < rank) {exponent : Int}
  (low : 10 ^ exponent ≤ magnitude rank)
include positive low

/-- If a decimal of so many digits reads back, then one is found, and it is as near as that. -/
theorem decimalOfWidth?_best {count digits : Nat} {power : Int} (some : 0 < count)
    (fits : digits < 10 ^ count) (reads : ReadAs rank (scientific digits power)) :
    ∃ found, decimalOfWidth? rank exponent count =
        .some ⟨found, exponent - count + 1 + decimalWidth found⟩ ∧
      |scientific found (exponent - count + 1) - magnitude rank| ≤
        |scientific digits power - magnitude rank| := by
  obtain ⟨below, first, second, nearer, ifFirst, ifOther⟩ :=
    @exists_candidates rank positive exponent count
  obtain ⟨candidate, isCandidate, candidateReads, isNear⟩ :=
    nearer.exists_side reads (nearer.not_between low some fits)
  by_cases firstReads : ReadAs rank (scientific first (exponent - count + 1))
  · refine ⟨first, ifFirst firstReads, ?_⟩
    rcases isCandidate with rfl | rfl
    · exact isNear
    · exact nearer.nearer.trans isNear
  · rcases isCandidate with rfl | rfl
    · exact absurd candidateReads firstReads
    · exact ⟨_, (ifOther firstReads).1 candidateReads, isNear⟩

/-- Seventeen digits are always enough. -/
theorem decimalOfWidth?_seventeen : (decimalOfWidth? rank exponent 17).isSome = true := by
  obtain ⟨below, first, second, nearer, ifFirst, -⟩ :=
    @exists_candidates rank positive exponent 17
  have isPower : (10 : ℚ) ^ exponent = 10 ^ 16 * 10 ^ (exponent - (17 : Nat) + 1) := by
    rw [← zpow_natCast, ← zpow_add₀ (by norm_num)]
    congr 1
    push_cast
    ring
  have tens : (0 : ℚ) < 10 ^ (exponent - (17 : Nat) + 1) := by positivity
  have half := nearer.half
  rw [isPower] at low
  rw [ifFirst (readAs_of_near positive (by linarith))]
  rfl

end Found

/-- The search ends with the fewest digits for which a decimal is found. -/
theorem exists_shortestFrom {rank : Nat} {exponent : Int} {tries count last : Nat}
    (first : count ≤ last) (within : last < count + tries)
    (isSome : (decimalOfWidth? rank exponent last).isSome = true) :
    ∃ fewest, decimalOfWidth? rank exponent fewest = some (shortestFrom rank exponent tries count) ∧
      count ≤ fewest ∧ fewest ≤ last ∧
      ∀ fewer, count ≤ fewer → fewer < fewest → decimalOfWidth? rank exponent fewer = none := by
  induction tries generalizing count with
  | zero => omega
  | succ tries induction =>
      rw [shortestFrom]
      cases isFound : decimalOfWidth? rank exponent count with
      | some decimal =>
          refine ⟨count, isFound, Nat.le_refl count, first, fun fewer least less => ?_⟩
          exact absurd least (Nat.not_le_of_lt less)
      | none =>
          have notLast : count ≠ last := by
            rintro rfl
            rw [isFound] at isSome
            cases isSome
          obtain ⟨fewest, isFewest, least, greatest, noFewer⟩ :=
            induction (Nat.lt_of_le_of_ne first notLast) (by omega)
          refine ⟨fewest, isFewest, Nat.le_of_succ_le least, greatest, fun fewer isLeast less => ?_⟩
          rcases Nat.eq_or_lt_of_le isLeast with rfl | later
          · exact isFound
          · exact noFewer fewer later less

/-- Dropping zeros takes a power of ten off, and leaves no zero at the end. -/
theorem exists_dropZeros {fuel digits : Nat} (notZero : digits ≠ 0) (fits : digits < 10 ^ fuel) :
    ∃ zeros, digits = dropZeros fuel digits * 10 ^ zeros ∧ dropZeros fuel digits % 10 ≠ 0 := by
  induction fuel generalizing digits with
  | zero => omega
  | succ fuel induction =>
      rw [dropZeros]
      split
      case isTrue divides =>
        simp only [ne_eq, decide_not, Bool.and_eq_true, Bool.not_eq_true', decide_eq_false_iff_not,
          decide_eq_true_eq] at divides
        rw [Nat.pow_succ] at fits
        obtain ⟨zeros, isRest, noZero⟩ := @induction (digits / 10) (by omega) (by omega)
        refine ⟨zeros + 1, ?_, noZero⟩
        rw [Nat.pow_succ, ← Nat.mul_assoc, ← isRest]
        omega
      case isFalse ends =>
        refine ⟨0, by simp, fun isZero => ends ?_⟩
        simp [notZero, isZero]

end Double

def Decimal.value (decimal : Decimal) : ℚ :=
  scientific decimal.digits (decimal.point - decimalWidth decimal.digits)

namespace Double

/-- Without its zeros a decimal is the same number, and has no more digits than were tried. -/
theorem dropZeros_spec {found : Decimal} {exponent : Int} {count : Nat} (some : 0 < count)
    (few : count ≤ 17) (notZero : found.digits ≠ 0) (fits : found.digits ≤ 10 ^ count)
    (isPoint : found.point = exponent - count + 1 + decimalWidth found.digits) :
    dropZeros 20 found.digits % 10 ≠ 0 ∧
      Decimal.value ⟨dropZeros 20 found.digits, found.point⟩ =
        scientific found.digits (exponent - count + 1) ∧
      decimalWidth (dropZeros 20 found.digits) ≤ count := by
  have enough : found.digits < 10 ^ 20 := by
    calc found.digits ≤ 10 ^ count := fits
      _ ≤ 10 ^ 17 := Nat.pow_le_pow_right (by decide) few
      _ < 10 ^ 20 := by norm_num
  obtain ⟨zeros, isDropped, noZero⟩ := exists_dropZeros notZero enough
  generalize dropZeros 20 found.digits = digits at *
  have digitsNotZero : digits ≠ 0 := fun isZero => noZero (by rw [isZero])
  refine ⟨noZero, ?_, ?_⟩
  · have power : found.point - decimalWidth digits = exponent - count + 1 + zeros := by
      rw [isPoint, isDropped, decimalWidth_mul_tenPow digitsNotZero]
      push_cast
      ring
    rw [Decimal.value, power, isDropped, scientific_mul_tenPow]
  · rw [decimalWidth_le_iff some]
    have within : digits ≤ 10 ^ count :=
      Nat.le_trans (isDropped ▸ Nat.le_mul_of_pos_right digits (by positivity)) fits
    -- the power of ten itself would end in a zero
    refine Nat.lt_of_le_of_ne within fun isPower => noZero ?_
    rw [isPower]
    exact Nat.mod_eq_zero_of_dvd (dvd_pow_self 10 (Nat.ne_of_gt some))

section Shortest

variable {rank : Nat} (positive : 0 < rank) (bounded : rank < rankCount)
include positive bounded

private theorem decimalExponent_magnitude :
    (10 : ℚ) ^ decimalExponent (unitsOfRank rank) unitsPerOne ≤ magnitude rank ∧
      magnitude rank < 10 ^ (decimalExponent (unitsOfRank rank) unitsPerOne + 1) := by
  refine decimalExponent_bounds (unitsOfRank_pos positive) unitsPerOne_pos ?_
  have notZero := Nat.ne_of_gt (unitsOfRank_pos positive)
  have bits : (unitsOfRank rank).log2 < 2098 := by
    have units := unitsOfRank_lt bounded
    rw [Nat.log2_eq_log_two]
    generalize 2098 = width at units ⊢
    exact Nat.log_lt_of_lt_pow notZero units
  have ones : unitsPerOne.log2 = 1074 := by
    rw [unitsPerOne_eq, Nat.log2_two_pow]
  omega

/-- The shortest decimal ends in no zero and reads back.  No decimal of fewer digits reads
back, and none of as many digits is nearer. -/
theorem shortest_spec : (shortest rank).digits % 10 ≠ 0 ∧ ReadAs rank (shortest rank).value ∧
    ∀ digits power, ReadAs rank (scientific digits power) →
      decimalWidth (shortest rank).digits ≤ decimalWidth digits ∧
      (decimalWidth digits = decimalWidth (shortest rank).digits →
        |(shortest rank).value - magnitude rank| ≤
          |scientific digits power - magnitude rank|) := by
  obtain ⟨low, high⟩ := decimalExponent_magnitude positive bounded
  unfold shortest
  simp only
  generalize decimalExponent (unitsOfRank rank) unitsPerOne = exponent at *
  obtain ⟨fewest, isFound, least, greatest, noFewer⟩ := exists_shortestFrom
    (show 1 ≤ 17 by decide) (show 17 < 1 + 17 by decide) (decimalOfWidth?_seventeen positive low)
  obtain ⟨reads, fits, isPoint⟩ := reads_of_decimalOfWidth? positive high isFound
  generalize shortestFrom rank exponent 17 1 = found at *
  have notZero : found.digits ≠ 0 := by
    intro isZero
    rw [isZero, scientific_zero] at reads
    exact not_readAs_zero positive reads
  obtain ⟨noZero, isValue, width⟩ := dropZeros_spec least greatest notZero fits isPoint
  rw [isValue]
  refine ⟨noZero, reads, fun other power otherReads => ⟨?_, fun sameWidth => ?_⟩⟩
  · by_contra shorter
    obtain ⟨better, isBetter, -⟩ := decimalOfWidth?_best positive low (decimalWidth_pos other)
      (lt_tenPow_decimalWidth other) otherReads
    rw [noFewer _ (decimalWidth_pos other) (by omega)] at isBetter
    cases isBetter
  · have otherFits : other < 10 ^ fewest := (decimalWidth_le_iff least).mp (by omega)
    obtain ⟨best, isBest, near⟩ := decimalOfWidth?_best positive low least otherFits otherReads
    rw [isFound, Option.some.injEq] at isBest
    rw [isBest]
    exact near

end Shortest

section Reader

variable {rank : Fin rankCount} {negative : Bool}

theorem ofRatio_eq_finite_iff {numerator denominator : Nat} (notZero : 0 < denominator) :
    ofRatio negative numerator denominator = .finite negative rank ↔
      ReadAs rank (numerator / denominator) := by
  rw [ofRatio, ofUnits, ofRank_eq_finite_iff, nearestRank_eq_iff notZero, ReadAs]
  push_cast
  rw [mul_div_right_comm]

/-- The reader of literals reads a decimal as the double to which its value belongs. -/
theorem nearest_eq_finite_iff (positive : 0 < rank.val) {digits : Nat} {power : Int} :
    Numeral.nearest negative digits power = .finite negative rank ↔
      ReadAs rank (scientific digits power) := by
  have bounds (reads : ReadAs rank (scientific digits power)) :=
    reads.point_bounds positive rank.isLt
  have width : decimalWidth digits = (Nat.toDigits 10 digits).length := rfl
  simp only [Numeral.nearest]
  split
  case isTrue small =>
    refine iff_of_false ?_ ?_
    · rw [ofRank_eq_finite_iff]
      omega
    · intro reads
      rcases small with isZero | isSmall
      · rw [isZero, scientific_zero] at reads
        exact not_readAs_zero positive reads
      · have := bounds reads
        omega
  case isFalse =>
    split
    case isTrue large =>
      refine iff_of_false nofun fun reads => ?_
      have := bounds reads
      omega
    case isFalse =>
      split
      case isTrue isPower =>
        obtain ⟨exponent, rfl⟩ := Int.eq_ofNat_of_zero_le isPower
        rw [ofRatio_eq_finite_iff Nat.one_pos, Nat.cast_one, div_one, scientific,
          Int.toNat_natCast, Nat.pow_eq, zpow_natCast]
        push_cast
        rfl
      case isFalse isInverse =>
        obtain ⟨exponent, rfl⟩ : ∃ n : Nat, power = -n := ⟨(-power).toNat, by omega⟩
        rw [Int.neg_neg, Int.toNat_natCast, Nat.pow_eq,
          ofRatio_eq_finite_iff (Nat.pow_pos (by decide)), scientific, zpow_neg,
          zpow_natCast, ← div_eq_mul_inv]
        push_cast
        rfl

end Reader

/-- The decimal is read as a positive rank and ends in no zero.  No decimal of fewer digits is
read as the rank, and none of as many digits is nearer to its magnitude. -/
structure IsShortest (rank : Fin rankCount) (decimal : Decimal) : Prop where
  noZero : decimal.digits % 10 ≠ 0
  reads : Numeral.nearest false decimal.digits (decimal.point - decimalWidth decimal.digits) =
    .finite false rank
  fewest : ∀ digits power, Numeral.nearest false digits power = .finite false rank →
    decimalWidth decimal.digits ≤ decimalWidth digits
  nearest : ∀ digits power, Numeral.nearest false digits power = .finite false rank →
    decimalWidth digits = decimalWidth decimal.digits →
    |decimal.value - magnitude rank| ≤ |scientific digits power - magnitude rank|

theorem shortest_isShortest {rank : Fin rankCount} (positive : 0 < rank.val) :
    IsShortest rank (shortest rank) := by
  obtain ⟨noZero, reads, best⟩ := shortest_spec positive rank.isLt
  refine ⟨noZero, (nearest_eq_finite_iff positive).mpr reads, ?_, ?_⟩
  · intro digits power isRead
    exact (best digits power ((nearest_eq_finite_iff positive).mp isRead)).1
  · intro digits power isRead
    exact (best digits power ((nearest_eq_finite_iff positive).mp isRead)).2

end Double

end ScriptFold
