import ScriptFold.Proofs.Number.Shortest
import ScriptFold.Proofs.Token.Literal

/-!
# Texts of doubles

A decimal is written in one of four layouts, each of which puts its digits into the parts of an
unsigned decimal (`Decimal.exists_parts`), so that the text denotes the decimal and is one token.
Whole numbers below a limit take a way of their own: they are written with all their digits, and
these are not always those of the shortest decimal.
-/

namespace ScriptFold

namespace Numeral

/-- The number that a text writes as a decimal, without the rounding of the reader. -/
def rational? (text : Text) : Option ℚ := do
  let (negative, body) := splitSign text
  let (whole, rest) := spanDecimals body
  let (fraction, rest) := spanFraction rest
  guard (whole ≠ [] ∨ fraction ≠ [])
  let exponent ← exponent? rest
  let value := scientific (ofDigits 10 (whole ++ fraction)) (exponent - fraction.length)
  return if negative then -value else value

def Parts.value (parts : Parts) : ℚ :=
  scientific (ofDigits 10 (parts.whole ++ parts.fraction))
    (parts.exponent.getD 0 - parts.fraction.length)

theorem Parts.value_eq {parts : Parts} {digits : Nat} {power : Int}
    (isDigits : ofDigits 10 (parts.whole ++ parts.fraction) = digits)
    (isPower : parts.exponent.getD 0 - parts.fraction.length = power) :
    parts.value = scientific digits power := by
  rw [Parts.value, isDigits, isPower]

/-- The parts are read as what they write, with the sign that stands in front. -/
theorem Parts.rational?_signed (parts : Parts) (negative : Bool) :
    rational? ((if negative then [.char '-'] else []) ++ parts.text) =
      some (if negative then -parts.value else parts.value) := by
  have split : splitSign ((if negative then [.char '-'] else []) ++ parts.text) =
      (negative, parts.text) := by
    cases negative with
    | false => exact splitSign_of_unsigned parts.text_unsigned
    | true => rfl
  have span : spanDecimals parts.text = (parts.whole, parts.fractionText ++ parts.exponentText) :=
    spanDecimals_textOf parts.whole_lt (parts.fractionText_stops rfl rfl)
  simp only [rational?, split, span, parts.spanFraction_fractionText, parts.exponent?_exponentText,
    guard_pos (.inl parts.notEmpty : parts.whole ≠ [] ∨ parts.fraction ≠ [])]
  rfl

theorem ofDigits_append_zeros (digits : List Nat) (count : Nat) :
    ofDigits 10 (digits ++ List.replicate count 0) = ofDigits 10 digits * 10 ^ count := by
  induction count with
  | zero => simp
  | succ count induction =>
      rw [List.replicate_succ', ← List.append_assoc, ofDigits_concat, induction, Nat.pow_succ,
        Nat.mul_assoc, Nat.add_zero]

theorem ofDigits_zeros_append (digits : List Nat) (count : Nat) :
    ofDigits 10 (List.replicate count 0 ++ digits) = ofDigits 10 digits := by
  induction count with
  | zero => rfl
  | succ count induction =>
      rw [← induction]
      rfl

end Numeral

theorem ofString_zeros (count : Int) :
    Text.ofString (zeros count) = Numeral.textOf (List.replicate count.toNat 0) := by
  have isText := Numeral.ofString_ofList_digits (List.replicate count.toNat 0)
  rwa [List.map_replicate] at isText

namespace Decimal

open Numeral

section Layouts

variable {digits : List Nat} {point : Int} (notEmpty : digits ≠ [])
  (areDigits : ∀ digit ∈ digits, digit < 10)
include notEmpty areDigits

/-- All digits stand before the point, with zeros up to it. -/
theorem exists_parts_whole (large : digits.length ≤ point) :
    ∃ parts : Parts, parts.text =
        textOf digits ++ textOf (List.replicate (point - digits.length).toNat 0) ∧
      parts.value = scientific (ofDigits 10 digits) (point - digits.length) ∧
      parts.exponent = none := by
  obtain ⟨count, isCount⟩ := Int.le.dest large
  obtain rfl : point = digits.length + count := isCount.symm
  rw [add_sub_cancel_left, Int.toNat_natCast]
  refine ⟨⟨digits ++ List.replicate count 0, [], none, by simp [notEmpty], ?_⟩, ?_, ?_, rfl⟩
  · intro digit there
    simp only [List.append_nil, List.mem_append, List.mem_replicate] at there
    rcases there with isDigit | ⟨-, rfl⟩
    · exact areDigits digit isDigit
    · decide
  · simp [Parts.text, Parts.fractionText, Parts.exponentText, textOf]
  · have isDigits : ofDigits 10 (digits ++ List.replicate count 0 ++ []) =
        ofDigits 10 digits * 10 ^ count := by
      rw [List.append_nil, ofDigits_append_zeros]
    rw [Parts.value_eq isDigits rfl, scientific_mul_tenPow]
    simp

/-- The point stands among the digits. -/
theorem exists_parts_divided (positive : 0 < point) (small : point < digits.length) :
    ∃ parts : Parts, parts.text =
        textOf (digits.take point.toNat) ++ .char '.' :: textOf (digits.drop point.toNat) ∧
      parts.value = scientific (ofDigits 10 digits) (point - digits.length) ∧
      parts.exponent = none := by
  obtain ⟨count, rfl⟩ := Int.eq_ofNat_of_zero_le positive.le
  rw [Int.toNat_natCast]
  refine ⟨⟨digits.take count, digits.drop count, none, ?_, ?_⟩, ?_, ?_, rfl⟩
  · simp [notEmpty]
    omega
  · rwa [List.take_append_drop]
  · have someLeft : digits.drop count ≠ [] := by
      simp
      omega
    simp [Parts.text, Parts.fractionText, Parts.exponentText, someLeft]
  · refine Parts.value_eq (congrArg (ofDigits 10) (List.take_append_drop count digits)) ?_
    simp only [Option.getD_none, List.length_drop]
    omega

/-- All digits stand behind the point, with zeros in front of them. -/
theorem exists_parts_fraction (notPositive : point ≤ 0) :
    ∃ parts : Parts, parts.text =
        .char '0' :: .char '.' :: textOf (List.replicate (-point).toNat 0) ++ textOf digits ∧
      parts.value = scientific (ofDigits 10 digits) (point - digits.length) ∧
      parts.exponent = none := by
  obtain ⟨count, rfl⟩ : ∃ count : Nat, point = -count := ⟨(-point).toNat, by omega⟩
  rw [Int.neg_neg, Int.toNat_natCast]
  refine ⟨⟨[0], List.replicate count 0 ++ digits, none, by simp, ?_⟩, ?_, ?_, rfl⟩
  · intro digit there
    simp only [List.mem_append, List.mem_replicate, List.mem_singleton] at there
    rcases there with rfl | ⟨-, rfl⟩ | isDigit
    · decide
    · decide
    · exact areDigits digit isDigit
  · simp [Parts.text, Parts.fractionText, Parts.exponentText, textOf, notEmpty]
  · refine Parts.value_eq (ofDigits_zeros_append digits (count + 1)) ?_
    simp only [Option.getD_none, List.length_append, List.length_replicate]
    omega

/-- One digit stands before the point, and an exponent behind the others. -/
theorem exists_parts_exponent :
    ∃ parts : Parts, parts.text = textOf (digits.take 1) ++
        ((if digits.drop 1 = [] then [] else .char '.' :: textOf (digits.drop 1)) ++
          .char 'e' :: .char (if 0 ≤ point - 1 then '+' else '-') ::
            Text.ofString (digitsOf (point - 1).natAbs)) ∧
      parts.value = scientific (ofDigits 10 digits) (point - digits.length) ∧
      parts.exponent = some (point - 1) := by
  refine ⟨⟨digits.take 1, digits.drop 1, some (point - 1), by simp [notEmpty], ?_⟩, rfl, ?_, rfl⟩
  · rwa [List.take_append_drop]
  · have long := List.length_pos_of_ne_nil notEmpty
    refine Parts.value_eq (congrArg (ofDigits 10) (List.take_append_drop 1 digits)) ?_
    simp only [Option.getD_some, List.length_drop]
    omega

end Layouts

/-- An exponent of at least one digit is not filled up with zeros. -/
theorem ofString_exponentText {layout : DecimalLayout} (narrow : layout.exponentWidth ≤ 1)
    (exponent : Int) :
    Text.ofString (exponentText layout exponent) =
      .char 'e' :: .char (if 0 ≤ exponent then '+' else '-') ::
        Text.ofString (digitsOf exponent.natAbs) := by
  obtain ⟨first, rest, isText, -, -, -⟩ := exists_toDigits exponent.natAbs
  have padded : padZeros layout.exponentWidth (digitsOf exponent.natAbs) =
      digitsOf exponent.natAbs := by
    have filled : layout.exponentWidth - (digitsOf exponent.natAbs).length = 0 := by
      rw [digitsOf, isText, String.length_ofList, List.length_map, List.length_cons]
      omega
    rw [padZeros, filled]
    simp
  rw [exponentText, padded, Text.ofString_append]
  split <;> rfl

/-- A decimal in the layout of scripts is written in parts that have its value, with an exponent
just if its point is out of the bounds of the layout. -/
theorem exists_parts (decimal : Decimal) :
    ∃ parts : Parts, parts.text = Text.ofString (decimal.text scriptLayout) ∧
      parts.value = decimal.value ∧
      (parts.exponent.isSome ↔ ¬ (-5 ≤ decimal.point ∧ decimal.point ≤ 21)) := by
  obtain ⟨digits, notEmpty, isDigits, areDigits, isValue⟩ : ∃ digits, digits ≠ [] ∧
      Nat.toDigits 10 decimal.digits = digits.map Nat.digitChar ∧
      (∀ digit ∈ digits, digit < 10) ∧ ofDigits 10 digits = decimal.digits := by
    obtain ⟨first, rest, isDigits, areDigits, isValue, -⟩ := exists_toDigits decimal.digits
    exact ⟨_, List.cons_ne_nil first rest, isDigits, areDigits, isValue⟩
  have width : decimalWidth decimal.digits = digits.length := by
    rw [decimalWidth, isDigits, List.length_map]
  have ofDigitChars (some : List Nat) :
      Text.ofString (String.ofList (some.map Nat.digitChar)) = textOf some :=
    ofString_ofList_digits some
  have isDecimal : decimal.value =
      scientific (ofDigits 10 digits) (decimal.point - digits.length) := by
    rw [Decimal.value, width, isValue]
  rw [isDecimal]
  simp only [Decimal.text, scriptLayout, isDigits, List.length_map]
  generalize decimal.point = point
  by_cases inside : -5 ≤ point ∧ point ≤ 21
  · rw [if_pos inside]
    by_cases large : digits.length ≤ point
    · obtain ⟨parts, isText, isValue, noExponent⟩ := exists_parts_whole notEmpty areDigits large
      refine ⟨parts, ?_, isValue, by simp [noExponent, inside]⟩
      rw [if_pos large, isText, Text.ofString_append, Text.ofString_append, ofDigitChars,
        ofString_zeros]
      exact (List.append_nil _).symm
    · rw [if_neg large]
      by_cases positive : 0 < point
      · obtain ⟨parts, isText, isValue, noExponent⟩ :=
          exists_parts_divided notEmpty areDigits positive (Int.lt_of_not_ge large)
        refine ⟨parts, ?_, isValue, by simp [noExponent, inside]⟩
        rw [if_pos positive, isText, Text.ofString_append, Text.ofString_append, ← List.map_take,
          ← List.map_drop, ofDigitChars, ofDigitChars, List.append_assoc]
        rfl
      · obtain ⟨parts, isText, isValue, noExponent⟩ :=
          exists_parts_fraction notEmpty areDigits (Int.not_lt.mp positive)
        refine ⟨parts, ?_, isValue, by simp [noExponent, inside]⟩
        rw [if_neg positive, isText, Text.ofString_append, Text.ofString_append, ofDigitChars,
          ofString_zeros]
        rfl
  · obtain ⟨parts, isText, isValue, isExponent⟩ :=
      @exists_parts_exponent digits point notEmpty areDigits
    refine ⟨parts, ?_, isValue, by simp [isExponent, inside]⟩
    rw [if_neg inside, isText]
    rw [Text.ofString_append, Text.ofString_append, ← List.map_take, ← List.map_drop, ofDigitChars,
      ofString_exponentText (Nat.le_refl 1), List.append_assoc]
    congr 2
    cases digits.drop 1 with
    | nil => rfl
    | cons digit others =>
        rw [if_neg (List.cons_ne_nil digit others), if_neg, Text.ofString_append, ofDigitChars]
        · rfl
        · simp

end Decimal

namespace Double

open Numeral

theorem toInt?_eq_some_iff {negative : Bool} {rank : Fin rankCount} {n : Int} :
    (Double.finite negative rank).toInt? = some n ↔
      (if negative then -magnitude rank else magnitude rank) = n := by
  have ones : (unitsPerOne : ℚ) ≠ 0 := by exact_mod_cast Nat.ne_of_gt unitsPerOne_pos
  rw [toInt?_finite_iff, magnitude, ← neg_div, ← ite_div, div_eq_iff ones]
  norm_cast

/-- A whole number that scripts write digit by digit. -/
def IsPlain (rank : Nat) : Prop :=
  ∃ n : Nat, n < Num.plainLimit ∧ magnitude rank = n

section Shortest

variable {rank : Nat} (positive : 0 < rank)
include positive

theorem shortest_bounds (bounded : rank < rankCount) :
    (10 : ℚ) ^ ((shortest rank).point - 1) ≤ (shortest rank).value ∧
      (shortest rank).value < 10 ^ (shortest rank).point := by
  obtain ⟨noZero, -, -⟩ := shortest_spec positive bounded
  have notZero : (shortest rank).digits ≠ 0 := fun isZero => noZero (by rw [isZero])
  have bounds := scientific_bounds notZero
    ((shortest rank).point - decimalWidth (shortest rank).digits)
  rwa [add_sub_cancel] at bounds

/-- Whole numbers that are written digit by digit have their point within the layout. -/
theorem IsPlain.point_bounds (plain : IsPlain rank) (bounded : rank < rankCount) :
    -5 ≤ (shortest rank).point ∧ (shortest rank).point ≤ 21 := by
  obtain ⟨n, small, isWhole⟩ := plain
  obtain ⟨low, high⟩ := shortest_bounds positive bounded
  obtain ⟨-, reads, -⟩ := shortest_spec positive bounded
  have one : (1 : ℚ) ≤ magnitude rank := by
    have notZero := magnitude_pos positive
    rw [isWhole] at notZero ⊢
    exact_mod_cast notZero
  constructor
  · have half := @ReadAs.twoPow_lt rank _ 1 (-1) reads (by decide) (by decide)
    norm_num at half
    by_contra outside
    have tenth : (10 : ℚ) ^ (shortest rank).point ≤ 10 ^ (-1 : Int) :=
      zpow_le_zpow_right₀ (by norm_num) (by omega)
    have isLess := half (by linarith)
    norm_num at tenth
    linarith
  · have limit := @ReadAs.lt_twoPow rank _ (5 ^ 21) 21 reads (by decide) (by decide)
    have isPower : ((5 ^ 21 : Nat) * 2 ^ (21 : Int) : ℚ) = 10 ^ (21 : Int) := by norm_num
    have below : magnitude rank < 10 ^ (21 : Int) := by
      rw [isWhole]
      norm_num
      exact_mod_cast small
    rw [isPower] at limit
    have fits : (10 : ℚ) ^ ((shortest rank).point - 1) < 10 ^ (21 : Int) :=
      low.trans_lt (limit below)
    rw [zpow_lt_zpow_iff_right₀ (by norm_num)] at fits
    omega

/-- Below the numbers where doubles are further apart than one, the shortest decimal of a whole
number is that number. -/
theorem shortest_value_of_whole (bounded : rank < rankCount) {n : Nat} (small : n < 2 * binade)
    (isWhole : magnitude rank = n) : (shortest rank).value = magnitude rank := by
  obtain ⟨-, reads, best⟩ := shortest_spec positive bounded
  obtain ⟨less, more⟩ := reads.around_whole small isWhole
  have isSelf : scientific n 0 = magnitude rank := by
    rw [scientific, zpow_zero, mul_one, isWhole]
  obtain ⟨fewest, nearest⟩ := best n 0 (isSelf ▸ readAs_magnitude rank)
  rw [isSelf, sub_self, abs_zero, abs_nonpos_iff, sub_eq_zero] at nearest
  rcases Nat.eq_or_lt_of_le fewest with sameWidth | shorter
  · exact nearest sameWidth.symm
  · have digit := decimalWidth_pos (shortest rank).digits
    rcases Int.lt_or_le (shortest rank).point (decimalWidth (shortest rank).digits) with
      fraction | whole
    -- a fraction of fewer digits is below a power of ten that is below the number
    · have notZero : n ≠ 0 := by
        rintro rfl
        exact (magnitude_pos positive).ne' isWhole
      have reached := tenPow_le_of_decimalWidth notZero
      have tenth : 10 ^ (decimalWidth n - 2) < n :=
        Nat.lt_of_lt_of_le (Nat.pow_lt_pow_right (by decide) (by omega)) reached
      have isLess := (less _ tenth).trans (shortest_bounds positive bounded).2
      rw [Nat.cast_pow, Nat.cast_ofNat, ← zpow_natCast, zpow_lt_zpow_iff_right₀ (by norm_num)]
        at isLess
      omega
    · obtain ⟨places, isPlaces⟩ := Int.le.dest whole
      have isNatural : (shortest rank).value = ((shortest rank).digits * 10 ^ places : Nat) := by
        rw [Decimal.value, ← isPlaces, add_sub_cancel_left, scientific, zpow_natCast]
        push_cast
        rfl
      rw [isNatural] at less more
      rw [isNatural, isWhole, Nat.cast_inj]
      refine Nat.le_antisymm ?_ (Nat.not_lt.mp fun within => lt_irrefl _ (less _ within))
      exact Nat.le_of_lt_succ (by exact_mod_cast more)

end Shortest

section Script

variable {rank : Fin rankCount} (positive : 0 < rank.val)
include positive

theorem scriptText_negative :
    (Double.finite true rank).scriptText = "-" ++ (Double.finite false rank).scriptText := by
  simp only [scriptText, Nat.ne_of_gt positive, if_false, Bool.false_eq_true, if_true]
  split <;> rfl

theorem scriptText_of_plain {n : Nat} (small : n < Num.plainLimit) (isWhole : magnitude rank = n) :
    (Double.finite false rank).scriptText = digitsOf n := by
  have isInt : (Double.finite false rank).toInt? = some (n : Int) :=
    toInt?_eq_some_iff.mpr (by exact_mod_cast isWhole)
  have smallInt : (n : Int) < Num.plainLimit := by exact_mod_cast small
  simp only [scriptText, Nat.ne_of_gt positive, if_false, Bool.false_eq_true, isInt, smallInt,
    if_true, intText, Int.natAbs_natCast]
  exact if_neg (by omega)

theorem scriptText_of_not_plain (notPlain : ¬ IsPlain rank) :
    (Double.finite false rank).scriptText = (shortest rank).text scriptLayout := by
  simp only [scriptText, Nat.ne_of_gt positive, if_false, Bool.false_eq_true]
  split
  case h_1 n isInt =>
    have isWhole := toInt?_eq_some_iff.mp isInt
    have notNegative : (0 : ℚ) ≤ n := isWhole ▸ (magnitude_pos positive).le
    obtain ⟨whole, rfl⟩ := Int.eq_ofNat_of_zero_le (Int.cast_nonneg_iff.mp notNegative)
    refine if_neg fun small => notPlain ⟨whole, Int.ofNat_lt.mp small, isWhole⟩
  case h_2 => rfl

theorem scriptText_of_toInt?_finite {negative : Bool} {n : Int}
    (small : n.natAbs < Num.plainLimit)
    (isInt : (Double.finite negative rank).toInt? = some n) :
    (Double.finite negative rank).scriptText = intText n := by
  have signed := toInt?_eq_some_iff.mp isInt
  have isPositive := magnitude_pos positive
  cases negative with
  | false =>
      have isWhole : magnitude rank = n := signed
      rw [isWhole, Int.cast_pos] at isPositive
      obtain ⟨whole, rfl⟩ := Int.eq_ofNat_of_zero_le isPositive.le
      rw [intText, if_neg (Int.not_lt.mpr isPositive.le), Int.natAbs_natCast]
      exact scriptText_of_plain positive small isWhole
  | true =>
      have isWhole : magnitude rank = (-n : Int) := by
        rw [Int.cast_neg, ← signed]
        exact (neg_neg _).symm
      rw [isWhole, Int.cast_pos] at isPositive
      obtain ⟨whole, isNatural⟩ := Int.eq_ofNat_of_zero_le isPositive.le
      have isAbs : n.natAbs = whole := by omega
      rw [isNatural] at isWhole
      rw [isAbs] at small
      rw [scriptText_negative positive, intText, if_pos (by omega), isAbs,
        scriptText_of_plain positive small isWhole]

/-- Behind its sign, the text is a decimal: the number itself if it is whole and below the limit,
and the shortest decimal otherwise. -/
theorem exists_parts_scriptText (negative : Bool) :
    ∃ parts : Parts, Text.ofString (Double.finite negative rank).scriptText =
        (if negative then [.char '-'] else []) ++ parts.text ∧
      (IsPlain rank → parts.value = magnitude rank) ∧
      (¬ IsPlain rank → parts.value = (shortest rank).value) ∧
      (parts.exponent.isSome ↔ ¬ (-5 ≤ (shortest rank).point ∧ (shortest rank).point ≤ 21)) := by
  have signed {parts : Parts}
      (isText : parts.text = Text.ofString (Double.finite false rank).scriptText) :
      Text.ofString (Double.finite negative rank).scriptText =
        (if negative then [.char '-'] else []) ++ parts.text := by
    cases negative with
    | false => exact isText.symm
    | true =>
        rw [scriptText_negative positive, Text.ofString_append, isText]
        rfl
  by_cases plain : IsPlain rank
  · obtain ⟨n, small, isWhole⟩ := plain
    obtain ⟨parts, isText, isValue, noFraction, noExponent⟩ := exists_whole n
    refine ⟨parts, signed ?_, fun _ => ?_, fun notPlain => absurd ⟨n, small, isWhole⟩ notPlain, ?_⟩
    · rw [scriptText_of_plain positive small isWhole, isText]
    · have isDigits : ofDigits 10 (parts.whole ++ parts.fraction) = n := by
        rw [noFraction, List.append_nil, isValue]
      have isPower : parts.exponent.getD 0 - parts.fraction.length = 0 := by
        rw [noFraction, noExponent]
        rfl
      rw [Parts.value_eq isDigits isPower, isWhole, scientific, zpow_zero, mul_one]
    · simp [noExponent, IsPlain.point_bounds positive ⟨n, small, isWhole⟩ rank.isLt]
  · obtain ⟨parts, isText, isValue, hasExponent⟩ := (shortest rank).exists_parts
    refine ⟨parts, signed ?_, fun isPlain => absurd isPlain plain, fun _ => isValue, hasExponent⟩
    rw [scriptText_of_not_plain positive plain, isText]

theorem rational?_of_plain (plain : IsPlain rank) (negative : Bool) :
    rational? (Text.ofString (Double.finite negative rank).scriptText) =
      some (if negative then -magnitude rank else magnitude rank) := by
  obtain ⟨parts, isText, ifPlain, -, -⟩ := exists_parts_scriptText positive negative
  rw [isText, parts.rational?_signed, ifPlain plain]

end Script

/-- A double that is an integer below the limit is written as that integer. -/
theorem scriptText_of_toInt? {x : Double} {n : Int} (small : n.natAbs < Num.plainLimit)
    (isInt : x.toInt? = some n) : x.scriptText = intText n := by
  cases x with
  | nan | infinity => cases isInt
  | finite negative rank =>
      by_cases isZero : rank.val = 0
      · have noInt : n = 0 := by
          have signed := toInt?_eq_some_iff.mp isInt
          rw [isZero, magnitude, unitsOfRank_zero, Nat.cast_zero, zero_div, neg_zero, ite_self,
            eq_comm, Int.cast_eq_zero] at signed
          exact signed
        rw [noInt, scriptText, if_pos isZero]
        rfl
      · exact scriptText_of_toInt?_finite (Nat.pos_of_ne_zero isZero) small isInt

/-- A whole number that is written digit by digit although its shortest decimal is another
number. -/
def IsSpelledOut (rank : Nat) : Prop :=
  IsPlain rank ∧ (shortest rank).value ≠ magnitude rank

/-- A text writes a double that is finite and not zero: as its shortest decimal, unless the number
is spelled out. -/
structure Writes (text : Text) (negative : Bool) (rank : Fin rankCount) : Prop where
  isShortest : IsShortest rank (shortest rank)
  denotes : rational? text =
    some (if negative then -(shortest rank).value else (shortest rank).value) ↔ ¬ IsSpelledOut rank
  spelledOut : IsSpelledOut rank → 2 * binade ≤ magnitude rank ∧
    rational? text = some (if negative then -magnitude rank else magnitude rank)
  exponent : .char 'e' ∈ text ↔ 21 < (shortest rank).point ∨ (shortest rank).point ≤ -6
  isOneToken : negative = false → tokenize text =
    .ok [⟨.number, text, .start, text.length, false⟩,
      ⟨.endOfInput, [], Mark.start.advance text.length, text.length, false⟩]

/-- Every double that is finite and not zero is written so, with either sign. -/
theorem scriptText_writes (negative : Bool) {rank : Fin rankCount} (notZero : rank.val ≠ 0) :
    ∃ text, Num.scriptText (.float (.finite negative rank)) = .ok text ∧
      Writes (Text.ofString text) negative rank := by
  have positive := Nat.pos_of_ne_zero notZero
  obtain ⟨parts, isText, ifPlain, ifNotPlain, hasExponent⟩ :=
    exists_parts_scriptText positive negative
  have isExact := parts.rational?_signed negative
  have isRead (value : ℚ) : some (if negative then -parts.value else parts.value) =
      some (if negative then -value else value) ↔ parts.value = value := by
    cases negative with
    | false => simp
    | true => simp
  refine ⟨_, rfl, shortest_isShortest positive, ?_, ?_, ?_, ?_⟩
  · rw [isText, isExact, isRead]
    by_cases plain : IsPlain rank
    · rw [ifPlain plain, IsSpelledOut, not_and_not_right, eq_comm]
      exact (imp_iff_right plain).symm
    · exact iff_of_true (ifNotPlain plain) fun spelledOut => plain spelledOut.1
  · rintro ⟨plain, differs⟩
    refine ⟨?_, rational?_of_plain positive plain negative⟩
    obtain ⟨n, -, isWhole⟩ := plain
    by_contra small
    rw [isWhole, not_le] at small
    exact differs (shortest_value_of_whole positive rank.isLt (by exact_mod_cast small) isWhole)
  · rw [isText, List.mem_append, or_iff_right, parts.mark_mem_text, hasExponent]
    · omega
    · cases negative with
      | false | true => simp
  · rintro rfl
    rw [isText]
    exact Lexer.tokenize_decimal parts

theorem leastDouble_written : ∃ least : Fin rankCount, least.val = 1 ∧
    shortest least = ⟨5, -323⟩ ∧ Writes (Text.ofString "5e-324") false least := by
  have isText : Num.scriptText (.float (.finite false ⟨1, by decide⟩)) = .ok "5e-324" := by
    decide +kernel
  obtain ⟨text, isWritten, writes⟩ :=
    scriptText_writes false (show (⟨1, by decide⟩ : Fin rankCount).val ≠ 0 by decide)
  obtain rfl : "5e-324" = text := Except.ok.inj (isText.symm.trans isWritten)
  exact ⟨⟨1, by decide⟩, rfl, by decide +kernel, writes⟩

/-- The shortest decimal of a power of two ends in three zeros, and its text does not. -/
theorem sixtiethPower_spelledOut : ∃ power : Fin rankCount,
    (Double.finite false power).toInt? = some 1152921504606846976 ∧
      shortest power = ⟨1152921504606847, 19⟩ ∧
      Num.scriptText (.float (.finite false power)) = .ok "1152921504606846976" ∧
      rational? (Text.ofString "1152921504606846976") ≠ some (shortest power).value := by
  have isInt : (Double.finite false ⟨4877398396442247168, by decide⟩).toInt? =
      some 1152921504606846976 := by
    decide +kernel
  have isShortest : shortest 4877398396442247168 = ⟨1152921504606847, 19⟩ := by
    decide +kernel
  have isText : (Double.finite false ⟨4877398396442247168, by decide⟩).scriptText =
      "1152921504606846976" := by
    decide +kernel
  refine ⟨_, isInt, isShortest, congrArg Except.ok isText, ?_⟩
  have isWhole := toInt?_eq_some_iff.mp isInt
  have plain : IsPlain 4877398396442247168 := ⟨1152921504606846976, by decide, isWhole⟩
  have isExact :=
    @rational?_of_plain ⟨4877398396442247168, by decide⟩ (by decide) plain false
  have width : decimalWidth 1152921504606847 = 16 := by
    decide +kernel
  rw [isText, isWhole] at isExact
  simp only [isExact, isShortest, Decimal.value, width, scientific]
  norm_num

end Double

end ScriptFold
