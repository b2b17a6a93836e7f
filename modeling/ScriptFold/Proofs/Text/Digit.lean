import Mathlib.Data.List.TakeWhile
import ScriptFold.Number.Numeral

/-!
# Digits and blanks

The classes of code points that numerals are read by: decimal digits are digits, digits are
no blanks, and the decimal digits are those whose value is below ten.  Trimming leaves alone
what has no blanks at its ends, so trimming a second time does nothing.
-/

namespace ScriptFold

namespace CodePoint

/-- Whether a code point is a decimal digit of some script. -/
def isDecimal (point : CodePoint) : Bool :=
  point.decimalValue?.isSome

/-- A decimal digit counts from the first of its row. -/
theorem exists_row {point : CodePoint} {digit : Nat}
    (value : point.decimalValue? = some digit) :
    ∃ first, first ∈ decimalZeros ∧ point.toNat = first + digit ∧ digit < 10 := by
  obtain ⟨first, found, isDigit⟩ := Option.map_eq_some_iff.mp value
  have inRow := List.find?_some found
  simp only [Bool.and_eq_true, decide_eq_true_eq] at inRow
  refine ⟨first, List.mem_of_find?_eq_some found, ?_, ?_⟩
  · omega
  · omega

/-- The rows are among the digits, and those beyond the first lie behind all letters that
count as digits. -/
theorem row_isDigit : ∀ first ∈ decimalZeros, first = 0x30 ∨
    0x660 ≤ first ∧ ∃ range ∈ digitRanges, range.1 ≤ first ∧ first + 9 ≤ range.2 := by
  decide +kernel

/-- Decimal digits are digits. -/
theorem isDigit_of_isDecimal {point : CodePoint} (decimal : point.isDecimal = true) :
    point.isDigit = true := by
  obtain ⟨digit, value⟩ := Option.isSome_iff_exists.mp decimal
  obtain ⟨first, isRow, isSum, small⟩ := exists_row value
  rcases row_isDigit first isRow with basic | ⟨beyond, range, isRange, fromFirst, toLast⟩
  · have low : point.toNat < 0x80 := by omega
    simp only [isDigit, low, if_true, Bool.and_eq_true, decide_eq_true_eq]
    omega
  · have high : ¬ point.toNat < 0x80 := by omega
    simp only [isDigit, high, if_false, inRanges, List.any_eq_true, Bool.and_eq_true,
      decide_eq_true_eq]
    exact ⟨range, isRange, by omega, by omega⟩

private theorem digitRanges_apart : ∀ range ∈ digitRanges, ∀ blank ∈ blankRanges,
    range.2 < blank.1 ∨ blank.2 < range.1 := by
  decide

/-- No blank is a digit. -/
theorem not_isBlank_of_isDigit {point : CodePoint} (digit : point.isDigit = true) :
    point.isBlank = false := by
  simp only [isBlank, inRanges, List.any_eq_false, Bool.and_eq_true, decide_eq_true_eq]
  intro blank isBlank inBlank
  by_cases low : point.toNat < 0x80
  · have basicApart : ∀ blank ∈ blankRanges, 0x39 < blank.1 ∨ blank.2 < 0x30 := by decide
    simp only [isDigit, low, if_true, Bool.and_eq_true, decide_eq_true_eq] at digit
    rcases basicApart blank isBlank with above | below
    · omega
    · omega
  · simp only [isDigit, low, if_false, inRanges, List.any_eq_true, Bool.and_eq_true,
      decide_eq_true_eq] at digit
    obtain ⟨range, isRange, inRange⟩ := digit
    rcases digitRanges_apart range isRange blank isBlank with above | below
    · omega
    · omega

/-- A digit among the first 128 code points is one of `0` to `9`. -/
theorem basic_of_isDigit {point : CodePoint} (digit : point.isDigit = true) :
    0x30 ≤ point.toNat ∧ (point.toNat ≤ 0x39 ∨ 0x80 ≤ point.toNat) := by
  by_cases low : point.toNat < 0x80
  · simp only [isDigit, low, if_true, Bool.and_eq_true, decide_eq_true_eq] at digit
    omega
  · omega

end CodePoint

namespace Numeral

theorem not_isMargin_of_not_isBlank {point : CodePoint} (notBlank : point.isBlank = false) :
    isMargin point = false := by
  simp [isMargin, notBlank]

/-- Letters count from ten, so below ten are only the decimal digits. -/
theorem digitValue?_eq_some_iff {point : CodePoint} {digit : Nat} (small : digit < 10) :
    digitValue? point = some digit ↔ point.decimalValue? = some digit := by
  constructor
  · intro value
    simp only [digitValue?] at value
    split at value
    · have counted := Option.some.inj value
      omega
    · split at value
      · have counted := Option.some.inj value
        omega
      · exact value
  · intro value
    obtain ⟨first, isRow, isSum, -⟩ := CodePoint.exists_row value
    have apart := CodePoint.row_isDigit first isRow
    have notLower : ¬ (0x61 ≤ point.toNat ∧ point.toNat ≤ 0x7A) := by omega
    have notUpper : ¬ (0x41 ≤ point.toNat ∧ point.toNat ≤ 0x5A) := by omega
    simp only [digitValue?, notLower, notUpper, if_false]
    exact value

end Numeral

namespace Text

/-- A text that begins with no code point of a class. -/
def StartsOutside (inClass : CodePoint → Bool) (text : Text) : Prop :=
  ∀ point, text.head? = some point → inClass point = false

section Trim

variable {inClass other : CodePoint → Bool} {text : Text}

theorem startsOutside_nil : StartsOutside inClass [] := by
  simp [StartsOutside]

theorem startsOutside_cons {point : CodePoint} {rest : Text} :
    StartsOutside inClass (point :: rest) ↔ inClass point = false := by
  simp [StartsOutside]

theorem startsOutside_of_forall (outside : ∀ point ∈ text, inClass point = false) :
    StartsOutside inClass text := by
  intro point isFirst
  exact outside point (List.mem_of_mem_head? isFirst)

theorem trim_eq_self (first : StartsOutside inClass text)
    (last : ∀ point, text.getLast? = some point → inClass point = false) :
    text.trim inClass = text := by
  have kept : ∀ points : Text, StartsOutside inClass points →
      points.dropWhile inClass = points := by
    intro points outside
    cases points with
    | nil => rfl
    | cons point others =>
        rw [List.dropWhile_cons_of_neg]
        simp [startsOutside_cons.mp outside]
  have reversed : StartsOutside inClass text.reverse := by
    intro point isLast
    rw [List.head?_reverse] at isLast
    exact last point isLast
  rw [trim, trimStart, kept text first, trimEnd, kept _ reversed, List.reverse_reverse]

/-- A text without code points of a class has none to drop. -/
theorem trim_eq_self_of_forall (outside : ∀ point ∈ text, inClass point = false) :
    text.trim inClass = text := by
  apply trim_eq_self
  · exact startsOutside_of_forall outside
  · intro point isLast
    exact outside point (List.mem_of_mem_getLast? isLast)

theorem startsOutside_dropWhile (points : Text) :
    StartsOutside inClass (points.dropWhile inClass) := by
  intro point isFirst
  have outside := List.head?_dropWhile_not inClass points
  rw [isFirst] at outside
  exact outside

/-- A trimmed text does not begin with a code point of the class. -/
theorem startsOutside_trim : StartsOutside inClass (text.trim inClass) := by
  intro point isFirst
  have isPrefix : text.trim inClass <+: text.dropWhile inClass := by
    rw [trim, trimEnd, trimStart, ← List.reverse_suffix, List.reverse_reverse]
    exact List.dropWhile_suffix inClass
  obtain ⟨rest, isWhole⟩ := isPrefix
  apply startsOutside_dropWhile text
  rw [← isWhole, List.head?_append, isFirst]
  rfl

/-- Trimming by a smaller class leaves a trimmed text alone. -/
theorem trim_trim (smaller : ∀ point, inClass point = false → other point = false) :
    (text.trim inClass).trim other = text.trim inClass := by
  apply trim_eq_self
  · intro point isFirst
    exact smaller point (startsOutside_trim point isFirst)
  · intro point isLast
    rw [trim, trimEnd, List.getLast?_reverse] at isLast
    exact smaller point (startsOutside_dropWhile _ point isLast)

theorem trim_idem : (text.trim inClass).trim inClass = text.trim inClass :=
  trim_trim fun _ outside => outside

end Trim

end Text

end ScriptFold
