import Mathlib.Data.Option.Basic
import ScriptFold.Fault
import ScriptFold.Number.Format
import ScriptFold.Proofs.Text.Digit

/-!
# Integers read back

The literal of an integer that is exact as a double is read as that integer again.
-/

namespace ScriptFold

theorem Text.ofString_append (first second : String) :
    Text.ofString (first ++ second) = Text.ofString first ++ Text.ofString second := by
  rw [Text.ofString, String.toList_append, List.map_append]
  rfl

namespace Numeral

def textOf (digits : List Nat) : Text :=
  digits.map fun digit => .char (Nat.digitChar digit)

theorem ofDigits_concat (base : Nat) (digits : List Nat) (digit : Nat) :
    ofDigits base (digits ++ [digit]) = ofDigits base digits * base + digit := by
  simp [ofDigits]

/-- The digits of a number, which begin with a zero only if they are no more than that. -/
theorem exists_toDigits (n : Nat) :
    ∃ first rest, Nat.toDigits 10 n = (first :: rest).map Nat.digitChar ∧
      (∀ digit, digit ∈ first :: rest → digit < 10) ∧ ofDigits 10 (first :: rest) = n ∧
      (first = 0 → rest = []) := by
  induction n using Nat.strongRecOn with
  | ind n induction =>
      by_cases small : n < 10
      · refine ⟨n, [], Nat.toDigits_of_lt_base small, ?_, ?_, fun _ => rfl⟩
        · simpa using small
        · simp [ofDigits]
      · obtain ⟨first, rest, isText, areDigits, isValue, noZero⟩ :=
          induction (n / 10) (by omega)
        refine ⟨first, rest ++ [n % 10], ?_, ?_, ?_, fun isZero => ?_⟩
        · rw [Nat.toDigits_of_base_le (by decide) (by omega), isText]
          simp
        · intro digit there
          rw [← List.cons_append, List.mem_append, List.mem_singleton] at there
          rcases there with there | rfl
          · exact areDigits digit there
          · omega
        · rw [← List.cons_append, ofDigits_concat, isValue]
          omega
        · rw [isZero, noZero isZero] at isValue
          have : n / 10 = 0 := isValue.symm
          omega

theorem ofString_ofList_digits (digits : List Nat) :
    Text.ofString (String.ofList (digits.map Nat.digitChar)) = textOf digits := by
  rw [Text.ofString, String.toList_ofList, List.map_map]
  rfl

theorem exists_digits (n : Nat) :
    ∃ first rest, Text.ofString (digitsOf n) = textOf (first :: rest) ∧
      (∀ digit, digit ∈ first :: rest → digit < 10) ∧ ofDigits 10 (first :: rest) = n ∧
      (first = 0 → rest = []) := by
  obtain ⟨first, rest, isText, others⟩ := exists_toDigits n
  refine ⟨first, rest, ?_, others⟩
  rw [digitsOf, isText, ofString_ofList_digits]

/-- A digit is none of the other marks of a numeral. -/
theorem digit_plain : ∀ digit, digit < 10 →
    digitValue? (.char (Nat.digitChar digit)) = some digit ∧
    (CodePoint.char (Nat.digitChar digit)).isDigit = true ∧
    isMargin (.char (Nat.digitChar digit)) = false ∧
    baseOf? (.char (Nat.digitChar digit)) = none ∧
    Nat.digitChar digit ∉ ['-', '+', '_', 'I', 'N'] ∧
    (Nat.digitChar digit = '0' → digit = 0) := by
  decide

theorem guard_pos {condition : Prop} [Decidable condition] (holds : condition) :
    (guard condition : Option Unit) = some () :=
  if_pos holds

theorem digits?_last {base : Nat} {point : CodePoint} {digit : Nat}
    (value : digitValue? point = some digit) (small : digit < base) :
    digits? base [point] = some [digit] := by
  simp only [digits?, value, Option.bind_eq_bind, Option.bind_some, guard_pos small]

theorem digits?_next {base : Nat} {point next : CodePoint} {digit : Nat} {more : Text}
    (value : digitValue? point = some digit) (small : digit < base)
    (notUnderscore : next ≠ .char '_') :
    digits? base (point :: next :: more) = (digits? base (next :: more)).map (digit :: ·) := by
  rw [digits?, value]
  simp only [Option.bind_eq_bind, Option.bind_some, guard_pos small]

/-- The digits of a base are read from the code points that have them as values. -/
theorem digits?_map {base : Nat} {point : Nat → CodePoint} {first : Nat} {rest : List Nat}
    (value : ∀ digit ∈ first :: rest, digitValue? (point digit) = some digit)
    (small : ∀ digit ∈ first :: rest, digit < base)
    (notUnderscore : ∀ digit ∈ first :: rest, point digit ≠ .char '_') :
    digits? base ((first :: rest).map point) = some (first :: rest) := by
  induction rest generalizing first with
  | nil => exact digits?_last (value first (by simp)) (small first (by simp))
  | cons second rest induction =>
      have others : digits? base ((second :: rest).map point) = some (second :: rest) :=
        induction (fun digit there => value digit (.tail _ there))
          (fun digit there => small digit (.tail _ there))
          fun digit there => notUnderscore digit (.tail _ there)
      rw [List.map_cons, List.map_cons, digits?_next (value first (by simp)) (small first (by simp))
        (notUnderscore second (by simp))]
      rw [List.map_cons] at others
      rw [others]
      rfl

theorem not_mem_of_digit {digit : Nat} (small : digit < 10) {mark : Char}
    (isMark : mark ∈ ['-', '+', '_', 'I', 'N']) :
    CodePoint.char (Nat.digitChar digit) ≠ .char mark := by
  intro same
  have isDigit : Nat.digitChar digit = mark := CodePoint.char.inj same
  exact (digit_plain digit small).2.2.2.2.1 (isDigit ▸ isMark)

section Digits

variable {first : Nat} {rest : List Nat}
  (areDigits : ∀ digit, digit ∈ first :: rest → digit < 10)
include areDigits

theorem digits?_textOf : digits? 10 (textOf (first :: rest)) = some (first :: rest) :=
  digits?_map (fun digit there => (digit_plain digit (areDigits digit there)).1) areDigits
    fun digit there => not_mem_of_digit (areDigits digit there) (by simp)

theorem of_mem_textOf {point : CodePoint} (there : point ∈ textOf (first :: rest)) :
    ∃ digit, digit < 10 ∧ point = .char (Nat.digitChar digit) := by
  obtain ⟨digit, isDigit, rfl⟩ := List.mem_map.mp there
  exact ⟨digit, areDigits digit isDigit, rfl⟩

private theorem trim_textOf : (textOf (first :: rest)).trim isMargin = textOf (first :: rest) := by
  apply Text.trim_eq_self_of_forall
  intro point there
  obtain ⟨digit, small, rfl⟩ := of_mem_textOf areDigits there
  exact (digit_plain digit small).2.2.1

theorem baseMark?_textOf : baseMark? (textOf (first :: rest)) = none := by
  unfold baseMark?
  split
  case h_1 mark others isText =>
    have there : mark ∈ textOf (first :: rest) := by
      rw [isText]
      simp
    obtain ⟨digit, small, rfl⟩ := of_mem_textOf areDigits there
    rw [(digit_plain digit small).2.2.2.1]
    rfl
  case h_2 => rfl

theorem isDigits_textOf : isDigits (textOf (first :: rest)) = true := by
  rw [isDigits, Bool.and_eq_true, List.all_eq_true]
  refine ⟨rfl, fun point there => ?_⟩
  obtain ⟨digit, small, rfl⟩ := of_mem_textOf areDigits there
  exact (digit_plain digit small).2.1

private theorem splitSign_textOf :
    splitSign (textOf (first :: rest)) = (false, textOf (first :: rest)) := by
  have small := areDigits first List.mem_cons_self
  rw [textOf, List.map_cons, splitSign]
  · rintro _ same
    exact not_mem_of_digit small (by simp) (List.cons.inj same).1
  · rintro _ same
    exact not_mem_of_digit small (by simp) (List.cons.inj same).1

/-- Digits that are not too many are read as the number that they write. -/
theorem integer?_textOf (short : (first :: rest).length ≤ greatestDecimalWidth) :
    integer? 10 (textOf (first :: rest)) = some (Int.ofNat (ofDigits 10 (first :: rest))) := by
  have isNatural : natural? 10 (textOf (first :: rest)) = some (ofDigits 10 (first :: rest)) := by
    simp only [natural?, baseMark?_textOf areDigits, digits?_textOf areDigits, Option.bind_eq_bind,
      Option.bind_some, guard_pos (.inr short : 10 ≠ 10 ∨ _)]
    rfl
  rw [integer?, trim_textOf areDigits, splitSign_textOf areDigits]
  simp only [isNatural, Option.bind_eq_bind, Option.bind_some]
  rfl

theorem not_isString_textOf {mark : Char} (isMark : mark ∈ ['-', '+', '_', 'I', 'N'])
    (others : List Char) :
    (textOf (first :: rest)).isString (String.ofList (mark :: others)) = false := by
  rw [Text.isString, beq_eq_false_iff_ne, Text.ofString, String.toList_ofList]
  intro same
  exact not_mem_of_digit (areDigits first List.mem_cons_self) isMark (List.cons.inj same).1

theorem filter_textOf :
    (textOf (first :: rest)).filter (fun point => !point.is '_') = textOf (first :: rest) := by
  rw [List.filter_eq_self]
  intro point there
  obtain ⟨digit, small, rfl⟩ := of_mem_textOf areDigits there
  rw [CodePoint.is, Bool.not_eq_true', beq_eq_false_iff_ne]
  exact not_mem_of_digit small (by simp)

/-- Digits without a zero in front are read as the number that they write. -/
theorem unsignedLiteral_textOf (noZero : first = 0 → rest = [])
    (short : (first :: rest).length ≤ greatestDecimalWidth) :
    unsignedLiteral (textOf (first :: rest)) =
      Num.settle (.int (Int.ofNat (ofDigits 10 (first :: rest)))) := by
  have notOctal : (1 < (textOf (first :: rest)).length &&
      (textOf (first :: rest)).head? == some (.char '0')) = false := by
    rw [Bool.and_eq_false_iff]
    by_cases isZero : first = 0
    · rw [noZero isZero]
      exact .inl rfl
    · refine .inr (beq_eq_false_iff_ne.mpr fun isHead => isZero ?_)
      have same := CodePoint.char.inj (Option.some.inj isHead)
      exact (digit_plain first (areDigits first List.mem_cons_self)).2.2.2.2.2 same
  have notInfinity : (textOf (first :: rest)).isString "Infinity" = false :=
    not_isString_textOf areDigits (show 'I' ∈ ['-', '+', '_', 'I', 'N'] by decide) "nfinity".toList
  have notNaN : (textOf (first :: rest)).isString "NaN" = false :=
    not_isString_textOf areDigits (show 'N' ∈ ['-', '+', '_', 'I', 'N'] by decide) "aN".toList
  simp only [unsignedLiteral, notInfinity, notNaN, baseMark?_textOf areDigits,
    isDigits_textOf areDigits, notOctal, integer?_textOf areDigits short, Bool.false_and,
    Bool.false_eq_true, if_false, if_true, Option.isSome_none, require]
  rfl

end Digits

/-- The digits of an integer that is exact as a double are read as that integer. -/
theorem literal_digitsOf {n : Nat} (safe : n ≤ Num.greatestSafe) :
    literal (Text.ofString (digitsOf n)) = .ok (.int n) := by
  obtain ⟨first, rest, isText, areDigits, isValue, noZero⟩ := exists_digits n
  have short : (first :: rest).length ≤ greatestDecimalWidth := by
    have fits : (Nat.toDigits 10 n).length ≤ 16 := by
      rw [Nat.length_toDigits_le_iff (by decide) (by decide)]
      exact Nat.lt_of_le_of_lt safe (by decide)
    have sameLength := congrArg List.length isText
    simp only [digitsOf, Text.ofString, String.toList_ofList, List.length_map, textOf] at sameLength
    rw [← sameLength]
    exact Nat.le_trans fits (by decide)
  have notMinus : ∀ others, textOf (first :: rest) ≠ .char '-' :: others := by
    intro others same
    exact not_mem_of_digit (areDigits first List.mem_cons_self) (by simp) (List.cons.inj same).1
  have settled : Num.settle (.int (Int.ofNat n)) = .ok (.int n) := if_neg (Nat.not_lt.mpr safe)
  rw [literal, isText, filter_textOf areDigits, signedLiteral,
    unsignedLiteral_textOf areDigits noZero short, isValue, settled]
  exact notMinus

/-- The literal of an integer that is exact as a double is read as that integer. -/
theorem literal_intText {n : Int} (safe : n.natAbs ≤ Num.greatestSafe) :
    literal (Text.ofString (intText n)) = .ok (.int n) := by
  have positive := literal_digitsOf safe
  by_cases negative : n < 0
  · have isText : Text.ofString (intText n) = .char '-' :: Text.ofString (digitsOf n.natAbs) := by
      rw [intText, if_pos negative, Text.ofString_append]
      rfl
    have notZero : (Num.int n.natAbs).isZero = false := by
      simp only [Num.isZero, beq_eq_false_iff_ne]
      omega
    have isNegated : (Num.int n.natAbs).neg = .int n := by
      simp only [Num.neg, Num.int.injEq]
      omega
    have signed : literal (Text.ofString (intText n)) = (do
        let value ← literal (Text.ofString (digitsOf n.natAbs))
        return if value.isZero then .float (Double.ofRank true 0) else value.neg) := by
      rw [isText]
      rfl
    rw [signed, positive]
    simp only [Calculation.ok_bind, notZero, isNegated]
    rfl
  · have isAbs : (n.natAbs : Int) = n := by omega
    rw [intText, if_neg negative, positive, isAbs]

end Numeral

end ScriptFold
