import Mathlib.Data.Nat.Digits.Lemmas
import ScriptFold.Proofs.Number.Writing
import ScriptFold.Value.Method

/-!
# Integers in a base

The text of an integer in a base is read as that integer again.  The loop that takes the digits
off gives those of the library, least significant first; base ten has a text of its own.
-/

namespace ScriptFold

/-- The integer that a number is, if it is one. -/
def Num.toInt? : Num → Option Int
  | .int n => some n
  | .float x => x.toInt?

namespace Method

/-- The code points of some digits. -/
def digitText (digits : List Nat) : Text :=
  digits.map fun digit => .char (digitChar digit)

/-- A text writes an integer in a base: an optional minus before digits below the base, of which
the first is zero only if there are no others. -/
structure WritesInBase (base : Nat) (n : Int) (digits : List Nat) (text : Text) : Prop where
  isText : text = (if n < 0 then [.char '-'] else []) ++ digitText digits
  notEmpty : digits ≠ []
  areDigits : ∀ digit ∈ digits, digit < base
  noZero : ∀ rest, digits = 0 :: rest → rest = []
  isValue : Numeral.ofDigits base digits = n.natAbs

theorem ofDigits_reverse (base : Nat) (digits : List Nat) :
    Numeral.ofDigits base digits.reverse = Nat.ofDigits base digits := by
  induction digits with
  | nil => rfl
  | cons digit others induction =>
      rw [List.reverse_cons, Numeral.ofDigits_concat, induction, Nat.ofDigits_cons, Nat.mul_comm,
        Nat.add_comm]

section Digits

variable {base : Nat} (low : 2 ≤ base)
include low

/-- The loop takes off all digits if it has a round for each bit. -/
theorem digitsInBase_eq {fuel n : Nat} (enough : n < 2 ^ fuel) :
    digitsInBase base fuel n = Nat.digits base n := by
  induction fuel generalizing n with
  | zero =>
      obtain rfl : n = 0 := by omega
      rw [digitsInBase, Nat.digits_zero]
  | succ fuel induction =>
      rw [digitsInBase]
      split
      case isTrue isZero => rw [isZero, Nat.digits_zero]
      case isFalse notZero =>
        have smaller : n / base < 2 ^ fuel := by
          rw [Nat.pow_succ] at enough
          exact Nat.lt_of_le_of_lt (Nat.div_le_div_left low (by decide)) (by omega)
        rw [induction smaller, Nat.digits_def' low (Nat.pos_of_ne_zero notZero)]

private theorem writesInBase_zero : WritesInBase base 0 [0] (Text.ofString "0") where
  isText := rfl
  notEmpty := List.cons_ne_nil 0 []
  areDigits := by simp; omega
  noZero := by simp
  isValue := by simp [Numeral.ofDigits]

/-- The loop writes an integer. -/
theorem writesInBase_radixText (n : Int) :
    ∃ digits, WritesInBase base n digits (Text.ofString (radixText base n)) := by
  by_cases isZero : n = 0
  · rw [isZero]
    exact ⟨[0], writesInBase_zero low⟩
  · have isLoop : digitsInBase base (n.natAbs.log2 + 1) n.natAbs = Nat.digits base n.natAbs :=
      digitsInBase_eq low Nat.lt_log2_self
    have notZero : n.natAbs ≠ 0 := Int.natAbs_ne_zero.mpr isZero
    have notEmpty : Nat.digits base n.natAbs ≠ [] := Nat.digits_ne_nil_iff_ne_zero.mpr notZero
    refine ⟨(Nat.digits base n.natAbs).reverse, ?_, ?_, ?_, ?_, ?_⟩
    · rw [radixText, if_neg isZero, isLoop, Text.ofString_append, Text.ofString,
        Text.ofString, String.toList_ofList, List.map_map]
      congr 1
      split <;> rfl
    · exact fun isEmpty => notEmpty (List.reverse_eq_nil_iff.mp isEmpty)
    · intro digit there
      exact Nat.digits_lt_base low (List.mem_reverse.mp there)
    · intro rest isHead
      have isLast : Nat.digits base n.natAbs = rest.reverse ++ [0] := by
        rw [← List.reverse_reverse (Nat.digits base n.natAbs), isHead, List.reverse_cons]
      have last := Nat.getLast_digit_ne_zero base notZero
      simp [isLast] at last
    · rw [ofDigits_reverse, Nat.ofDigits_digits]

end Digits

/-- A digit is read as its value and is none of the other marks of a numeral. -/
theorem digitChar_plain : ∀ digit, digit < 36 →
    Numeral.digitValue? (.char (digitChar digit)) = some digit ∧
    Numeral.isMargin (.char (digitChar digit)) = false ∧
    Numeral.isSign (.char (digitChar digit)) = false ∧
    CodePoint.char (digitChar digit) ≠ .char '_' ∧
    (digitChar digit = '0' → digit = 0) := by
  decide

private theorem digitText_eq_textOf {digits : List Nat} (areDigits : ∀ digit ∈ digits, digit < 10) :
    digitText digits = Numeral.textOf digits := by
  have same : ∀ digit, digit < 10 → digitChar digit = Nat.digitChar digit := by
    decide
  exact List.map_congr_left fun digit there => congrArg CodePoint.char
    (same digit (areDigits digit there))

/-- Base ten has a text of its own. -/
theorem writesInBase_intText (n : Int) :
    ∃ digits, WritesInBase 10 n digits (Text.ofString (intText n)) := by
  obtain ⟨first, rest, isText, areDigits, isValue, noZero⟩ := Numeral.exists_digits n.natAbs
  refine ⟨first :: rest, ?_, List.cons_ne_nil first rest, areDigits, ?_, isValue⟩
  · rw [digitText_eq_textOf areDigits, ← isText, intText]
    split
    · rw [Text.ofString_append]
      rfl
    · rfl
  · rintro others same
    obtain ⟨isZero, rfl⟩ := List.cons.inj same
    exact noZero isZero

/-- Digits without a zero in front reach the power of the base that their first one stands for. -/
theorem pow_le_ofDigits {base first : Nat} {rest : List Nat} (notZero : first ≠ 0) :
    base ^ rest.length ≤ Numeral.ofDigits base (first :: rest) := by
  induction rest using List.reverseRecOn with
  | nil => simpa [Numeral.ofDigits] using Nat.one_le_iff_ne_zero.mpr notZero
  | append_singleton others digit induction =>
      rw [← List.cons_append, Numeral.ofDigits_concat, List.length_append, List.length_singleton,
        Nat.pow_succ]
      exact Nat.le_add_right_of_le (Nat.mul_le_mul_right base induction)

namespace WritesInBase

variable {base : Nat} {n : Int} {digits : List Nat} {text : Text}
  (writes : WritesInBase base n digits text) (high : base ≤ 36)
include writes

theorem length_le (low : 2 ≤ base) (safe : n.natAbs ≤ Num.greatestSafe) : digits.length ≤ 54 := by
  obtain ⟨first, rest, rfl⟩ := List.exists_cons_of_ne_nil writes.notEmpty
  by_cases isZero : first = 0
  · rw [writes.noZero rest (by rw [isZero])]
    simp
  · have reached : 2 ^ rest.length ≤ 2 ^ 53 := by
      calc 2 ^ rest.length ≤ base ^ rest.length := Nat.pow_le_pow_left low _
        _ ≤ Numeral.ofDigits base (first :: rest) := pow_le_ofDigits isZero
        _ = n.natAbs := writes.isValue
        _ ≤ 2 ^ 53 := safe
    have short := (Nat.pow_le_pow_iff_right (by decide)).mp reached
    exact Nat.succ_le_succ short

include high

theorem plain : ∀ digit ∈ digits, digit < 36 := fun digit there =>
  Nat.lt_of_lt_of_le (writes.areDigits digit there) high

theorem trim_text : text.trim Numeral.isMargin = text := by
  apply Text.trim_eq_self_of_forall
  rw [writes.isText]
  intro point there
  rcases List.mem_append.mp there with inSign | inDigits
  · split at inSign
    · rw [List.mem_singleton.mp inSign]
      rfl
    · cases inSign
  · obtain ⟨digit, isDigit, rfl⟩ := List.mem_map.mp inDigits
    exact (digitChar_plain digit (writes.plain high digit isDigit)).2.1

private theorem splitSign_text : Numeral.splitSign text = (decide (n < 0), digitText digits) := by
  obtain ⟨first, rest, rfl⟩ := List.exists_cons_of_ne_nil writes.notEmpty
  rw [writes.isText]
  by_cases negative : n < 0
  · rw [if_pos negative, decide_eq_true negative]
    rfl
  · rw [if_neg negative, decide_eq_false negative]
    refine Numeral.splitSign_of_unsigned (Text.startsOutside_cons.mpr ?_)
    exact (digitChar_plain first (writes.plain high first List.mem_cons_self)).2.2.1

private theorem baseMark?_digitText : Numeral.baseMark? (digitText digits) = none := by
  unfold Numeral.baseMark?
  split
  case h_1 mark others isText =>
    obtain ⟨first, rest, rfl⟩ := List.exists_cons_of_ne_nil writes.notEmpty
    obtain ⟨isZero, isRest⟩ := List.cons.inj isText
    have zero := (digitChar_plain first (writes.plain high first List.mem_cons_self)).2.2.2.2
      (CodePoint.char.inj isZero)
    rw [writes.noZero rest (by rw [zero])] at isRest
    cases isRest
  case h_2 => rfl

/-- The integer is read back. -/
theorem integer?_text (short : digits.length ≤ Numeral.greatestDecimalWidth) :
    Numeral.integer? base text = some n := by
  have isDigits : Numeral.digits? base (digitText digits) = some digits := by
    obtain ⟨first, rest, rfl⟩ := List.exists_cons_of_ne_nil writes.notEmpty
    exact Numeral.digits?_map
      (fun digit there => (digitChar_plain digit (writes.plain high digit there)).1)
      writes.areDigits
      fun digit there => (digitChar_plain digit (writes.plain high digit there)).2.2.2.1
  have isNatural : Numeral.natural? base (digitText digits) = some n.natAbs := by
    simp only [Numeral.natural?, writes.baseMark?_digitText high, isDigits, Option.bind_eq_bind,
      Option.bind_some, Numeral.guard_pos (.inr short : base ≠ 10 ∨ _), ← writes.isValue]
    rfl
  rw [Numeral.integer?, writes.trim_text high, writes.splitSign_text high]
  simp only [isNatural, Option.bind_eq_bind, Option.bind_some, decide_eq_true_eq, Option.pure_def,
    Option.some.injEq]
  omega

end WritesInBase

section Numbers

variable {number : Num} {n : Int} (isInt : number.toInt? = some n)
include isInt

theorem scriptText_of_toInt? (small : n.natAbs < Num.plainLimit) :
    number.scriptText = .ok (intText n) := by
  cases number with
  | int n =>
      obtain rfl := Option.some.inj isInt
      exact if_pos small
  | float x => exact congrArg Except.ok (Double.scriptText_of_toInt? small isInt)

theorem truncate?_of_toInt? : number.truncate? = some n := by
  cases number with
  | int n => exact isInt
  | float x => exact Double.truncate?_of_toInt? isInt

theorem exists_toDouble (safe : n.natAbs ≤ Num.greatestSafe) :
    ∃ x, number.toDouble = .ok x ∧ x.toInt? = some n := by
  cases number with
  | int n =>
      obtain rfl := Option.some.inj isInt
      exact Double.toDouble_int safe
  | float x => exact ⟨x, rfl, isInt⟩

end Numbers

private theorem numberToString_ten {number : Num} {n : Int} (isInt : number.toInt? = some n)
    (small : n.natAbs < Num.plainLimit) :
    numberToString number [.int 10] = .ok (.string (intText n)) := by
  have isRadix : intArgument [.int 10] 0 10 = .ok 10 := rfl
  simp only [numberToString, isRadix, Calculation.ok_bind, if_true,
    scriptText_of_toInt? isInt small]
  rfl

theorem numberToString_radix {number : Num} {n radix : Int} {x : Double}
    (isInt : number.toInt? = some n) (isDouble : number.toDouble = .ok x)
    (isIntDouble : x.toInt? = some n) (notTen : radix ≠ 10) (low : 2 ≤ radix) (high : radix ≤ 36) :
    numberToString number [.int radix] = .ok (.string (radixText radix.toNat n)) := by
  have isRadix : intArgument [.int radix] 0 10 = .ok radix := rfl
  have inside : ¬ (radix < 2 ∨ 36 < radix) := by omega
  have calculated : calculate number.toDouble = .ok x := by
    rw [isDouble]
    rfl
  simp only [numberToString, isRadix, Calculation.ok_bind, notTen, if_false, inside, calculated,
    isIntDouble, truncate?_of_toInt? isInt]
  rfl

/-- An integer is written in every base, and its text is read as the integer again. -/
theorem numberToString_writes {number : Num} {n : Int} (isInt : number.toInt? = some n)
    (safe : n.natAbs ≤ Num.greatestSafe) {radix : Int} (low : 2 ≤ radix) (high : radix ≤ 36) :
    ∃ text digits, numberToString number [.int radix] = .ok (.str text) ∧
      WritesInBase radix.toNat n digits text ∧ Numeral.integer? radix.toNat text = some n := by
  obtain ⟨text, digits, isWritten, writes⟩ : ∃ text digits,
      numberToString number [.int radix] = .ok (.str text) ∧
        WritesInBase radix.toNat n digits text := by
    by_cases isTen : radix = 10
    · obtain ⟨digits, writes⟩ := writesInBase_intText n
      subst isTen
      exact ⟨_, digits, numberToString_ten isInt (Nat.lt_of_le_of_lt safe (by decide)), writes⟩
    · obtain ⟨x, isDouble, isIntDouble⟩ := exists_toDouble isInt safe
      obtain ⟨digits, writes⟩ := writesInBase_radixText (show 2 ≤ radix.toNat by omega) n
      exact ⟨_, digits, numberToString_radix isInt isDouble isIntDouble isTen low high, writes⟩
  have short := writes.length_le (by omega) safe
  exact ⟨text, digits, isWritten, writes,
    writes.integer?_text (by omega) (Nat.le_trans short (by decide))⟩

theorem minusByte_sixteen : ∃ digits,
    numberToString (.int (-255)) [.int 16] = .ok (.string "-ff") ∧
      WritesInBase 16 (-255) digits (Text.ofString "-ff") ∧
      Numeral.integer? 16 (Text.ofString "-ff") = some (-255) := by
  have isInt : (Num.int (-255)).toInt? = some (-255) := rfl
  obtain ⟨text, digits, isWritten, writes, isRead⟩ :=
    numberToString_writes isInt (by decide) (show (2 : Int) ≤ 16 by decide) (by decide)
  obtain ⟨x, isDouble, isIntDouble⟩ := exists_toDouble isInt (by decide)
  have isText := numberToString_radix isInt isDouble isIntDouble
    (show (16 : Int) ≠ 10 by decide) (by decide) (by decide)
  rw [show radixText (Int.toNat 16) (-255) = "-ff" by decide] at isText
  obtain rfl : Text.ofString "-ff" = text :=
    Value.str.inj (Except.ok.inj (isText.symm.trans isWritten))
  exact ⟨digits, isText, writes, isRead⟩

end Method

end ScriptFold
