import ScriptFold.Proofs.Text.Digit

/-!
# The language of numeric strings

`NumericString` is the language of the trimmed strings that stand for a number in scripts,
and `Readable` the language that is read.  They are compared in `readable_iff`: beyond the
language lie two signs in a row, digits of other scripts, and underscores behind a base mark
(`Misread`); inside it, only a run of digits that is too long is not read (`Overlong`).
-/

namespace ScriptFold

namespace Numeral

def isSign (point : CodePoint) : Bool :=
  point.isOneOf ['+', '-']

inductive Sign : Text → Prop
  | none : Sign []
  | some {point : CodePoint} (signs : isSign point = true) : Sign [point]

/-- The marks that may stand between the digits of a decimal. -/
def isDecimalMark (point : CodePoint) : Bool :=
  point.isOneOf ['.', 'e', 'E', '+', '-']

section Grammar

variable (digit : CodePoint → Bool)

structure Digits (text : Text) : Prop where
  notEmpty : text ≠ []
  areDigits : ∀ point ∈ text, digit point = true

/-- An optional fraction, in which digits may be missing. -/
inductive Fraction : Text → Prop
  | none : Fraction []
  | some {digits : Text} (areDigits : ∀ point ∈ digits, digit point = true) :
      Fraction (.char '.' :: digits)

inductive Exponent : Text → Prop
  | none : Exponent []
  | some {mark : CodePoint} {sign digits : Text} (isMark : mark.isOneOf ['e', 'E'] = true)
      (signed : Sign sign) (isDigits : Digits digit digits) : Exponent (mark :: (sign ++ digits))

/-- An unsigned decimal: digits with an optional fraction, or a fraction alone. -/
inductive Decimal : Text → Prop
  | whole {digits fraction exponent : Text} (isDigits : Digits digit digits)
      (isFraction : Fraction digit fraction) (isExponent : Exponent digit exponent) :
      Decimal (digits ++ (fraction ++ exponent))
  | fraction {digits exponent : Text} (isDigits : Digits digit digits)
      (isExponent : Exponent digit exponent) : Decimal (.char '.' :: (digits ++ exponent))

/-- Digits between which single underscores may stand. -/
inductive Separated : Text → Prop
  | last {point : CodePoint} (isDigit : digit point = true) : Separated [point]
  | next {point : CodePoint} {rest : Text} (isDigit : digit point = true)
      (others : Separated rest) : Separated (point :: rest)
  | underscore {point : CodePoint} {rest : Text} (isDigit : digit point = true)
      (others : Separated rest) : Separated (point :: .char '_' :: rest)

/-- What may follow a base mark: separated digits, and an underscore before them. -/
inductive MarkedDigits : Text → Prop
  | plain {digits : Text} (separated : Separated digit digits) : MarkedDigits digits
  | underscore {digits : Text} (separated : Separated digit digits) :
      MarkedDigits (.char '_' :: digits)

end Grammar

section Languages

def isBasicDigit (point : CodePoint) : Bool :=
  point.isOneOf ['0', '1', '2', '3', '4', '5', '6', '7', '8', '9']

/-- The digits that scripts allow behind a base mark. -/
def digitsOfMark : Char → List Char
  | 'x' | 'X' => "0123456789abcdefABCDEF".toList
  | 'o' | 'O' => "01234567".toList
  | 'b' | 'B' => "01".toList
  | _ => []

/-- Whether a code point counts as a digit below `base`. -/
def isBelow (base : Nat) (point : CodePoint) : Bool :=
  (digitValue? point).any fun digit => digit < base

/-- The trimmed strings that stand for a number in scripts. -/
inductive NumericString : Text → Prop
  | empty : NumericString []
  | infinity {sign : Text} (signed : Sign sign) :
      NumericString (sign ++ Text.ofString "Infinity")
  | decimal {sign body : Text} (signed : Sign sign) (isDecimal : Decimal isBasicDigit body) :
      NumericString (sign ++ body)
  | marked {mark : Char} {digits : Text}
      (isDigits : Digits (fun point => point.isOneOf (digitsOfMark mark)) digits) :
      NumericString (.char '0' :: .char mark :: digits)

/-- Digits alone that are too many to be read as an integer. -/
def Overlong (text : Text) : Prop :=
  ∃ sign digits, Sign sign ∧ text = sign ++ digits ∧
    (∀ point ∈ digits, point.isDecimal = true) ∧ greatestDecimalWidth < digits.length

/-- The trimmed strings that are read as a number though they stand for none. -/
inductive Misread : Text → Prop
  /-- A decimal with a second sign. -/
  | signedTwice {first second : CodePoint} {body : Text} (isFirst : isSign first = true)
      (isSecond : isSign second = true) (isDecimal : Decimal CodePoint.isDecimal body) :
      Misread (first :: second :: body)
  /-- A decimal with a digit of another script. -/
  | foreignDecimal {sign body : Text} (signed : Sign sign)
      (isDecimal : Decimal CodePoint.isDecimal body) (short : ¬ Overlong (sign ++ body))
      (foreign : ∃ point ∈ body, point.isDecimal = true ∧ isBasicDigit point = false) :
      Misread (sign ++ body)
  /-- A base mark before an underscore or a digit of another script. -/
  | marked {mark : Char} {base : Nat} {digits : Text}
      (isBase : baseOf? (.char mark) = some base) (areDigits : MarkedDigits (isBelow base) digits)
      (foreign : ∃ point ∈ digits, point.isOneOf (digitsOfMark mark) = false) :
      Misread (.char '0' :: .char mark :: digits)

/-- The trimmed strings that are read as a number. -/
inductive Readable : Text → Prop
  | empty : Readable []
  | infinity {sign : Text} (signed : Sign sign) : Readable (sign ++ Text.ofString "Infinity")
  | decimal {sign body : Text} (signed : Sign sign)
      (isDecimal : Decimal CodePoint.isDecimal body) (short : ¬ Overlong (sign ++ body)) :
      Readable (sign ++ body)
  | signedTwice {first second : CodePoint} {body : Text} (isFirst : isSign first = true)
      (isSecond : isSign second = true) (isDecimal : Decimal CodePoint.isDecimal body) :
      Readable (first :: second :: body)
  | marked {mark : Char} {base : Nat} {digits : Text}
      (isBase : baseOf? (.char mark) = some base)
      (areDigits : MarkedDigits (isBelow base) digits) :
      Readable (.char '0' :: .char mark :: digits)

end Languages

section Classes

variable {point : CodePoint}

theorem eq_of_isOneOf {cs : List Char} (there : point.isOneOf cs = true) :
    ∃ c ∈ cs, point = .char c := by
  obtain ⟨c, isChar, same⟩ := List.any_eq_true.mp there
  exact ⟨c, isChar, eq_of_beq same⟩

/-- If a class has some characters, it has a code point that is one of them. -/
theorem class_of_isOneOf {inClass : CodePoint → Bool} {cs : List Char}
    (there : point.isOneOf cs = true) (within : (cs.all fun c => inClass (.char c)) = true) :
    inClass point = true := by
  obtain ⟨c, isChar, rfl⟩ := eq_of_isOneOf there
  exact List.all_eq_true.mp within c isChar

theorem not_class_of_isOneOf {inClass : CodePoint → Bool} {cs : List Char}
    (there : point.isOneOf cs = true) (without : (cs.any fun c => inClass (.char c)) = false) :
    inClass point = false := by
  obtain ⟨c, isChar, rfl⟩ := eq_of_isOneOf there
  exact eq_false_of_ne_true (List.any_eq_false.mp without c isChar)

theorem isDecimal_of_isBasicDigit (basic : isBasicDigit point = true) :
    point.isDecimal = true :=
  class_of_isOneOf basic (by decide)

theorem not_isDigit_of_isDecimalMark (isMark : isDecimalMark point = true) :
    point.isDigit = false :=
  not_class_of_isOneOf isMark (by decide)

theorem not_isDecimal_of_isDecimalMark (isMark : isDecimalMark point = true) :
    point.isDecimal = false :=
  not_class_of_isOneOf isMark (by decide)

theorem not_isDigit_of_isSign (signs : isSign point = true) : point.isDigit = false :=
  not_class_of_isOneOf signs (by decide)

theorem not_isSign_of_isDigit (digit : point.isDigit = true) : isSign point = false := by
  cases signs : isSign point with
  | false => rfl
  | true => simp [not_isDigit_of_isSign signs] at digit

theorem not_isSign_of_isDecimal (decimal : point.isDecimal = true) : isSign point = false :=
  not_isSign_of_isDigit (CodePoint.isDigit_of_isDecimal decimal)

/-- The base marks, with the base that each names. -/
def baseMarks : List (Char × Nat) :=
  [('x', 16), ('X', 16), ('o', 8), ('O', 8), ('b', 2), ('B', 2)]

theorem mem_baseMarks {mark : CodePoint} {base : Nat} (isBase : baseOf? mark = some base) :
    ∃ c, mark = .char c ∧ (c, base) ∈ baseMarks := by
  have isMark : ∀ (cs : List Char) (value : Nat), mark.isOneOf cs = true →
      cs.map (·, value) ⊆ baseMarks → ∃ c, mark = .char c ∧ (c, value) ∈ baseMarks := by
    intro cs value there within
    obtain ⟨c, isChar, same⟩ := eq_of_isOneOf there
    exact ⟨c, same, within (List.mem_map_of_mem isChar)⟩
  simp only [baseOf?] at isBase
  split at isBase
  case isTrue hexadecimal =>
    cases isBase
    exact isMark _ _ hexadecimal (by decide)
  case isFalse =>
    split at isBase
    case isTrue octal =>
      cases isBase
      exact isMark _ _ octal (by decide)
    case isFalse =>
      split at isBase
      case isTrue binary =>
        cases isBase
        exact isMark _ _ binary (by decide)
      case isFalse => cases isBase

theorem baseOf?_of_mem : ∀ mark ∈ baseMarks, baseOf? (.char mark.1) = some mark.2 := by
  decide

/-- A base mark is no part of a decimal, and the base that it names is not ten. -/
theorem baseMarks_apart : ∀ mark ∈ baseMarks, (CodePoint.char mark.1).isDigit = false ∧
    isDecimalMark (.char mark.1) = false ∧ mark.2 ≠ 10 := by
  decide

theorem digitsOfMark_isBelow : ∀ mark ∈ baseMarks,
    ((digitsOfMark mark.1).all fun c => isBelow mark.2 (.char c)) = true := by
  decide +kernel

theorem mem_baseMarks_of_digitsOfMark {mark c : Char} (there : c ∈ digitsOfMark mark) :
    ∃ base, (mark, base) ∈ baseMarks := by
  unfold digitsOfMark at there
  split at there
  case h_1 | h_2 => exact ⟨16, by decide⟩
  case h_3 | h_4 => exact ⟨8, by decide⟩
  case h_5 | h_6 => exact ⟨2, by decide⟩
  case h_7 => cases there

end Classes

section Decimal

variable {digit other : CodePoint → Bool} {text : Text}

theorem Digits.mono (isDigits : Digits digit text)
    (within : ∀ point ∈ text, digit point = true → other point = true) : Digits other text := by
  constructor
  · exact isDigits.notEmpty
  · intro point there
    exact within point there (isDigits.areDigits point there)

theorem Fraction.mono (isFraction : Fraction digit text)
    (within : ∀ point ∈ text, digit point = true → other point = true) : Fraction other text := by
  cases isFraction with
  | none => exact .none
  | some areDigits =>
      exact .some fun point there => within point (.tail _ there) (areDigits point there)

theorem Exponent.mono (isExponent : Exponent digit text)
    (within : ∀ point ∈ text, digit point = true → other point = true) : Exponent other text := by
  cases isExponent with
  | none => exact .none
  | some isMark signed isDigits =>
      exact .some isMark signed (isDigits.mono fun point there => within point (by simp [there]))

/-- Only the digits of a decimal depend on the class of digits. -/
theorem Decimal.mono (isDecimal : Decimal digit text)
    (within : ∀ point ∈ text, digit point = true → other point = true) : Decimal other text := by
  cases isDecimal with
  | whole isDigits isFraction isExponent =>
      exact .whole (isDigits.mono fun point there => within point (by simp [there]))
        (isFraction.mono fun point there => within point (by simp [there]))
        (isExponent.mono fun point there => within point (by simp [there]))
  | fraction isDigits isExponent =>
      exact .fraction (isDigits.mono fun point there => within point (by simp [there]))
        (isExponent.mono fun point there => within point (by simp [there]))

theorem Sign.isDecimalMark_of_mem {sign : Text} (signed : Sign sign) {point : CodePoint}
    (there : point ∈ sign) : isDecimalMark point = true := by
  cases signed with
  | none => cases there
  | some signs =>
      rw [List.mem_singleton.mp there]
      exact class_of_isOneOf signs (by decide)

theorem Exponent.mem (isExponent : Exponent digit text) {point : CodePoint}
    (there : point ∈ text) : digit point = true ∨ isDecimalMark point = true := by
  cases isExponent with
  | none => cases there
  | some isMark signed isDigits =>
      rcases List.mem_cons.mp there with rfl | inside
      · exact .inr (class_of_isOneOf isMark (by decide))
      · rcases List.mem_append.mp inside with inSign | inDigits
        · exact .inr (signed.isDecimalMark_of_mem inSign)
        · exact .inl (isDigits.areDigits point inDigits)

/-- A decimal is made of digits and of the marks between them. -/
theorem Decimal.mem (isDecimal : Decimal digit text) {point : CodePoint} (there : point ∈ text) :
    digit point = true ∨ isDecimalMark point = true := by
  cases isDecimal with
  | whole isDigits isFraction isExponent =>
      rcases List.mem_append.mp there with inDigits | behind
      · exact .inl (isDigits.areDigits point inDigits)
      · rcases List.mem_append.mp behind with inFraction | inExponent
        · cases isFraction with
          | none => cases inFraction
          | some areDigits =>
              rcases List.mem_cons.mp inFraction with rfl | inDigits
              · exact .inr rfl
              · exact .inl (areDigits point inDigits)
        · exact isExponent.mem inExponent
  | fraction isDigits isExponent =>
      rcases List.mem_cons.mp there with rfl | inside
      · exact .inr rfl
      · rcases List.mem_append.mp inside with inDigits | inExponent
        · exact .inl (isDigits.areDigits point inDigits)
        · exact isExponent.mem inExponent

theorem Digits.isDecimal (isDigits : Digits digit text) : Decimal digit text := by
  have alone := Decimal.whole isDigits .none .none
  rwa [List.append_nil, List.append_nil] at alone

theorem Decimal.notEmpty (isDecimal : Decimal digit text) : text ≠ [] := by
  cases isDecimal with
  | whole isDigits => simp [isDigits.notEmpty]
  | fraction => simp

theorem Digits.startsOutside (isDigits : Digits CodePoint.isDecimal text) (behind : Text) :
    (text ++ behind).StartsOutside isSign := by
  obtain ⟨first, others, rfl⟩ := List.exists_cons_of_ne_nil isDigits.notEmpty
  rw [List.cons_append, Text.startsOutside_cons]
  exact not_isSign_of_isDecimal (isDigits.areDigits first List.mem_cons_self)

/-- An unsigned decimal does not begin with a sign. -/
theorem Decimal.startsOutside (isDecimal : Decimal CodePoint.isDecimal text) :
    text.StartsOutside isSign := by
  cases isDecimal with
  | whole isDigits => exact isDigits.startsOutside _
  | fraction => exact Text.startsOutside_cons.mpr rfl

end Decimal

section Sign

variable {sign otherSign body otherBody : Text}

/-- A text is split into an optional sign and the rest in one way only. -/
theorem Sign.append_inj (signed : Sign sign) (otherSigned : Sign otherSign)
    (unsigned : body.StartsOutside isSign)
    (otherUnsigned : otherBody.StartsOutside isSign)
    (same : sign ++ body = otherSign ++ otherBody) : body = otherBody := by
  cases signed with
  | none =>
      cases otherSigned with
      | none => exact same
      | some signs =>
          rw [List.nil_append] at same
          rw [same, List.singleton_append, Text.startsOutside_cons, signs] at unsigned
          cases unsigned
  | some signs =>
      cases otherSigned with
      | none =>
          rw [List.nil_append] at same
          rw [← same, List.singleton_append, Text.startsOutside_cons, signs] at otherUnsigned
          cases otherUnsigned
      | some otherSigns => exact (List.cons.inj same).2

theorem Sign.ne_signedTwice (signed : Sign sign) {first second : CodePoint} {behind : Text}
    (isFirst : isSign first = true) (isSecond : isSign second = true)
    (unsigned : body.StartsOutside isSign) :
    sign ++ body ≠ first :: second :: behind := by
  intro same
  cases signed with
  | none =>
      rw [List.nil_append] at same
      rw [same, Text.startsOutside_cons, isFirst] at unsigned
      cases unsigned
  | some =>
      have behindFirst : body = second :: behind := (List.cons.inj same).2
      rw [behindFirst, Text.startsOutside_cons, isSecond] at unsigned
      cases unsigned

theorem infinity_unsigned : (Text.ofString "Infinity").StartsOutside isSign :=
  Text.startsOutside_cons.mpr (by decide)

/-- A base mark stands in no decimal. -/
theorem Sign.ne_marked (signed : Sign sign) (isDecimal : Decimal CodePoint.isDecimal body)
    {mark : Char} {base : Nat} (isMark : (mark, base) ∈ baseMarks) {digits : Text} :
    sign ++ body ≠ .char '0' :: .char mark :: digits := by
  intro same
  obtain ⟨noDigit, noMark, -⟩ := baseMarks_apart _ isMark
  have there : CodePoint.char mark ∈ sign ++ body := by simp [same]
  rcases List.mem_append.mp there with inSign | inBody
  · rw [signed.isDecimalMark_of_mem inSign] at noMark
    cases noMark
  · rcases isDecimal.mem inBody with decimal | isPart
    · rw [CodePoint.isDigit_of_isDecimal decimal] at noDigit
      cases noDigit
    · rw [isPart] at noMark
      cases noMark

end Sign

section Separated

variable {digit : CodePoint → Bool} {text : Text}

theorem Digits.separated (isDigits : Digits digit text) : Separated digit text := by
  obtain ⟨notEmpty, areDigits⟩ := isDigits
  induction text with
  | nil => exact absurd rfl notEmpty
  | cons point rest induction =>
      have isDigit := areDigits point List.mem_cons_self
      cases rest with
      | nil => exact .last isDigit
      | cons second others =>
          exact .next isDigit
            (induction (by simp) fun inner there => areDigits inner (.tail _ there))

theorem Separated.notEmpty (separated : Separated digit text) : text ≠ [] := by
  cases separated with
  | last | next | underscore => simp

theorem Separated.mem (separated : Separated digit text) {point : CodePoint}
    (there : point ∈ text) : digit point = true ∨ point = .char '_' := by
  induction separated with
  | last isDigit =>
      rw [List.mem_singleton.mp there]
      exact .inl isDigit
  | next isDigit _ induction =>
      rcases List.mem_cons.mp there with rfl | behind
      · exact .inl isDigit
      · exact induction behind
  | underscore isDigit _ induction =>
      rcases List.mem_cons.mp there with rfl | behind
      · exact .inl isDigit
      · rcases List.mem_cons.mp behind with rfl | inRest
        · exact .inr rfl
        · exact induction inRest

theorem MarkedDigits.notEmpty (areDigits : MarkedDigits digit text) : text ≠ [] := by
  cases areDigits with
  | plain separated => exact separated.notEmpty
  | underscore => simp

end Separated

section Comparison

variable {text : Text}

theorem Overlong.long (overlong : Overlong text) : greatestDecimalWidth < text.length := by
  obtain ⟨sign, digits, -, rfl, -, long⟩ := overlong
  rw [List.length_append]
  omega

theorem Overlong.isDecimal (overlong : Overlong text) :
    ∃ sign body, Sign sign ∧ Decimal CodePoint.isDecimal body ∧ text = sign ++ body := by
  obtain ⟨sign, digits, signed, isText, areDigits, long⟩ := overlong
  have notEmpty : digits ≠ [] := List.ne_nil_of_length_pos (Nat.zero_lt_of_lt long)
  exact ⟨sign, digits, signed, Digits.isDecimal ⟨notEmpty, areDigits⟩, isText⟩

theorem overlong_append_iff {sign body : Text} (signed : Sign sign)
    (isDecimal : Decimal CodePoint.isDecimal body) : Overlong (sign ++ body) ↔
      (∀ point ∈ body, point.isDecimal = true) ∧ greatestDecimalWidth < body.length := by
  constructor
  · intro ⟨otherSign, digits, otherSigned, isText, areDigits, long⟩
    have unsigned : digits.StartsOutside isSign := Text.startsOutside_of_forall fun point there =>
      not_isSign_of_isDecimal (areDigits point there)
    rw [signed.append_inj otherSigned isDecimal.startsOutside unsigned isText]
    exact ⟨areDigits, long⟩
  · intro ⟨areDigits, long⟩
    exact ⟨sign, body, signed, rfl, areDigits, long⟩

theorem not_overlong_marked {mark : Char} {base : Nat} (isMark : (mark, base) ∈ baseMarks)
    (digits : Text) : ¬ Overlong (.char '0' :: .char mark :: digits) := by
  intro overlong
  obtain ⟨sign, body, signed, isDecimal, isText⟩ := overlong.isDecimal
  exact signed.ne_marked isDecimal isMark isText.symm

/-- A mark before digits of its base names a base. -/
theorem base_of_digits {mark : Char} {digits : Text}
    (isDigits : Digits (fun point => point.isOneOf (digitsOfMark mark)) digits) :
    ∃ base, (mark, base) ∈ baseMarks := by
  obtain ⟨point, there⟩ := List.exists_mem_of_ne_nil digits isDigits.notEmpty
  obtain ⟨c, isDigit, -⟩ := eq_of_isOneOf (isDigits.areDigits point there)
  exact mem_baseMarks_of_digitsOfMark isDigit

/-- A numeric string is read unless it has too many digits. -/
theorem NumericString.readable (numeric : NumericString text) (short : ¬ Overlong text) :
    Readable text := by
  cases numeric with
  | empty => exact .empty
  | infinity signed => exact .infinity signed
  | decimal signed isDecimal =>
      exact .decimal signed (isDecimal.mono fun _ _ => isDecimal_of_isBasicDigit) short
  | @marked mark digits isDigits =>
      obtain ⟨base, isMark⟩ := base_of_digits isDigits
      have isBelow : Digits (isBelow base) digits := isDigits.mono fun _ _ isDigit =>
        class_of_isOneOf isDigit (digitsOfMark_isBelow _ isMark)
      exact .marked (baseOf?_of_mem _ isMark) (.plain isBelow.separated)

theorem Misread.readable (misread : Misread text) : Readable text := by
  cases misread with
  | signedTwice isFirst isSecond isDecimal => exact .signedTwice isFirst isSecond isDecimal
  | foreignDecimal signed isDecimal short => exact .decimal signed isDecimal short
  | marked isBase areDigits => exact .marked isBase areDigits

private theorem Readable.numeric_or_misread (readable : Readable text) :
    NumericString text ∧ ¬ Overlong text ∨ Misread text := by
  cases readable with
  | empty =>
      refine .inl ⟨.empty, fun overlong => ?_⟩
      exact absurd overlong.long (by decide)
  | @infinity sign signed =>
      refine .inl ⟨.infinity signed, fun overlong => ?_⟩
      have few : sign.length ≤ 1 := by
        cases signed with
        | none | some => simp
      have word : (Text.ofString "Infinity").length = 8 := by decide
      have long := overlong.long
      rw [List.length_append, word, greatestDecimalWidth] at long
      omega
  | @decimal sign body signed isDecimal short =>
      by_cases foreign : ∃ point ∈ body, point.isDecimal = true ∧ isBasicDigit point = false
      · exact .inr (.foreignDecimal signed isDecimal short foreign)
      · have basic : Decimal isBasicDigit body := by
          refine isDecimal.mono fun point there decimal => ?_
          by_contra notBasic
          exact foreign ⟨point, there, decimal, eq_false_of_ne_true notBasic⟩
        exact .inl ⟨.decimal signed basic, short⟩
  | signedTwice isFirst isSecond isDecimal => exact .inr (.signedTwice isFirst isSecond isDecimal)
  | @marked mark base digits isBase areDigits =>
      obtain ⟨c, same, isMark⟩ := mem_baseMarks isBase
      cases same
      by_cases foreign : ∃ point ∈ digits, point.isOneOf (digitsOfMark mark) = false
      · exact .inr (.marked isBase areDigits foreign)
      · refine .inl ⟨.marked ⟨areDigits.notEmpty, fun point there => ?_⟩,
          not_overlong_marked isMark digits⟩
        by_contra notDigit
        exact foreign ⟨point, there, eq_false_of_ne_true notDigit⟩

/-- What is read are the numeric strings without too many digits, and what is misread. -/
theorem readable_iff : Readable text ↔ NumericString text ∧ ¬ Overlong text ∨ Misread text := by
  constructor
  · exact Readable.numeric_or_misread
  · intro reasons
    rcases reasons with ⟨numeric, short⟩ | misread
    · exact numeric.readable short
    · exact misread.readable

private theorem not_decimal_infinity : ¬ Decimal CodePoint.isDecimal (Text.ofString "Infinity")
    := by
  intro isDecimal
  have letter : CodePoint.char 'I' ∈ Text.ofString "Infinity" := by decide
  have noPart : ¬ ((CodePoint.char 'I').isDecimal = true ∨ isDecimalMark (.char 'I') = true) := by
    decide
  exact noPart (isDecimal.mem letter)

/-- A decimal with a sign is a numeric string only if it has no digits of other scripts. -/
theorem NumericString.basic_of_decimal {sign body : Text} (numeric : NumericString text)
    (signed : Sign sign) (isDecimal : Decimal CodePoint.isDecimal body)
    (isText : text = sign ++ body) : Decimal isBasicDigit body := by
  cases numeric with
  | empty => exact absurd (List.append_eq_nil_iff.mp isText.symm).2 isDecimal.notEmpty
  | infinity otherSigned =>
      have same := otherSigned.append_inj signed infinity_unsigned isDecimal.startsOutside isText
      rw [← same] at isDecimal
      exact absurd isDecimal not_decimal_infinity
  | decimal otherSigned basic =>
      have unsigned := (basic.mono fun _ _ => isDecimal_of_isBasicDigit).startsOutside
      rw [← otherSigned.append_inj signed unsigned isDecimal.startsOutside isText]
      exact basic
  | marked isDigits =>
      obtain ⟨base, isMark⟩ := base_of_digits isDigits
      exact absurd isText.symm (signed.ne_marked isDecimal isMark)

private theorem NumericString.not_signedTwice {first second : CodePoint} {body : Text}
    (numeric : NumericString text) (isFirst : isSign first = true)
    (isSecond : isSign second = true) : text ≠ first :: second :: body := by
  intro isText
  cases numeric with
  | empty => cases isText
  | infinity signed => exact signed.ne_signedTwice isFirst isSecond infinity_unsigned isText
  | decimal signed basic =>
      have unsigned := (basic.mono fun _ _ => isDecimal_of_isBasicDigit).startsOutside
      exact signed.ne_signedTwice isFirst isSecond unsigned isText
  | marked =>
      rw [← (List.cons.inj isText).1] at isFirst
      cases isFirst

/-- Behind a base mark, a numeric string has only digits of its base. -/
theorem NumericString.digits_of_marked {mark : Char} {base : Nat} {digits : Text}
    (numeric : NumericString text) (isMark : (mark, base) ∈ baseMarks)
    (isText : text = .char '0' :: .char mark :: digits) :
    Digits (fun point => point.isOneOf (digitsOfMark mark)) digits := by
  cases numeric with
  | empty => cases isText
  | infinity signed =>
      cases signed with
      | none => cases isText
      | some signs =>
          rw [(List.cons.inj isText).1] at signs
          cases signs
  | decimal signed basic =>
      have isDecimal := basic.mono fun _ _ => isDecimal_of_isBasicDigit
      exact absurd isText (signed.ne_marked isDecimal isMark)
  | marked isDigits =>
      cases isText
      exact isDigits

/-- What is misread is no numeric string. -/
theorem Misread.not_numeric (misread : Misread text) : ¬ NumericString text := by
  intro numeric
  cases misread with
  | signedTwice isFirst isSecond => exact numeric.not_signedTwice isFirst isSecond rfl
  | foreignDecimal signed isDecimal _ foreign =>
      obtain ⟨point, there, decimal, notBasic⟩ := foreign
      rcases (numeric.basic_of_decimal signed isDecimal rfl).mem there with basic | isMark
      · rw [basic] at notBasic
        cases notBasic
      · rw [not_isDecimal_of_isDecimalMark isMark] at decimal
        cases decimal
  | marked isBase _ foreign =>
      obtain ⟨c, same, isMark⟩ := mem_baseMarks isBase
      cases same
      obtain ⟨point, there, notDigit⟩ := foreign
      rw [(numeric.digits_of_marked isMark rfl).areDigits point there] at notDigit
      cases notDigit

end Comparison

end Numeral

end ScriptFold
