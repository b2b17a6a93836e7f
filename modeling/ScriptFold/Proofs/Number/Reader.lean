import ScriptFold.Proofs.Number.Grammar
import ScriptFold.Proofs.Number.Numeral

/-!
# Readers of numerals

Each reader of numerals accepts exactly the texts of one rule of the grammar: an exponent, an
unsigned decimal, separated digits, an integer behind a base mark.  A decimal that is written in
parts, with a fraction and an exponent that may be missing, is split into the same parts.
-/

namespace ScriptFold

namespace Numeral

section Sign

theorem splitSign_of_unsigned {body : Text} (unsigned : body.StartsOutside isSign) :
    splitSign body = (false, body) := by
  unfold splitSign
  split
  · cases Text.startsOutside_cons.mp unsigned
  · cases Text.startsOutside_cons.mp unsigned
  · rfl

theorem splitSign_cons {point : CodePoint} (signs : isSign point = true) (body : Text) :
    (splitSign (point :: body)).2 = body := by
  obtain ⟨c, isChar, rfl⟩ := eq_of_isOneOf signs
  rcases List.mem_cons.mp isChar with rfl | isMinus
  · rfl
  · rw [List.mem_singleton.mp isMinus]
    rfl

/-- A sign that stands before an unsigned text is split off. -/
theorem splitSign_append {sign body : Text} (signed : Sign sign)
    (unsigned : body.StartsOutside isSign) : (splitSign (sign ++ body)).2 = body := by
  cases signed with
  | none => rw [List.nil_append, splitSign_of_unsigned unsigned]
  | some signs => exact splitSign_cons signs body

/-- A text is an optional sign before the rest, and has a sign if it begins with one. -/
theorem exists_sign (text : Text) : ∃ sign, Sign sign ∧ text = sign ++ (splitSign text).2 ∧
    (sign = [] → text.StartsOutside isSign) := by
  cases text with
  | nil => exact ⟨[], .none, rfl, fun _ => Text.startsOutside_nil⟩
  | cons point rest =>
      cases signs : isSign point with
      | true =>
          refine ⟨[point], .some signs, ?_, ?_⟩
          · rw [splitSign_cons signs, List.singleton_append]
          · intro isEmpty
            cases isEmpty
      | false =>
          have unsigned : Text.StartsOutside isSign (point :: rest) :=
            Text.startsOutside_cons.mpr signs
          exact ⟨[], .none, by rw [splitSign_of_unsigned unsigned, List.nil_append],
            fun _ => unsigned⟩

end Sign

section Decimal

theorem spanDecimals_of_startsOutside {rest : Text}
    (stops : rest.StartsOutside CodePoint.isDecimal) : spanDecimals rest = ([], rest) := by
  cases rest with
  | nil => rfl
  | cons point others =>
      have noDigit := Text.startsOutside_cons.mp stops
      rw [CodePoint.isDecimal, Option.isSome_eq_false_iff, Option.isNone_iff_eq_none] at noDigit
      simp [spanDecimals, noDigit]

/-- The decimal digits at the front are split off, and no more. -/
theorem spanDecimals_append {digits rest : Text}
    (areDigits : ∀ point ∈ digits, point.isDecimal = true)
    (stops : rest.StartsOutside CodePoint.isDecimal) :
    (spanDecimals (digits ++ rest)).1.length = digits.length ∧
      (spanDecimals (digits ++ rest)).2 = rest := by
  induction digits with
  | nil => simp [spanDecimals_of_startsOutside stops]
  | cons point others induction =>
      obtain ⟨digit, value⟩ := Option.isSome_iff_exists.mp (areDigits point List.mem_cons_self)
      have split := induction fun inner there => areDigits inner (.tail _ there)
      simp [spanDecimals, value, split]

theorem exists_span (text : Text) : ∃ digits,
    text = digits ++ (spanDecimals text).2 ∧ (∀ point ∈ digits, point.isDecimal = true) ∧
      (spanDecimals text).1.length = digits.length := by
  induction text with
  | nil => exact ⟨[], by simp [spanDecimals]⟩
  | cons point rest induction =>
      cases value : point.decimalValue? with
      | none => exact ⟨[], by simp [spanDecimals, value]⟩
      | some digit =>
          obtain ⟨digits, isText, areDigits, width⟩ := induction
          refine ⟨point :: digits, ?_, ?_, ?_⟩
          · simpa [spanDecimals, value] using isText
          · intro inner there
            rcases List.mem_cons.mp there with rfl | inside
            · simp [CodePoint.isDecimal, value]
            · exact areDigits inner inside
          · simp [spanDecimals, value, width]

theorem spanDecimals_ne_nil {text digits : Text}
    (width : (spanDecimals text).1.length = digits.length) :
    (spanDecimals text).1 ≠ [] ↔ digits ≠ [] := by
  rw [← List.length_pos_iff, ← List.length_pos_iff, width]

/-- Digits alone are split off whole. -/
theorem spanDecimals_digits_iff {text : Text} :
    (spanDecimals text).1 ≠ [] ∧ (spanDecimals text).2 = [] ↔ Digits CodePoint.isDecimal text := by
  constructor
  · intro ⟨notEmpty, noRest⟩
    obtain ⟨digits, isText, areDigits, width⟩ := exists_span text
    rw [noRest, List.append_nil] at isText
    rw [isText]
    exact ⟨(spanDecimals_ne_nil width).mp notEmpty, areDigits⟩
  · intro isDigits
    have split := spanDecimals_append isDigits.areDigits Text.startsOutside_nil
    rw [List.append_nil] at split
    exact ⟨(spanDecimals_ne_nil split.1).mpr isDigits.notEmpty, split.2⟩

private theorem exponent?_cons {mark : CodePoint} {rest : Text} :
    (exponent? (mark :: rest)).isSome = true ↔ mark.isOneOf ['e', 'E'] = true ∧
      Digits CodePoint.isDecimal (splitSign rest).2 := by
  rw [← spanDecimals_digits_iff]
  by_cases isMark : mark.isOneOf ['e', 'E'] = true
  · by_cases digits : (spanDecimals (splitSign rest).2).1 ≠ [] ∧
        (spanDecimals (splitSign rest).2).2 = []
    · simp [exponent?, guard, isMark, digits]
    · simp [exponent?, guard, isMark, digits]
  · simp [exponent?, guard, isMark]

theorem exponent?_isSome_iff {text : Text} :
    (exponent? text).isSome = true ↔ Exponent CodePoint.isDecimal text := by
  cases text with
  | nil => exact iff_of_true rfl .none
  | cons mark rest =>
      rw [exponent?_cons]
      constructor
      · intro ⟨isMark, isDigits⟩
        obtain ⟨sign, signed, isText, -⟩ := exists_sign rest
        rw [isText]
        exact .some isMark signed isDigits
      · intro isExponent
        cases isExponent with
        | some isMark signed isDigits =>
            refine ⟨isMark, ?_⟩
            rw [splitSign_append signed isDigits.isDecimal.startsOutside]
            exact isDigits

theorem Exponent.stops {text : Text} (isExponent : Exponent CodePoint.isDecimal text) :
    text.StartsOutside CodePoint.isDecimal ∧ ∀ more, text ≠ .char '.' :: more := by
  cases isExponent with
  | none => simp [Text.startsOutside_nil]
  | some isMark =>
      constructor
      · exact Text.startsOutside_cons.mpr (not_class_of_isOneOf isMark (by decide))
      · intro more same
        rw [(List.cons.inj same).1] at isMark
        exact absurd isMark (by decide)

/-- The digits of a fraction at the front of a text, and the rest. -/
def spanFraction : Text → List Nat × Text
  | .char '.' :: more => spanDecimals more
  | rest => ([], rest)

theorem spanFraction_of_noPoint {rest : Text} (noPoint : ∀ more, rest ≠ .char '.' :: more) :
    spanFraction rest = ([], rest) := by
  unfold spanFraction
  split
  · exact absurd rfl (noPoint _)
  · rfl

theorem exists_fraction (rest : Text) : ∃ fraction, Fraction CodePoint.isDecimal fraction ∧
    rest = fraction ++ (spanFraction rest).2 ∧ ((spanFraction rest).1 ≠ [] →
      ∃ digits, Digits CodePoint.isDecimal digits ∧ fraction = .char '.' :: digits) := by
  by_cases point : ∃ more, rest = .char '.' :: more
  · obtain ⟨more, rfl⟩ := point
    obtain ⟨digits, isMore, areDigits, width⟩ := exists_span more
    refine ⟨.char '.' :: digits, .some areDigits, congrArg (.char '.' :: ·) isMore, ?_⟩
    intro notEmpty
    exact ⟨digits, ⟨(spanDecimals_ne_nil width).mp notEmpty, areDigits⟩, rfl⟩
  · rw [spanFraction_of_noPoint (not_exists.mp point)]
    exact ⟨[], .none, rfl, fun notEmpty => absurd rfl notEmpty⟩

theorem Fraction.span_append {fraction exponent : Text}
    (isFraction : Fraction CodePoint.isDecimal fraction)
    (isExponent : Exponent CodePoint.isDecimal exponent) :
    (fraction ++ exponent).StartsOutside CodePoint.isDecimal ∧
      (spanFraction (fraction ++ exponent)).2 = exponent := by
  cases isFraction with
  | none =>
      rw [List.nil_append, spanFraction_of_noPoint isExponent.stops.2]
      exact ⟨isExponent.stops.1, rfl⟩
  | some areDigits =>
      constructor
      · exact Text.startsOutside_cons.mpr (by decide)
      · exact (spanDecimals_append areDigits isExponent.stops.1).2

section Unsigned

variable {body : Text} {negative : Bool}

private theorem unsignedDecimal?_isSome : (unsignedDecimal? negative body).isSome = true ↔
    ((spanDecimals body).1 ≠ [] ∨ (spanFraction (spanDecimals body).2).1 ≠ []) ∧
      Exponent CodePoint.isDecimal (spanFraction (spanDecimals body).2).2 := by
  have same : unsignedDecimal? negative body = (do
      guard ((spanDecimals body).1 ≠ [] ∨ (spanFraction (spanDecimals body).2).1 ≠ [])
      let exponent ← exponent? (spanFraction (spanDecimals body).2).2
      return nearest negative
        (ofDigits 10 ((spanDecimals body).1 ++ (spanFraction (spanDecimals body).2).1))
        (exponent - (spanFraction (spanDecimals body).2).1.length)) := rfl
  rw [← exponent?_isSome_iff]
  by_cases digits :
      (spanDecimals body).1 ≠ [] ∨ (spanFraction (spanDecimals body).2).1 ≠ []
  · cases exponent : exponent? (spanFraction (spanDecimals body).2).2 with
    | none => simp [same, guard, digits, exponent]
    | some power => simp [same, guard, digits, exponent]
  · simp [same, guard, digits]

/-- An unsigned decimal is read, and nothing else. -/
theorem unsignedDecimal?_isSome_iff :
    (unsignedDecimal? negative body).isSome = true ↔ Decimal CodePoint.isDecimal body := by
  rw [unsignedDecimal?_isSome]
  constructor
  · intro ⟨notEmpty, isExponent⟩
    obtain ⟨digits, isText, areDigits, width⟩ := exists_span body
    obtain ⟨fraction, isFraction, isRest, hasDigits⟩ := exists_fraction (spanDecimals body).2
    rw [spanDecimals_ne_nil width] at notEmpty
    rw [isText, isRest]
    by_cases whole : digits = []
    · obtain ⟨fractionDigits, areFraction, rfl⟩ := hasDigits (notEmpty.resolve_left (· whole))
      rw [whole]
      exact .fraction areFraction isExponent
    · exact .whole ⟨whole, areDigits⟩ isFraction isExponent
  · intro isDecimal
    cases isDecimal with
    | whole isDigits isFraction isExponent =>
        obtain ⟨stops, behind⟩ := isFraction.span_append isExponent
        obtain ⟨width, isRest⟩ := spanDecimals_append isDigits.areDigits stops
        rw [isRest, behind, spanDecimals_ne_nil width]
        exact ⟨.inl isDigits.notEmpty, isExponent⟩
    | @fraction digits exponent isDigits isExponent =>
        obtain ⟨width, isRest⟩ := spanDecimals_append isDigits.areDigits isExponent.stops.1
        have point : spanDecimals (.char '.' :: (digits ++ exponent)) =
            ([], .char '.' :: (digits ++ exponent)) := rfl
        rw [point, spanFraction, isRest, spanDecimals_ne_nil width]
        exact ⟨.inr isDigits.notEmpty, isExponent⟩

end Unsigned

end Decimal

section Separated

variable {base : Nat} {point : CodePoint} {digit : Nat} {text more : Text}

theorem isBelow_iff : isBelow base point = true ↔
    ∃ digit, digitValue? point = some digit ∧ digit < base := by
  simp [isBelow, Option.any_eq_true]

theorem not_isBelow_underscore (base : Nat) : isBelow base (.char '_') = false := by
  have noDigit : digitValue? (.char '_') = none := by decide
  simp [isBelow, noDigit]

theorem digits?_none (notBelow : isBelow base point = false) (rest : Text) :
    digits? base (point :: rest) = none := by
  rw [digits?]
  cases value : digitValue? point with
  | none => rfl
  | some digit =>
      have large : ¬ digit < base := by simpa [isBelow, value] using notBelow
      rw [Option.bind_eq_bind, Option.bind_some, guard, if_neg large]
      rfl

theorem digits?_underscore (value : digitValue? point = some digit) (small : digit < base) :
    digits? base (point :: .char '_' :: more) = (digits? base more).map (digit :: ·) := by
  rw [digits?, value]
  simp only [Option.bind_eq_bind, Option.bind_some, guard_pos small]

/-- Digits that single underscores may separate are read, and nothing else. -/
theorem digits?_isSome_iff :
    (digits? base text).isSome = true ↔ Separated (isBelow base) text := by
  constructor
  · induction text using digits?.induct with
    | case1 =>
        intro read
        cases read
    | case2 point rest induction =>
        intro read
        cases below : isBelow base point with
        | false =>
            rw [digits?_none below] at read
            cases read
        | true =>
            obtain ⟨digit, value, small⟩ := isBelow_iff.mp below
            split at induction
            case h_1 => exact .last below
            case h_2 more =>
              rw [digits?_underscore value small, Option.isSome_map] at read
              exact .underscore below (induction read)
            case h_3 next more notUnderscore =>
              rw [digits?_next value small notUnderscore, Option.isSome_map] at read
              exact .next below (induction read)
  · intro separated
    induction separated with
    | last below =>
        obtain ⟨digit, value, small⟩ := isBelow_iff.mp below
        rw [digits?_last value small]
        rfl
    | @next point rest below others induction =>
        obtain ⟨digit, value, small⟩ := isBelow_iff.mp below
        obtain ⟨next, more, rfl⟩ := List.exists_cons_of_ne_nil others.notEmpty
        have isNext : next ≠ .char '_' := by
          intro same
          rw [same, digits?_none (not_isBelow_underscore base)] at induction
          cases induction
        rw [digits?_next value small isNext, Option.isSome_map]
        exact induction
    | underscore below others induction =>
        obtain ⟨digit, value, small⟩ := isBelow_iff.mp below
        rw [digits?_underscore value small, Option.isSome_map]
        exact induction

/-- Without underscores each code point is a digit, and gives one value. -/
theorem digits?_of_digits (isDigits : Digits (isBelow base) text) :
    ∃ digits, digits? base text = some digits ∧ digits.length = text.length := by
  obtain ⟨notEmpty, areDigits⟩ := isDigits
  induction text with
  | nil => exact absurd rfl notEmpty
  | cons point rest induction =>
      obtain ⟨digit, value, small⟩ := isBelow_iff.mp (areDigits point List.mem_cons_self)
      cases rest with
      | nil => exact ⟨[digit], digits?_last value small, rfl⟩
      | cons next more =>
          obtain ⟨digits, read, width⟩ :=
            induction (by simp) fun inner there => areDigits inner (.tail _ there)
          have isNext : next ≠ .char '_' := by
            intro same
            have below := areDigits next (by simp)
            rw [same, not_isBelow_underscore base] at below
            cases below
          refine ⟨digit :: digits, ?_, by simp [width]⟩
          rw [digits?_next value small isNext, read]
          rfl

end Separated

section Integer

variable {body : Text}

theorem isBelow_ten {point : CodePoint} : isBelow 10 point = point.isDecimal := by
  rw [Bool.eq_iff_iff, isBelow_iff, CodePoint.isDecimal, Option.isSome_iff_exists]
  constructor
  · intro ⟨digit, value, small⟩
    exact ⟨digit, (digitValue?_eq_some_iff small).mp value⟩
  · intro ⟨digit, value⟩
    obtain ⟨first, -, -, small⟩ := CodePoint.exists_row value
    exact ⟨digit, (digitValue?_eq_some_iff small).mpr value, small⟩

theorem isBelow_digits (isDecimal : Digits CodePoint.isDecimal body) :
    Digits (isBelow 10) body :=
  isDecimal.mono fun _ _ decimal => by rw [isBelow_ten, decimal]

theorem baseMark?_eq_some {base : Nat} {digits : Text}
    (marked : baseMark? body = some (base, digits)) :
    ∃ mark, body = .char '0' :: .char mark :: digits ∧ (mark, base) ∈ baseMarks := by
  unfold baseMark? at marked
  split at marked
  case h_1 mark rest =>
    obtain ⟨named, isBase, same⟩ := Option.map_eq_some_iff.mp marked
    cases same
    obtain ⟨c, rfl, isMark⟩ := mem_baseMarks isBase
    exact ⟨c, rfl, isMark⟩
  case h_2 => cases marked

theorem baseMark?_of_mark {mark : Char} {base : Nat} (isMark : (mark, base) ∈ baseMarks)
    (digits : Text) : baseMark? (.char '0' :: .char mark :: digits) = some (base, digits) := by
  rw [baseMark?, baseOf?_of_mem _ isMark]
  rfl

/-- What is made of digits and the marks of decimals has no base mark. -/
theorem baseMark?_of_parts (parts : ∀ point ∈ body, ofString.isDecimalPart point = true) :
    baseMark? body = none := by
  cases marked : baseMark? body with
  | none => rfl
  | some found =>
      obtain ⟨mark, isText, isMark⟩ := baseMark?_eq_some marked
      obtain ⟨noDigit, noMark, -⟩ := baseMarks_apart _ isMark
      have isPart := parts (.char mark) (by simp [isText])
      have noPart : ofString.isDecimalPart (.char mark) = false := by
        rw [ofString.isDecimalPart, noDigit]
        exact noMark
      rw [noPart] at isPart
      cases isPart

private theorem not_isMargin_of_part {point : CodePoint}
    (part : ofString.isDecimalPart point = true) : isMargin point = false := by
  rcases Bool.or_eq_true_iff.mp part with digit | isMark
  · exact not_isMargin_of_not_isBlank (CodePoint.not_isBlank_of_isDigit digit)
  · exact not_class_of_isOneOf isMark (by decide)

theorem Decimal.parts (isDecimal : Decimal CodePoint.isDecimal body) :
    ∀ point ∈ body, ofString.isDecimalPart point = true := by
  intro point there
  rcases isDecimal.mem there with decimal | isMark
  · exact Bool.or_eq_true_iff.mpr (.inl (CodePoint.isDigit_of_isDecimal decimal))
  · exact Bool.or_eq_true_iff.mpr (.inr isMark)

theorem trim_of_parts (parts : ∀ point ∈ body, ofString.isDecimalPart point = true) :
    body.trim isMargin = body :=
  Text.trim_eq_self_of_forall fun point there => not_isMargin_of_part (parts point there)

theorem integer?_isSome {base : Nat} (trimmed : body.trim isMargin = body)
    (unsigned : body.StartsOutside isSign) :
    (integer? base body).isSome = (natural? base body).isSome := by
  rw [integer?, trimmed, splitSign_of_unsigned unsigned]
  cases read : natural? base body with
  | none => simp [read]
  | some n => simp [read]

/-- Digits are read as an integer if all are decimal digits and if they are not too many. -/
theorem integer?_isSome_iff (digits : isDigits body = true) : (integer? 10 body).isSome = true ↔
    Digits CodePoint.isDecimal body ∧ body.length ≤ greatestDecimalWidth := by
  rw [isDigits, Bool.and_eq_true, List.all_eq_true] at digits
  have parts : ∀ point ∈ body, ofString.isDecimalPart point = true := by
    intro point there
    exact Bool.or_eq_true_iff.mpr (.inl (digits.2 point there))
  have unsigned : body.StartsOutside isSign :=
    Text.startsOutside_of_forall fun point there => not_isSign_of_isDigit (digits.2 point there)
  have isNatural : natural? 10 body = (do
      let values ← digits? 10 body
      guard (10 ≠ 10 ∨ values.length ≤ greatestDecimalWidth)
      return ofDigits 10 values) := by
    rw [natural?, baseMark?_of_parts parts]
  rw [integer?_isSome (trim_of_parts parts) unsigned, isNatural]
  constructor
  · intro isSome
    obtain ⟨n, read⟩ := Option.isSome_iff_exists.mp isSome
    obtain ⟨values, isRead, guarded⟩ := Option.bind_eq_some_iff.mp read
    have separated : Separated (isBelow 10) body :=
      digits?_isSome_iff.mp (by rw [isRead]; rfl)
    have isDecimal : Digits CodePoint.isDecimal body := by
      refine ⟨separated.notEmpty, fun point there => ?_⟩
      rcases separated.mem there with below | isUnderscore
      · rwa [isBelow_ten] at below
      · have noDigit : (CodePoint.char '_').isDigit = false := by decide
        rw [isUnderscore] at there
        rw [digits.2 _ there] at noDigit
        cases noDigit
    obtain ⟨others, isSame, width⟩ := digits?_of_digits (isBelow_digits isDecimal)
    rw [isRead] at isSame
    cases isSame
    refine ⟨isDecimal, ?_⟩
    by_contra long
    rw [← width] at long
    simp [guard, long] at guarded
  · rintro ⟨isDecimal, short⟩
    obtain ⟨values, isRead, width⟩ := digits?_of_digits (isBelow_digits isDecimal)
    simp [isRead, guard, width, short]

end Integer

section Marked

variable {mark : Char} {base : Nat} {digits : Text}

private theorem afterMark_iff : Separated (isBelow base) (afterMark digits) ↔
    MarkedDigits (isBelow base) digits := by
  constructor
  · intro separated
    unfold afterMark at separated
    split at separated
    · exact .underscore separated
    · exact .plain separated
  · intro areDigits
    cases areDigits with
    | underscore separated => exact separated
    | plain separated =>
        unfold afterMark
        split
        case h_1 rest =>
          cases separated with
          | last below | next below | underscore below =>
              rw [not_isBelow_underscore] at below
              cases below
        case h_2 => exact separated

/-- Behind a base mark digits of that base are read, which underscores may separate. -/
theorem markedInteger?_isSome_iff (isMark : (mark, base) ∈ baseMarks)
    (trimmed : Text.trim isMargin (.char '0' :: .char mark :: digits) =
      .char '0' :: .char mark :: digits) :
    (markedInteger? (.char '0' :: .char mark :: digits)).isSome = true ↔
      MarkedDigits (isBelow base) digits := by
  obtain ⟨-, -, notTen⟩ := baseMarks_apart _ isMark
  have marked := baseMark?_of_mark isMark digits
  have unsigned : Text.StartsOutside isSign (.char '0' :: .char mark :: digits) :=
    Text.startsOutside_cons.mpr (by decide)
  have isInteger : markedInteger? (.char '0' :: .char mark :: digits) =
      integer? base (.char '0' :: .char mark :: digits) := by
    simp only [markedInteger?, trimmed, marked]
  have isNatural : (natural? base (.char '0' :: .char mark :: digits)).isSome =
      (digits? base (afterMark digits)).isSome := by
    simp only [natural?, marked, if_true]
    cases read : digits? base (afterMark digits) with
    | none => rfl
    | some values => simp [guard, notTen]
  rw [isInteger, integer?_isSome trimmed unsigned, isNatural, digits?_isSome_iff, afterMark_iff]

end Marked

section Fractional

theorem joinDigits?_eq_self {text : Text} (noUnderscore : ∀ point ∈ text, point ≠ .char '_')
    (afterDigit : Bool) : joinDigits? afterDigit text = some text := by
  induction text generalizing afterDigit with
  | nil => rfl
  | cons point rest induction =>
      have isOther := noUnderscore point List.mem_cons_self
      rw [joinDigits?, induction fun inner there => noUnderscore inner (.tail _ there)]
      · rfl
      · intro _ _ same
        exact absurd same isOther
      · intro same
        exact absurd same isOther

theorem toNat_of_toLower {c : Char} {n : Nat} (lower : c.toLower.toNat = n) :
    c.toNat = n ∨ c.toNat + 32 = n := by
  by_cases upper : c.val ≥ 'A'.val ∧ c.val ≤ 'Z'.val
  · have isLower : c.toLower.val = c.val + ('a'.val - 'A'.val) := congrArg Char.val (dif_pos upper)
    have below : c.toNat ≤ 'Z'.toNat := UInt32.le_iff_toNat_le.mp upper.2
    have isSum : ('a'.val - 'A'.val).toNat = 32 := by decide
    right
    have isNat : c.toLower.toNat = (c.val + ('a'.val - 'A'.val)).toNat :=
      congrArg UInt32.toNat isLower
    rw [← lower, isNat, UInt32.toNat_add, isSum, Nat.mod_eq_of_lt]
    · rfl
    · exact Nat.lt_of_le_of_lt (Nat.add_le_add_right below 32) (by decide)
  · have isSame : c.toLower = c := dif_neg upper
    rw [isSame] at lower
    exact .inl lower

theorem toLower_of_part {c : Char} (part : ofString.isDecimalPart (.char c) = true) :
    c.toLower ≠ 'i' ∧ c.toLower ≠ 'n' := by
  rcases Bool.or_eq_true_iff.mp part with digit | isMark
  · have outside : 0x30 ≤ c.toNat ∧ (c.toNat ≤ 0x39 ∨ 0x80 ≤ c.toNat) :=
      CodePoint.basic_of_isDigit digit
    constructor
    · intro lower
      rcases toNat_of_toLower (congrArg Char.toNat lower) with same | upper
      · simp at same
        omega
      · simp at upper
        omega
    · intro lower
      rcases toNat_of_toLower (congrArg Char.toNat lower) with same | upper
      · simp at same
        omega
      · simp at upper
        omega
  · obtain ⟨other, isOther, same⟩ := eq_of_isOneOf isMark
    cases same
    have noLetter : (['.', 'e', 'E', '+', '-'].all fun c =>
        c.toLower != 'i' && c.toLower != 'n') = true := by decide
    simpa using List.all_eq_true.mp noLetter c isOther

variable {body : Text} (parts : ∀ point ∈ body, ofString.isDecimalPart point = true)
include parts

/-- A decimal has no letter that a word for infinity or not a number begins with. -/
theorem not_isWord_of_parts {words : List String}
    (letters : ∀ word ∈ words, (Text.ofString word).head? = some (.char 'i') ∨
      (Text.ofString word).head? = some (.char 'n')) : isWord body words = false := by
  rw [isWord, Text.isOneOf, List.any_eq_false]
  intro word isWord same
  have isLetter := letters word isWord
  rw [← eq_of_beq same] at isLetter
  cases body with
  | nil => simp at isLetter
  | cons point rest =>
      cases point with
      | half n => simp at isLetter
      | char c =>
          have noLetter := toLower_of_part (parts (.char c) List.mem_cons_self)
          simp [noLetter] at isLetter

/-- Between the marks of decimals, only the sign is taken off before the digits are read. -/
theorem decimal?_of_parts :
    decimal? body = unsignedDecimal? (splitSign body).1 (splitSign body).2 := by
  have noUnderscore : ∀ point ∈ body, point ≠ .char '_' := by
    intro point there same
    have noPart : ofString.isDecimalPart (.char '_') = false := by decide
    rw [← same, parts point there] at noPart
    cases noPart
  have unsignedParts : ∀ point ∈ (splitSign body).2, ofString.isDecimalPart point = true := by
    obtain ⟨sign, -, isText, -⟩ := exists_sign body
    intro point there
    exact parts point (by rw [isText]; exact List.mem_append_right sign there)
  have noInfinity : isWord (splitSign body).2 ["inf", "infinity"] = false :=
    not_isWord_of_parts unsignedParts (by decide)
  have noNaN : isWord (splitSign body).2 ["nan"] = false :=
    not_isWord_of_parts unsignedParts (by decide)
  simp only [decimal?, trim_of_parts parts, joinDigits?_eq_self noUnderscore,
    Option.bind_eq_bind, Option.bind_some, noInfinity, noNaN, Bool.false_eq_true, if_false]

end Fractional

/-- The parts of an unsigned decimal: the digits before the point, those after it, and an
exponent, which may be missing. -/
structure Parts where
  whole : List Nat
  fraction : List Nat
  exponent : Option Int
  notEmpty : whole ≠ []
  areDigits : ∀ digit ∈ whole ++ fraction, digit < 10

namespace Parts

def fractionText (parts : Parts) : Text :=
  if parts.fraction = [] then [] else .char '.' :: textOf parts.fraction

def exponentText (parts : Parts) : Text :=
  match parts.exponent with
  | none => []
  | some n => .char 'e' :: .char (if 0 ≤ n then '+' else '-') :: Text.ofString (digitsOf n.natAbs)

def text (parts : Parts) : Text :=
  textOf parts.whole ++ (parts.fractionText ++ parts.exponentText)

end Parts

/-- The classes of a decimal digit. -/
theorem digitChar_classes : ∀ digit, digit < 10 →
    (CodePoint.char (Nat.digitChar digit)).decimalValue? = some digit ∧
    isSign (.char (Nat.digitChar digit)) = false ∧
    CodePoint.char (Nat.digitChar digit) ≠ .char 'e' := by
  decide

theorem mem_textOf {digits : List Nat} {point : CodePoint} :
    point ∈ textOf digits ↔ ∃ digit ∈ digits, point = .char (Nat.digitChar digit) := by
  simp [textOf, eq_comm]

/-- Digits at the front of a text are split off with their values. -/
theorem spanDecimals_textOf {digits : List Nat} (areDigits : ∀ digit ∈ digits, digit < 10)
    {rest : Text} (stops : rest.StartsOutside CodePoint.isDecimal) :
    spanDecimals (textOf digits ++ rest) = (digits, rest) := by
  induction digits with
  | nil => exact spanDecimals_of_startsOutside stops
  | cons digit others induction =>
      have value := (digitChar_classes digit (areDigits digit List.mem_cons_self)).1
      have split := induction fun other there => areDigits other (.tail _ there)
      rw [textOf] at split ⊢
      rw [List.map_cons, List.cons_append, spanDecimals, value]
      simp only [split]

theorem startsOutside_textOf {inClass : CodePoint → Bool} {digits : List Nat}
    (areDigits : ∀ digit ∈ digits, digit < 10)
    (noDigit : ∀ digit, digit < 10 → inClass (.char (Nat.digitChar digit)) = false)
    {rest : Text} (stops : rest.StartsOutside inClass) :
    (textOf digits ++ rest).StartsOutside inClass := by
  cases digits with
  | nil => exact stops
  | cons digit others =>
      exact Text.startsOutside_cons.mpr (noDigit digit (areDigits digit List.mem_cons_self))

namespace Parts

variable (parts : Parts)

theorem whole_lt : ∀ digit ∈ parts.whole, digit < 10 := fun digit there =>
  parts.areDigits digit (List.mem_append_left _ there)

theorem fraction_lt : ∀ digit ∈ parts.fraction, digit < 10 := fun digit there =>
  parts.areDigits digit (List.mem_append_right _ there)

/-- An exponent begins with its mark. -/
theorem exponentText_stops {inClass : CodePoint → Bool} (noMark : inClass (.char 'e') = false) :
    parts.exponentText.StartsOutside inClass := by
  unfold exponentText
  split
  · exact Text.startsOutside_nil
  · exact Text.startsOutside_cons.mpr noMark

/-- A fraction begins with its point. -/
theorem fractionText_stops {inClass : CodePoint → Bool} (noMark : inClass (.char 'e') = false)
    (noPoint : inClass (.char '.') = false) :
    (parts.fractionText ++ parts.exponentText).StartsOutside inClass := by
  unfold fractionText
  split
  · exact parts.exponentText_stops noMark
  · exact Text.startsOutside_cons.mpr noPoint

/-- The text begins with a digit. -/
theorem exists_front :
    ∃ digit others, digit < 10 ∧ parts.text = .char (Nat.digitChar digit) :: others := by
  obtain ⟨first, rest, isWhole⟩ := List.exists_cons_of_ne_nil parts.notEmpty
  refine ⟨first, textOf rest ++ (parts.fractionText ++ parts.exponentText),
    parts.whole_lt first (isWhole ▸ List.mem_cons_self), ?_⟩
  rw [text, isWhole]
  rfl

theorem exponent?_exponentText : exponent? parts.exponentText = some (parts.exponent.getD 0) := by
  unfold exponentText
  cases parts.exponent with
  | none => rfl
  | some n =>
      obtain ⟨first, rest, isText, areDigits, isValue, -⟩ := exists_digits n.natAbs
      have span := spanDecimals_textOf areDigits Text.startsOutside_nil
      rw [List.append_nil] at span
      simp only [isText, exponent?]
      by_cases notNegative : 0 ≤ n
      · have isAbs : (n.natAbs : Int) = n := by omega
        simp only [notNegative, if_true, splitSign, span, isValue, isAbs]
        rfl
      · have isAbs : -(n.natAbs : Int) = n := by omega
        simp only [notNegative, if_false, splitSign, span, isValue, isAbs]
        rfl

theorem spanFraction_fractionText :
    spanFraction (parts.fractionText ++ parts.exponentText) =
      (parts.fraction, parts.exponentText) := by
  unfold fractionText
  split
  case isTrue isEmpty =>
    rw [isEmpty, List.nil_append, spanFraction_of_noPoint]
    intro more same
    have noPoint : parts.exponentText.StartsOutside (·.is '.') := parts.exponentText_stops rfl
    rw [same] at noPoint
    cases Text.startsOutside_cons.mp noPoint
  case isFalse =>
    exact spanDecimals_textOf parts.fraction_lt (parts.exponentText_stops rfl)

theorem text_unsigned : parts.text.StartsOutside isSign := by
  obtain ⟨digit, others, small, isText⟩ := parts.exists_front
  rw [isText, Text.startsOutside_cons]
  exact (digitChar_classes digit small).2.1

/-- The mark of an exponent stands in the text just if there is an exponent. -/
theorem mark_mem_text : .char 'e' ∈ parts.text ↔ parts.exponent.isSome := by
  have noMark {digits : List Nat} (areDigits : ∀ digit ∈ digits, digit < 10) :
      .char 'e' ∉ textOf digits := by
    rintro there
    obtain ⟨digit, isDigit, same⟩ := mem_textOf.mp there
    exact (digitChar_classes digit (areDigits digit isDigit)).2.2 same.symm
  have noFraction : .char 'e' ∉ parts.fractionText := by
    unfold fractionText
    split
    · exact List.not_mem_nil
    · rw [List.mem_cons, not_or]
      exact ⟨by decide, noMark parts.fraction_lt⟩
  rw [text, List.mem_append, List.mem_append, or_iff_right (noMark parts.whole_lt),
    or_iff_right noFraction, exponentText]
  cases parts.exponent with
  | none | some => simp

end Parts

/-- The digits of a number are a decimal without a fraction and an exponent. -/
theorem exists_whole (n : Nat) : ∃ parts : Parts, parts.text = Text.ofString (digitsOf n) ∧
    ofDigits 10 parts.whole = n ∧ parts.fraction = [] ∧ parts.exponent = none := by
  obtain ⟨first, rest, isText, areDigits, isValue, -⟩ := exists_digits n
  refine ⟨⟨first :: rest, [], none, List.cons_ne_nil first rest, ?_⟩, ?_, isValue, rfl, rfl⟩
  · rwa [List.append_nil]
  · rw [isText]
    exact List.append_nil _

end Numeral

end ScriptFold
