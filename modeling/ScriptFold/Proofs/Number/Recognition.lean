import ScriptFold.Proofs.Number.Reader

/-!
# Recognition of numeric strings

A string is read by one of the readers of numerals, and which one is decided by what the
string looks like.  Both together recognize the readable strings and no others
(`recognized_iff_readable`), so `ofString_recognizes` says how they compare with the numeric
strings of scripts.
-/

namespace ScriptFold

namespace Numeral

section Numbers

theorem ofRank_ne_nan (negative : Bool) (rank : Nat) : Double.ofRank negative rank ≠ .nan := by
  unfold Double.ofRank
  split
  · simp
  · simp

theorem ofRatio_ne_nan (negative : Bool) (numerator denominator : Nat) :
    Double.ofRatio negative numerator denominator ≠ .nan := by
  rw [Double.ofRatio, Double.ofUnits]
  exact ofRank_ne_nan _ _

private theorem nearest_ne_nan (negative : Bool) (mantissa : Nat) (power : Int) :
    nearest negative mantissa power ≠ .nan := by
  unfold nearest
  simp only
  split
  · exact ofRank_ne_nan _ _
  · split
    · simp
    · split
      · exact ofRatio_ne_nan _ _ _
      · exact ofRatio_ne_nan _ _ _

theorem unsignedDecimal?_ne_nan {negative : Bool} {body : Text} {x : Double}
    (read : unsignedDecimal? negative body = some x) : x ≠ .nan := by
  unfold unsignedDecimal? at read
  simp only [Option.bind_eq_bind, Option.bind_eq_some_iff] at read
  obtain ⟨-, -, power, -, isNearest⟩ := read
  cases isNearest
  exact nearest_ne_nan _ _ _

/-- An outcome that is a number, or an integer beyond the doubles. -/
inductive Recognized : Except Fault Num → Prop
  | number {x : Num} (notNaN : x ≠ Num.nan) : Recognized (.ok x)
  | tooLarge : Recognized (.error .tooLarge)

theorem not_recognized_nan : ¬ Recognized (.ok Num.nan) := by
  intro recognized
  cases recognized with
  | number notNaN => exact notNaN rfl

theorem recognized_float {x : Double} (notNaN : x ≠ .nan) : Recognized (.ok (.float x)) :=
  .number fun same => notNaN (Num.float.inj same)

theorem recognized_settle (n : Int) : Recognized (Num.settle (.int n)) := by
  have notNaN : Double.ofInt n ≠ .nan := by
    rw [Double.ofInt]
    exact ofRatio_ne_nan _ _ _
  simp only [Num.settle, Num.toDouble]
  split
  · split
    · exact .tooLarge
    · exact recognized_float notNaN
  · exact .number (by simp [Num.nan])

theorem recognized_negated {x : Double} (notNaN : x ≠ .nan) (negative : Bool) :
    Recognized (.ok (.float (if negative then x.neg else x))) := by
  apply recognized_float
  cases x with
  | nan => exact absurd rfl notNaN
  | infinity | finite =>
      cases negative with
      | false | true => simp [Double.neg]

end Numbers

section Strings

variable {text body : Text} {negative : Bool}
  (trimmed : text.trim CodePoint.isBlank = text) (isSplit : splitSign text = (negative, body))
include trimmed

include isSplit in
theorem recognized_infinity (notEmpty : text ≠ []) (word : body = Text.ofString "Infinity") :
    Recognized (ofString text) := by
  have isWord : body.isString "Infinity" = true := beq_iff_eq.mpr word
  simp only [ofString, trimmed, isSplit, isWord, List.isEmpty_iff, notEmpty, if_false, if_true]
  exact recognized_float (by simp)

include isSplit in
/-- What has only digits and the marks of decimals behind a sign is read as an integer if it
has only digits, else as a decimal. -/
theorem recognized_parts_iff (hasBody : body ≠ [])
    (parts : ∀ point ∈ body, ofString.isDecimalPart point = true) :
    Recognized (ofString text) ↔ isDigits body = true ∧ (integer? 10 body).isSome = true ∨
      isDigits body = false ∧ (decimal? body).isSome = true := by
  have notEmpty : text ≠ [] := by
    intro isEmpty
    rw [isEmpty] at isSplit
    cases isSplit
    exact hasBody rfl
  have notInfinity : body.isString "Infinity" = false := by
    rw [Text.isString, beq_eq_false_iff_ne]
    intro word
    have noPart : ofString.isDecimalPart (.char 'I') = false := by decide
    rw [parts (.char 'I') (by rw [word]; decide)] at noPart
    cases noPart
  have filtered : (body.isEmpty || !body.all ofString.isDecimalPart) = false := by
    simp [hasBody, List.all_eq_true.mpr parts]
  simp only [ofString, trimmed, isSplit, notInfinity, baseMark?_of_parts parts, filtered,
    List.isEmpty_iff, notEmpty, Option.isSome_none, Bool.and_false, Bool.false_eq_true, if_false]
  cases digits : isDigits body with
  | true =>
      cases read : integer? 10 body with
      | none => simp [not_recognized_nan]
      | some n => simp [recognized_settle]
  | false =>
      cases read : decimal? body with
      | none => simp [not_recognized_nan]
      | some x =>
          have notNaN : x ≠ .nan := by
            rw [decimal?_of_parts parts] at read
            exact unsignedDecimal?_ne_nan read
          simp [recognized_negated notNaN]

/-- An integer behind a base mark is recognized without a sign. -/
theorem recognized_marked {mark : Char} {base : Nat} {digits : Text}
    (isText : text = .char '0' :: .char mark :: digits) (isMark : (mark, base) ∈ baseMarks)
    (areDigits : MarkedDigits (isBelow base) digits) : Recognized (ofString text) := by
  have smaller : text.trim isMargin = text := by
    rw [← trimmed]
    exact Text.trim_trim fun _ => not_isMargin_of_not_isBlank
  subst isText
  have marked : baseMark? (.char '0' :: .char mark :: digits) = some (base, digits) :=
    baseMark?_of_mark isMark digits
  have unsigned : splitSign (.char '0' :: .char mark :: digits) =
      (false, .char '0' :: .char mark :: digits) := rfl
  have notInfinity : Text.isString (.char '0' :: .char mark :: digits) "Infinity" = false := rfl
  have long : 2 < (CodePoint.char '0' :: .char mark :: digits).length := by
    have hasDigits := List.length_pos_iff.mpr areDigits.notEmpty
    simp only [List.length_cons]
    omega
  obtain ⟨n, read⟩ := Option.isSome_iff_exists.mp
    ((markedInteger?_isSome_iff isMark smaller).mpr areDigits)
  simp only [ofString, trimmed, unsigned, notInfinity, marked, long, read, List.isEmpty_cons,
    bne_self_eq_false, Option.isSome_some, decide_true, Bool.and_true, Bool.false_eq_true,
    if_false, if_true]
  exact recognized_settle n

include isSplit in
/-- Other texts than words, decimals and the empty one are recognized only behind a base mark. -/
theorem marked_of_recognized (notEmpty : text ≠ []) (noWord : body ≠ Text.ofString "Infinity")
    (otherwise : body = [] ∨ ¬ ∀ point ∈ body, ofString.isDecimalPart point = true)
    (recognized : Recognized (ofString text)) : Readable text := by
  have notInfinity : body.isString "Infinity" = false := by
    rw [Text.isString, beq_eq_false_iff_ne]
    exact noWord
  have filtered : (body.isEmpty || !body.all ofString.isDecimalPart) = true := by
    rcases otherwise with isEmpty | others
    · rw [isEmpty]
      rfl
    · rw [← List.all_eq_true, Bool.not_eq_true] at others
      rw [others, Bool.not_false, Bool.or_true]
  simp only [ofString, trimmed, isSplit, notInfinity, filtered, List.isEmpty_iff, notEmpty,
    Bool.false_eq_true, if_false, if_true] at recognized
  split at recognized
  case isTrue marked =>
    split at recognized
    case isTrue => exact absurd recognized not_recognized_nan
    case isFalse unsigned =>
      have isBody : text = body := by simpa using unsigned
      rw [Bool.and_eq_true] at marked
      obtain ⟨⟨base, digits⟩, found⟩ := Option.isSome_iff_exists.mp marked.2
      obtain ⟨mark, isText, isMark⟩ := baseMark?_eq_some found
      have smaller : body.trim isMargin = body := by
        rw [← isBody, ← trimmed]
        exact Text.trim_trim fun _ => not_isMargin_of_not_isBlank
      cases read : markedInteger? body with
      | none =>
          rw [read] at recognized
          exact absurd recognized not_recognized_nan
      | some n =>
          rw [isText] at smaller read
          have areDigits := (markedInteger?_isSome_iff isMark smaller).mp (by rw [read]; rfl)
          rw [isBody, isText]
          exact .marked (baseOf?_of_mem _ isMark) areDigits
  case isFalse => exact absurd recognized not_recognized_nan

include isSplit in
theorem readable_of_parts {sign : Text} (signed : Sign sign) (isText : text = sign ++ body)
    (signless : sign = [] → text.StartsOutside isSign) (hasBody : body ≠ [])
    (parts : ∀ point ∈ body, ofString.isDecimalPart point = true)
    (recognized : Recognized (ofString text)) : Readable text := by
  rw [recognized_parts_iff trimmed isSplit hasBody parts] at recognized
  rcases recognized with ⟨digits, read⟩ | ⟨noDigits, read⟩
  · obtain ⟨areDigits, short⟩ := (integer?_isSome_iff digits).mp read
    rw [isText]
    refine .decimal signed areDigits.isDecimal fun overlong => ?_
    exact Nat.not_lt.mpr short ((overlong_append_iff signed areDigits.isDecimal).mp overlong).2
  · rw [decimal?_of_parts parts, unsignedDecimal?_isSome_iff] at read
    obtain ⟨second, secondSigned, isBody, -⟩ := exists_sign body
    cases secondSigned with
    | none =>
        rw [List.nil_append] at isBody
        rw [← isBody] at read
        rw [isText]
        refine .decimal signed read fun overlong => ?_
        have areDecimal := ((overlong_append_iff signed read).mp overlong).1
        have digits : isDigits body = true := by
          rw [isDigits, Bool.and_eq_true, List.all_eq_true]
          exact ⟨by simp [hasBody], fun point there =>
            CodePoint.isDigit_of_isDecimal (areDecimal point there)⟩
        rw [noDigits] at digits
        cases digits
    | some isSecond =>
        -- what is left behind a sign begins with another one only if a first was taken off
        cases signed with
        | none =>
            have unsigned := signless rfl
            rw [isText, List.nil_append, isBody, List.singleton_append, Text.startsOutside_cons,
              isSecond] at unsigned
            cases unsigned
        | some isFirst =>
            rw [isText, isBody]
            exact .signedTwice isFirst isSecond read

/-- Only readable texts are recognized. -/
theorem readable_of_recognized (recognized : Recognized (ofString text)) : Readable text := by
  obtain ⟨sign, signed, isText, signless⟩ := exists_sign text
  obtain ⟨negative, body, isSplit⟩ : ∃ negative body, splitSign text = (negative, body) :=
    ⟨_, _, rfl⟩
  rw [isSplit] at isText
  by_cases isEmpty : text = []
  · rw [isEmpty]
    exact .empty
  · by_cases word : body = Text.ofString "Infinity"
    · rw [isText, word]
      exact .infinity signed
    · by_cases otherwise : body = [] ∨ ¬ ∀ point ∈ body, ofString.isDecimalPart point = true
      · exact marked_of_recognized trimmed isSplit isEmpty word otherwise recognized
      · obtain ⟨hasBody, parts⟩ := not_or.mp otherwise
        exact readable_of_parts trimmed isSplit signed isText signless hasBody (not_not.mp parts)
          recognized

theorem recognized_of_decimal {sign : Text} (isText : text = sign ++ body) (signed : Sign sign)
    (isDecimal : Decimal CodePoint.isDecimal body) (short : ¬ Overlong text) :
    Recognized (ofString text) := by
  have isSplit : splitSign text = ((splitSign text).1, body) := by
    rw [isText]
    exact Prod.ext rfl (splitSign_append signed isDecimal.startsOutside)
  have parts := isDecimal.parts
  rw [recognized_parts_iff trimmed isSplit isDecimal.notEmpty parts]
  cases digits : isDigits body with
  | true =>
      refine .inl ⟨rfl, (integer?_isSome_iff digits).mpr ?_⟩
      rw [isDigits, Bool.and_eq_true, List.all_eq_true] at digits
      have areDecimal : ∀ point ∈ body, point.isDecimal = true := by
        intro point there
        rcases isDecimal.mem there with decimal | isMark
        · exact decimal
        · have noDigit := not_isDigit_of_isDecimalMark isMark
          rw [digits.2 point there] at noDigit
          cases noDigit
      rw [isText, overlong_append_iff signed isDecimal] at short
      exact ⟨⟨isDecimal.notEmpty, areDecimal⟩, by_contra fun long =>
        short ⟨areDecimal, Nat.lt_of_not_le long⟩⟩
  | false =>
      refine .inr ⟨rfl, ?_⟩
      rw [decimal?_of_parts parts, unsignedDecimal?_isSome_iff,
        splitSign_of_unsigned isDecimal.startsOutside]
      exact isDecimal

private theorem recognized_signedTwice {first second : CodePoint} (isText : text = first :: second
    :: body)
    (isFirst : isSign first = true) (isSecond : isSign second = true)
    (isDecimal : Decimal CodePoint.isDecimal body) : Recognized (ofString text) := by
  have isSplit : splitSign text = ((splitSign text).1, second :: body) := by
    rw [isText]
    exact Prod.ext rfl (splitSign_cons isFirst _)
  have parts : ∀ point ∈ second :: body, ofString.isDecimalPart point = true := by
    intro point there
    rcases List.mem_cons.mp there with rfl | inBody
    · exact class_of_isOneOf isSecond (by decide)
    · exact isDecimal.parts point inBody
  have noDigits : isDigits (second :: body) = false := by
    simp [isDigits, not_isDigit_of_isSign isSecond]
  rw [recognized_parts_iff trimmed isSplit (by simp) parts]
  refine .inr ⟨noDigits, ?_⟩
  rw [decimal?_of_parts parts, splitSign_cons isSecond, unsignedDecimal?_isSome_iff]
  exact isDecimal

/-- Readable texts are recognized. -/
theorem recognized_of_readable (readable : Readable text) : Recognized (ofString text) := by
  cases readable with
  | empty => exact .number (by simp [Num.nan])
  | @infinity sign signed =>
      have isSplit : splitSign (sign ++ Text.ofString "Infinity") =
          ((splitSign (sign ++ Text.ofString "Infinity")).1, Text.ofString "Infinity") :=
        Prod.ext rfl (splitSign_append signed infinity_unsigned)
      have notEmpty : sign ++ Text.ofString "Infinity" ≠ [] :=
        List.append_ne_nil_of_right_ne_nil sign (by decide)
      exact recognized_infinity trimmed isSplit notEmpty rfl
  | decimal signed isDecimal short => exact recognized_of_decimal trimmed rfl signed isDecimal short
  | signedTwice isFirst isSecond isDecimal =>
      exact recognized_signedTwice trimmed rfl isFirst isSecond isDecimal
  | marked isBase areDigits =>
      obtain ⟨c, same, isMark⟩ := mem_baseMarks isBase
      cases same
      exact recognized_marked trimmed rfl isMark areDigits

end Strings

/-- A string is read as what is left of it without the blanks around it. -/
theorem ofString_trim (raw : Text) : ofString (raw.trim CodePoint.isBlank) = ofString raw := by
  simp only [ofString, Text.trim_idem]

theorem recognized_iff_readable (raw : Text) :
    Recognized (ofString raw) ↔ Readable (raw.trim CodePoint.isBlank) := by
  rw [← ofString_trim]
  constructor
  · exact readable_of_recognized Text.trim_idem
  · exact recognized_of_readable Text.trim_idem

/-- Only settling an integer fails, and it fails on one beyond the doubles. -/
theorem fault_of_ofString {raw : Text} {fault : Fault} (failed : ofString raw = .error fault) :
    fault = .tooLarge := by
  have settled : ∀ n : Int, Num.settle (.int n) = .error fault → fault = .tooLarge := by
    intro n failed
    have recognized := recognized_settle n
    rw [failed] at recognized
    cases recognized
    rfl
  unfold ofString at failed
  simp only at failed
  split at failed
  · cases failed
  · split at failed
    · cases failed
    · split at failed
      · split at failed
        · cases failed
        · split at failed
          · exact settled _ failed
          · cases failed
      · split at failed
        · cases failed
        · split at failed
          · split at failed
            · exact settled _ failed
            · cases failed
          · split at failed
            · cases failed
            · cases failed

private theorem recognized_of_ne_nan {raw : Text} (notNaN : ofString raw ≠ .ok Num.nan) :
    Recognized (ofString raw) := by
  cases outcome : ofString raw with
  | ok x =>
      refine .number fun isNaN => notNaN ?_
      rw [outcome, isNaN]
  | error fault =>
      rw [fault_of_ofString outcome]
      exact .tooLarge

/-- A string is no `nan` if and only if, without the blanks around it, it is a numeric string
that is not overlong, or else is misread, which no numeric string is.  Then it gives a number,
or is an integer beyond the doubles. -/
theorem ofString_recognizes (raw : Text) :
    (ofString raw ≠ .ok Num.nan ↔ Recognized (ofString raw)) ∧
    (Recognized (ofString raw) ↔
      NumericString (raw.trim CodePoint.isBlank) ∧ ¬ Overlong (raw.trim CodePoint.isBlank) ∨
        Misread (raw.trim CodePoint.isBlank)) ∧
    ¬ (NumericString (raw.trim CodePoint.isBlank) ∧ Misread (raw.trim CodePoint.isBlank)) := by
  refine ⟨⟨recognized_of_ne_nan, ?_⟩, ?_, ?_⟩
  · intro recognized isNaN
    rw [isNaN] at recognized
    exact not_recognized_nan recognized
  · rw [recognized_iff_readable, readable_iff]
  · intro ⟨numeric, misread⟩
    exact misread.not_numeric numeric

/-- A second sign is read over: `--5` is no numeric string, but it is read. -/
theorem secondSign_misread : ¬ ∀ raw : Text,
    ofString raw ≠ .ok Num.nan ↔ NumericString (raw.trim CodePoint.isBlank) := by
  intro exactly
  have trimmed : Text.trim CodePoint.isBlank "--5" = "--5" := by decide
  have five : Decimal CodePoint.isDecimal [.char '5'] :=
    Digits.isDecimal ⟨by simp, by decide⟩
  have misread : Misread (Text.ofString "--5") := .signedTwice (by decide) (by decide) five
  have recognized : Recognized (ofString "--5") := recognized_of_readable trimmed misread.readable
  have isRead : ofString "--5" ≠ .ok Num.nan := by
    intro isNaN
    rw [isNaN] at recognized
    exact not_recognized_nan recognized
  have numeric := (exactly "--5").mp isRead
  rw [trimmed] at numeric
  exact misread.not_numeric numeric

end Numeral

end ScriptFold
