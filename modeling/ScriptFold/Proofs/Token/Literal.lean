import ScriptFold.Proofs.Number.Reader
import ScriptFold.Proofs.Token.Fixed
import ScriptFold.Text.StringLiteral

/-!
# Literals are single tokens

An unsigned decimal and the literal of a text are each read as one token, whatever the digits
or the code points of the text.  Writing a text as a literal, dividing the literal into tokens
and decoding it each have their own rules for quotes, backslashes and line ends.  They agree on
every text: its literal is one token from end to end, and decodes to it.
-/

namespace ScriptFold

namespace Lexer

/-- A text that is scanned up to its end is one token, with the end of input after it. -/
theorem tokenize_of_scanToken {type : TokenType} {point : CodePoint} {rest : Text} (stop : Mark)
    (notSkipped : isSkipped point = false) (notSlash : point.is '/' = false)
    (scanned : scanToken none [] ⟨point :: rest, .start⟩ =
      .ok ⟨type, point :: rest, ⟨[], stop⟩, []⟩) :
    tokenize (point :: rest) =
      .ok [⟨type, point :: rest, .start, stop.offset, false || Mark.start.line < stop.line⟩,
        ⟨.endOfInput, [], stop, stop.offset, false⟩] := by
  have solid : Solid (point :: rest) :=
    solid_of_not_isSkipped notSkipped (by simp [notSlash])
  rw [tokenize, tokensFrom, solid .start false]
  simp only [Calculation.ok_bind, scanned, List.isEmpty_cons, Bool.false_eq_true, if_false]
  rfl

/-- A text is one token if it is scanned up to its end. -/
theorem lexesAs_of_scanToken {type : TokenType} {point : CodePoint} {rest : Text} (stop : Mark)
    (notSkipped : isSkipped point = false) (notSlash : point.is '/' = false)
    (scanned : scanToken none [] ⟨point :: rest, .start⟩ =
      .ok ⟨type, point :: rest, ⟨[], stop⟩, []⟩) : LexesAs type (point :: rest) :=
  ⟨_, _, tokenize_of_scanToken stop notSkipped notSlash scanned, rfl, rfl⟩

open Word in
/-- A reserved word is one token. -/
theorem lexesAs_keyword {type : TokenType} (isKeyword : type.isKeyword) :
    LexesAs type (Text.ofString type.spelling) := by
  have notSlash : ¬ (type = .slash ∨ type = .slashAssign) := by
    rintro (rfl | rfl) <;> cases isKeyword
  have meets : Edge.Meets ⟨none, []⟩ (fixed type false) :=
    ⟨⟨fun _ => ⟨nofun, nofun⟩, fun isSlash => absurd isSlash notSlash⟩, nofun, nofun⟩
  obtain ⟨tokens, last, tokenized, holds, _⟩ :=
    (LaidOut.empty.addWord (sound_keyword isKeyword) meets).tokenize
  cases holds with
  | cons isWord none =>
      cases none
      exact ⟨_, last, tokenized, isWord.type, isWord.text⟩

/-- The code points of a class are skipped, and no more. -/
theorem skipWhile_append {inClass : CodePoint → Bool} {text rest : Text}
    (within : ∀ point, point ∈ text → inClass point) (stops : rest.StartsOutside inClass)
    (mark : Mark) :
    skipWhile inClass ⟨text ++ rest, mark⟩ = ⟨rest, mark.advance text.length⟩ := by
  have none : rest.takeWhile inClass = [] := by
    cases rest with
    | nil => rfl
    | cons point others =>
        exact List.takeWhile_cons_of_neg (by simpa using Text.startsOutside_cons.mp stops)
  have taken : (text ++ rest).takeWhile inClass = text := by
    rw [List.takeWhile_append_of_pos within, none, List.append_nil]
  simp only [skipWhile, taken, List.drop_left]

/-- Nothing is left behind digits only. -/
theorem skipWhile_all {inClass : CodePoint → Bool} {text : Text}
    (within : ∀ point, point ∈ text → inClass point) (mark : Mark) :
    skipWhile inClass ⟨text, mark⟩ = ⟨[], mark.advance text.length⟩ := by
  have skipped := skipWhile_append within Text.startsOutside_nil mark
  rwa [List.append_nil] at skipped

section Parts

open Numeral

variable (parts : Parts)

theorem not_startsIn_iff {inClass : CodePoint → Bool} {text : Text} :
    startsIn inClass text = false ↔ text.StartsOutside inClass := by
  cases text with
  | nil => simp [startsIn, Text.startsOutside_nil]
  | cons point rest => rw [Text.startsOutside_cons, startsIn, List.head?_cons, Option.any_some]

theorem isDigitPart_textOf {digits : List Nat} (areDigits : ∀ digit ∈ digits, digit < 10) :
    ∀ point ∈ textOf digits, isDigitPart point = true := by
  intro point there
  obtain ⟨digit, isDigit, rfl⟩ := mem_textOf.mp there
  rw [isDigitPart, (digit_plain digit (areDigits digit isDigit)).2.1, Bool.true_or]

theorem scanFraction_fractionText (mark : Mark) :
    scanFraction ⟨parts.fractionText ++ parts.exponentText, mark⟩ =
      ⟨parts.exponentText, mark.advance parts.fractionText.length⟩ := by
  unfold Parts.fractionText
  split
  case isTrue =>
    have noPoint : startsIn (·.is '.') parts.exponentText = false :=
      not_startsIn_iff.mpr (parts.exponentText_stops rfl)
    simp only [List.nil_append, scanFraction, noPoint]
    rfl
  case isFalse =>
    have skipped := skipWhile_append (isDigitPart_textOf parts.fraction_lt)
      (parts.exponentText_stops (show isDigitPart (.char 'e') = false from rfl)) (mark.advance 1)
    rw [Mark.advance_advance, Nat.add_comm] at skipped
    exact skipped

private theorem scanExponent_exponentText (mark : Mark) :
    scanExponent ⟨parts.exponentText, mark⟩ =
      ⟨[], mark.advance parts.exponentText.length⟩ := by
  unfold Parts.exponentText
  cases parts.exponent with
  | none => rfl
  | some n =>
      obtain ⟨first, rest, isText, areDigits, -, -⟩ := exists_digits n.natAbs
      have isDigit : (CodePoint.char (Nat.digitChar first)).isDigit = true :=
        (digit_plain first (areDigits first List.mem_cons_self)).2.1
      have skipped := skipWhile_all (isDigitPart_textOf areDigits) (mark.advance 2)
      rw [Mark.advance_advance, Nat.add_comm] at skipped
      have signs : (CodePoint.char (if 0 ≤ n then '+' else '-')).isOneOf ['+', '-'] = true := by
        split <;> rfl
      simp only [isText, scanExponent, startsIn, List.head?_cons, Option.any_some, signs, if_true]
      exact (if_pos (by rfl)).trans ((if_pos isDigit).trans skipped)

private theorem not_isMarked_text : isMarked parts.text = false := by
  have plain : ∀ digit, digit < 10 →
      (CodePoint.char (Nat.digitChar digit)).isOneOf ['x', 'X', 'o', 'O', 'b', 'B'] = false := by
    decide
  obtain ⟨first, rest, isWhole⟩ := List.exists_cons_of_ne_nil parts.notEmpty
  have areDigits := parts.whole_lt
  rw [isWhole] at areDigits
  rw [isMarked, Bool.and_eq_false_iff, Parts.text, isWhole]
  exact .inr (not_startsIn_iff.mpr (startsOutside_textOf (fun digit there =>
    areDigits digit (.tail _ there)) plain (parts.fractionText_stops rfl rfl)))

/-- The parts are read as one number. -/
theorem scanNumber_decimal (mark : Mark) :
    scanNumber ⟨parts.text, mark⟩ = .ok (.number, ⟨[], mark.advance parts.text.length⟩) := by
  have skipped := skipWhile_append (isDigitPart_textOf parts.whole_lt)
    (parts.fractionText_stops (show isDigitPart (.char 'e') = false from rfl) rfl) mark
  have scanned : scanDigits ⟨parts.text, mark⟩ = ⟨[], mark.advance parts.text.length⟩ := by
    rw [scanDigits_eq, not_isMarked_text parts, if_neg Bool.false_ne_true]
    rw [Parts.text, skipped, scanFraction_fractionText, scanExponent_exponentText]
    simp only [Mark.advance_advance, List.length_append, Nat.add_assoc]
  rw [scanNumber, scanned]
  rfl

private theorem scanToken_decimal {stop : Mark} (isStop
    : stop = Mark.start.advance parts.text.length) :
    scanToken none [] ⟨parts.text, .start⟩ = .ok ⟨.number, parts.text, ⟨[], stop⟩, []⟩ := by
  have plain : ∀ digit, digit < 10 →
      (CodePoint.char (Nat.digitChar digit)).isOneOf ['"', '\x27'] = false ∧
      (CodePoint.char (Nat.digitChar digit)).is '\x60' = false := by
    decide
  obtain ⟨digit, others, small, isText⟩ := parts.exists_front
  obtain ⟨notQuote, notTick⟩ := plain digit small
  have isDigit := (digit_plain digit small).2.1
  have scanned := scanNumber_decimal parts .start
  have whole := textBetween_append parts.text [] (Mark.start.offset_advance parts.text.length)
  rw [List.append_nil] at whole
  rw [← isStop] at scanned whole
  rw [isText] at scanned whole ⊢
  simp only [scanToken, notQuote, notTick, isDigit, Bool.true_or, Bool.false_eq_true, if_false,
    if_true, scanned, Calculation.ok_bind, whole]
  rfl

/-- An unsigned decimal is one number, with the end of input after it. -/
theorem tokenize_decimal : tokenize parts.text =
    .ok [⟨.number, parts.text, .start, parts.text.length, false⟩,
      ⟨.endOfInput, [], Mark.start.advance parts.text.length, parts.text.length, false⟩] := by
  have plain : ∀ digit, digit < 10 → isSkipped (.char (Nat.digitChar digit)) = false ∧
      (CodePoint.char (Nat.digitChar digit)).is '/' = false := by
    decide
  obtain ⟨digit, others, small, isText⟩ := parts.exists_front
  have scanned := scanToken_decimal parts rfl
  have reached : (Mark.start.advance parts.text.length).offset = parts.text.length :=
    Nat.zero_add _
  have sameLine : decide (Mark.start.line < (Mark.start.advance parts.text.length).line) = false :=
    decide_eq_false (Nat.lt_irrefl Mark.start.line)
  generalize Mark.start.advance parts.text.length = stop at *
  rw [isText] at scanned reached ⊢
  rw [tokenize_of_scanToken stop (plain digit small).1 (plain digit small).2 scanned, reached,
    sameLine, Bool.or_false]

end Parts

/-- The digits of a number are read as one number. -/
theorem lexesAs_digitsOf (n : Nat) : LexesAs .number (Text.ofString (digitsOf n)) := by
  obtain ⟨parts, isText, -, -, -⟩ := Numeral.exists_whole n
  rw [← isText]
  exact ⟨_, _, tokenize_decimal parts, rfl, rfl⟩

/-- A text is passed over inside a string in double quotes. -/
def Passes (text : Text) : Prop :=
  ∀ rest opened mark, ∃ next,
    scanString (.char '"') opened (text ++ rest) mark = scanString (.char '"') opened rest next

theorem Passes.append {first second : Text} (passes : Passes first) (passesMore : Passes second) :
    Passes (first ++ second) := by
  intro rest opened mark
  obtain ⟨middle, isMiddle⟩ := passes (second ++ rest) opened mark
  obtain ⟨next, isNext⟩ := passesMore rest opened middle
  exact ⟨next, by rw [List.append_assoc, isMiddle, isNext]⟩

/-- Code points that stand for themselves inside a string in double quotes. -/
def isQuotable (point : CodePoint) : Bool :=
  !point.isOneOf ['\\', '"', '\n', '\r']

theorem passes_plain {text : Text} (plain : ∀ point, point ∈ text → isQuotable point) :
    Passes text := by
  induction text with
  | nil => exact fun _ _ mark => ⟨mark, rfl⟩
  | cons point others induction =>
      have quotable := plain point List.mem_cons_self
      simp only [isQuotable, CodePoint.isOneOf, List.any_cons, List.any_nil, CodePoint.is,
        Bool.not_eq_true', Bool.or_eq_false_iff, beq_eq_false_iff_ne] at quotable
      obtain ⟨notEscape, notQuote, notFeed, notReturn, _⟩ := quotable
      have notEnd : point.isOneOf ['\n', '\r'] = false := by
        simp [CodePoint.isOneOf, CodePoint.is, notFeed, notReturn]
      intro rest opened mark
      rw [List.cons_append, scanString_point notEscape, if_neg notQuote, notEnd]
      exact induction (fun other there => plain other (.tail _ there)) rest opened _

theorem passes_escape {point : CodePoint} (notEnd : point.isLineEnd = false) :
    Passes [.char '\\', point] := by
  intro rest opened mark
  refine ⟨mark.advance 2, ?_⟩
  rw [List.cons_append, List.cons_append, List.nil_append, scanString_escape, notEnd]
  · rfl
  · rintro _ rfl
    cases notEnd

private theorem hexPair_quotable : ∀ n, n < 32 →
    ∀ point ∈ StringLiteral.hexPair n, isQuotable point := by
  decide

private theorem passes_encodePoint (point : CodePoint) : Passes (StringLiteral.encodePoint point)
    := by
  have separator : ∀ digit : Char, isQuotable (.char digit) →
      Passes ([.char '\\', .char 'u'] ++ [.char '2', .char '0', .char '2', .char digit]) := by
    intro digit quotable
    refine (passes_escape rfl).append (passes_plain ?_)
    simp [quotable]
    decide
  unfold StringLiteral.encodePoint
  split
  case h_11 notEscape notQuote notFeed notReturn _ _ _ _ _ _ =>
    split
    case isTrue small =>
      exact (passes_escape (show (CodePoint.char 'x').isLineEnd = false from rfl)).append
        (passes_plain (hexPair_quotable point.toNat small))
    case isFalse =>
      refine passes_plain fun other isOther => ?_
      obtain rfl := List.mem_singleton.mp isOther
      simp only [isQuotable, CodePoint.isOneOf, List.any_cons, List.any_nil, CodePoint.is,
        Bool.not_eq_true', Bool.or_eq_false_iff, beq_eq_false_iff_ne]
      exact ⟨notEscape, notQuote, notFeed, notReturn, trivial⟩
  case h_9 => exact separator '8' rfl
  case h_10 => exact separator '9' rfl
  all_goals exact passes_escape rfl

private theorem passes_flatMap (text : Text) : Passes (text.flatMap StringLiteral.encodePoint) := by
  induction text with
  | nil => exact fun _ _ mark => ⟨mark, rfl⟩
  | cons point others induction =>
      rw [List.flatMap_cons]
      exact (passes_encodePoint point).append induction

/-- The literal of a text is scanned up to its end. -/
theorem scanToken_encode (text : Text) :
    ∃ stop : Mark, stop.offset = (StringLiteral.encode text).length ∧
      scanToken none [] ⟨StringLiteral.encode text, .start⟩ =
        .ok ⟨.string, StringLiteral.encode text, ⟨[], stop⟩, []⟩ := by
  let body := text.flatMap StringLiteral.encodePoint ++ [.char '"']
  obtain ⟨middle, isMiddle⟩ := passes_flatMap text [.char '"'] .start (Mark.start.advance 1)
  have scanned : scanString (.char '"') .start body (Mark.start.advance 1) =
      .ok ⟨[], middle.advance 1⟩ := isMiddle
  have reached :
      (middle.advance 1).offset = Mark.start.offset + (CodePoint.char '"' :: body).length := by
    have conserved := scanString_offset _ _ scanned
    simp only [List.length_nil, Mark.offset_advance, List.length_cons] at conserved ⊢
    omega
  have whole := textBetween_append (.char '"' :: body) [] reached
  rw [List.append_nil] at whole
  have unfolded : scanToken none [] ⟨.char '"' :: body, .start⟩ = (do
      let next ← scanString (.char '"') .start body (Mark.start.advance 1)
      return ⟨.string, textBetween ⟨.char '"' :: body, .start⟩ next, next, []⟩) := rfl
  rw [scanned, Calculation.ok_bind, whole] at unfolded
  exact ⟨middle.advance 1, reached.trans (Nat.zero_add _), unfolded⟩

/-- The literal of a text is read as one string. -/
theorem lexesAs_encode (text : Text) : LexesAs .string (StringLiteral.encode text) := by
  obtain ⟨stop, _, scanned⟩ := scanToken_encode text
  exact lexesAs_of_scanToken stop rfl rfl scanned

end Lexer

structure Token.Covers (token : Token) (type : TokenType) (whole : Text) : Prop where
  type : token.type = type
  text : token.text = whole
  start : token.start = 0
  stop : token.stop = whole.length

/-- A token marks the end of a text. -/
structure Token.Ends (token : Token) (text : Text) : Prop where
  type : token.type = .endOfInput
  start : token.start = text.length
  stop : token.stop = text.length

/-- Nothing in a text ends its literal early, and the literal is read back as the text. -/
theorem encode_staysQuoted (text : Text) :
    (∃ token last, tokenize (StringLiteral.encode text) = .ok [token, last] ∧
      token.Covers .string (StringLiteral.encode text) ∧
      last.Ends (StringLiteral.encode text)) ∧
    StringLiteral.decode (StringLiteral.encode text) = .ok text := by
  constructor
  · obtain ⟨stop, reached, scanned⟩ := Lexer.scanToken_encode text
    have tokenized := Lexer.tokenize_of_scanToken stop rfl rfl scanned
    refine ⟨_, _, tokenized, ?_, ?_⟩
    · constructor
      · rfl
      · rfl
      · rfl
      · exact reached
    · constructor
      · rfl
      · exact reached
      · exact reached
  · exact StringLiteral.decode_encode text

end ScriptFold
