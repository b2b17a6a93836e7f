import ScriptFold.Proofs.Token.Word

/-!
# Scanning single words

A text that is read as one name, number or string is still read so with something after
it, as long as that cannot belong to the token.
-/

namespace ScriptFold

namespace Mark

@[simp] theorem offset_advance (mark : Mark) (count : Nat) :
    (mark.advance count).offset = mark.offset + count := rfl

@[simp] theorem offset_newline (mark : Mark) (count : Nat) :
    (mark.newline count).offset = mark.offset + count := rfl

@[simp] theorem advance_advance (mark : Mark) (first second : Nat) :
    (mark.advance first).advance second = mark.advance (first + second) := by
  simp [advance, Nat.add_assoc]

end Mark

/-- A text is read as one token of a type. -/
def LexesAs (type : TokenType) (text : Text) : Prop :=
  ∃ token last, tokenize text = .ok [token, last] ∧ token.type = type ∧ token.text = text

namespace Lexer

open Word

/-- Nothing in front of a text is skipped. -/
def Solid (text : Text) : Prop :=
  ∀ mark newline, skipTrivia .between text mark newline = .ok (⟨text, mark⟩, newline)

theorem skipTrivia_length (trivia : Trivia) (text : Text) (mark : Mark) (newline : Bool)
    {cursor : Cursor} {ended : Bool}
    (skipped : skipTrivia trivia text mark newline = .ok (cursor, ended)) :
    cursor.rest.length ≤ text.length := by
  fun_induction skipTrivia trivia text mark newline <;> grind

/-- Code points that are skipped on their own. -/
def isSkipped (point : CodePoint) : Bool :=
  point.isLineEnd || isSpace point

theorem solid_of_not_isSkipped {point : CodePoint} {rest : Text}
    (notSkipped : isSkipped point = false)
    (noComment : point.is '/' → ∀ next, rest.head? = some next →
      next.is '/' = false ∧ next.is '*' = false) : Solid (point :: rest) := by
  obtain ⟨notEnd, notSpace⟩ := Bool.or_eq_false_iff.mp notSkipped
  intro mark newline
  rw [skipTrivia.eq_def]
  split
  case h_3 isComment =>
    cases isComment
    cases (noComment rfl _ rfl).1
  case h_4 isComment =>
    cases isComment
    cases (noComment rfl _ rfl).2
  case h_6 isBreak =>
    cases isBreak
    cases notEnd
  case h_9 isPoint =>
    cases isPoint
    rw [if_neg (by simp [notEnd]), if_neg (by simp [notSpace])]
  all_goals simp_all

/-- If nothing is skipped, the first code point is neither a blank nor a line end. -/
theorem isSkipped_of_length {point : CodePoint} {rest : Text} {mark : Mark} {newline ended : Bool}
    {cursor : Cursor}
    (skipped : skipTrivia .between (point :: rest) mark newline = .ok (cursor, ended))
    (whole : (point :: rest).length ≤ cursor.rest.length) :
    isSkipped point = false ∧ cursor = ⟨point :: rest, mark⟩ := by
  have shorter : ∀ trivia text mark newline,
      skipTrivia trivia text mark newline = .ok (cursor, ended) →
        (point :: rest).length ≤ text.length := fun trivia text mark newline skipped =>
    Nat.le_trans whole (skipTrivia_length trivia text mark newline skipped)
  rw [skipTrivia.eq_def] at skipped
  split at skipped
  case h_9 isPoint =>
    cases isPoint
    split at skipped
    · exact absurd (shorter _ _ _ _ skipped) (Nat.not_succ_le_self _)
    · split at skipped
      · exact absurd (shorter _ _ _ _ skipped) (Nat.not_succ_le_self _)
      · cases skipped
        simp_all [isSkipped]
  all_goals grind

/-- The types of tokens that are neither strings nor numbers nor words. -/
def isOther (type : TokenType) : Bool :=
  [.wholeTemplate, .templateHead, .templateMiddle, .templateTail, .privateName, .regex].contains
    type || TokenType.operators.any (·.2 == type)

def isQuote (point : CodePoint) : Bool :=
  point.isOneOf ['"', '\x27']

/-- Whether a number begins with a code point that has a rest after it. -/
def startsNumber (point : CodePoint) (rest : Text) : Bool :=
  point.isDigit || (point.is '.' && startsIn CodePoint.isDigit rest)

/-- Whether a word begins with a code point. -/
def startsWord (point : CodePoint) : Bool :=
  isNameStart point || 127 < point.toNat

theorem isOther_scanOperator {cursor : Cursor} {opened : List Opener} {result : Scanned}
    (scanned : scanOperator cursor opened = .ok result) : isOther result.type := by
  unfold scanOperator at scanned
  simp only at scanned
  split at scanned
  case h_1 spelling type found =>
    cases scanned
    have there := List.mem_of_find?_eq_some found
    rw [isOther, Bool.or_eq_true]
    right
    exact List.any_eq_true.mpr ⟨_, there, beq_self_eq_true _⟩
  case h_2 => cases scanned

theorem type_scanPiece {opened : List Opener} {closed substitution : TokenType} {start : Cursor}
    {result : Scanned} (scanned : scanPiece opened closed substitution start = .ok result) :
    result.type = closed ∨ result.type = substitution := by
  obtain ⟨⟨ending, stop, next⟩, _, scanned⟩ := Calculation.of_bind_eq_ok scanned
  cases ending <;> cases scanned
  · exact .inl rfl
  · exact .inr rfl

/-- What a token was scanned as. -/
theorem scanToken_cases {previous : Option TokenType} {opened : List Opener}
    {point : CodePoint} {rest : Text} {mark : Mark} {result : Scanned}
    (scanned : scanToken previous opened ⟨point :: rest, mark⟩ = .ok result) :
    (isQuote point ∧ ∃ next, scanString point mark rest (mark.advance 1) = .ok next ∧
      result = ⟨.string, textBetween ⟨point :: rest, mark⟩ next, next, opened⟩) ∨
    (isQuote point = false ∧ point.is '\x60' = false ∧ startsNumber point rest ∧
      ∃ type next, scanNumber ⟨point :: rest, mark⟩ = .ok (type, next) ∧
        result = ⟨type, textBetween ⟨point :: rest, mark⟩ next, next, opened⟩) ∨
    (isQuote point = false ∧ point.is '\x60' = false ∧ startsNumber point rest = false ∧
      startsWord point ∧ ∃ next word, next = scanName (point :: rest) mark ∧
        word = textBetween ⟨point :: rest, mark⟩ next ∧
        result = ⟨wordType previous word, word, next, opened⟩) ∨
    isOther result.type := by
  unfold scanToken at scanned
  simp only at scanned
  split at scanned
  case isTrue isQuote =>
    obtain ⟨next, isNext, scanned⟩ := Calculation.of_bind_eq_ok scanned
    cases scanned
    exact .inl ⟨isQuote, next, isNext, rfl⟩
  case isFalse notQuote =>
    have notQuote : isQuote point = false := Bool.eq_false_iff.mpr notQuote
    split at scanned
    case isTrue =>
      rcases type_scanPiece scanned with isType | isType <;> rw [isType] <;> exact .inr (.inr (.inr rfl))
    case isFalse notTick =>
      have notTick : point.is '\x60' = false := Bool.eq_false_iff.mpr notTick
      split at scanned
      case isTrue isNumber =>
        obtain ⟨⟨type, next⟩, isNext, scanned⟩ := Calculation.of_bind_eq_ok scanned
        cases scanned
        exact .inr (.inl ⟨notQuote, notTick, isNumber, type, next, isNext, rfl⟩)
      case isFalse notNumber =>
        have notNumber : startsNumber point rest = false := Bool.eq_false_iff.mpr notNumber
        split at scanned
        case isTrue isWord =>
          cases scanned
          exact .inr (.inr (.inl ⟨notQuote, notTick, notNumber, isWord, _, _, rfl, rfl, rfl⟩))
        case isFalse =>
          refine .inr (.inr (.inr ?_))
          split at scanned
          case isTrue =>
            cases scanned
            rfl
          case isFalse =>
            split at scanned
            case isTrue =>
              obtain ⟨closed, _, scanned⟩ := Calculation.of_bind_eq_ok scanned
              cases scanned
              rfl
            case isFalse =>
              split at scanned
              case isTrue =>
                rcases type_scanPiece scanned with isType | isType <;> rw [isType] <;> rfl
              case isFalse => exact isOther_scanOperator scanned

theorem length_textBetween (start stop : Cursor) :
    (textBetween start stop).length ≤ start.rest.length := by
  rw [textBetween, List.length_take]
  exact Nat.min_le_right _ _

/-- A token that is the whole text ends where the text does. -/
theorem length_le_of_whole {text : Text} {start : Mark} {next : Cursor} {count : Nat}
    (whole : textBetween ⟨text, start⟩ next = text)
    (reached : next.mark.offset ≤ start.offset + count) : text.length ≤ count := by
  have size := congrArg List.length whole
  simp only [textBetween, List.length_take] at size
  omega

/-- The token of a text that is read as one, from its first code point on. -/
theorem scanToken_of_lexesAs {type : TokenType} {text : Text} (lexes : LexesAs type text)
    (isWord : isOther type = false) :
    ∃ point rest result, text = point :: rest ∧ isSkipped point = false ∧
      scanToken none [] ⟨point :: rest, .start⟩ = .ok result ∧ result.type = type ∧
      result.text = text := by
  obtain ⟨token, last, read, isType, isText⟩ := lexes
  rw [tokenize, tokensFrom] at read
  obtain ⟨⟨start, newline⟩, skipped, read⟩ := Calculation.of_bind_eq_ok read
  simp only at read
  split at read
  case isTrue => cases read
  case isFalse present =>
    obtain ⟨result, scanned, read⟩ := Calculation.of_bind_eq_ok read
    obtain ⟨others, _, read⟩ := Calculation.of_bind_eq_ok read
    cases read
    obtain ⟨cursorRest, mark⟩ := start
    cases cursorRest with
    | nil => exact absurd rfl present
    | cons point rest =>
        have isType : result.type = type := isType
        have isText : result.text = text := isText
        have short : result.text.length ≤ (point :: rest).length := by
          rcases scanToken_cases scanned with ⟨_, next, _, rfl⟩ | ⟨_, _, _, _, next, _, rfl⟩ |
            ⟨_, _, _, _, next, word, _, rfl, rfl⟩ | other
          · exact length_textBetween _ next
          · exact length_textBetween _ next
          · exact length_textBetween _ next
          · rw [isType, isWord] at other
            cases other
        rw [isText] at short
        cases text with
        | nil => cases skipped
        | cons first others =>
            obtain ⟨notSkipped, same⟩ := isSkipped_of_length skipped short
            cases same
            exact ⟨point, rest, result, rfl, notSkipped, scanned, isType, isText⟩

/-- Code points that stand between the parts of a construct. -/
def isDivider (point : CodePoint) : Bool :=
  point.isOneOf [' ', '\t', '\n', '(', ')', '[', ']', '\x7b', '\x7d', ',', ';', ':']

/-- The rest of a text is empty or begins with a divider. -/
def Divided (rest : Text) : Prop :=
  ∀ point, rest.head? = some point → isDivider point

theorem Divided.nil : Divided [] :=
  nofun

theorem Divided.cons {point : CodePoint} (divides : isDivider point) (rest : Text) :
    Divided (point :: rest) := by
  intro first isFirst
  cases isFirst
  exact divides

theorem not_startsIn_of_divided {inClass : CodePoint → Bool} {rest : Text}
    (divided : Divided rest) (without : ∀ point, isDivider point → inClass point = false) :
    startsIn inClass rest = false := by
  cases rest with
  | nil => rfl
  | cons point others => exact without point (divided point rfl)

/-- A divider is no part of a number or a name. -/
theorem isDivider_not_part {point : CodePoint} (divides : isDivider point) :
    isDigitPart point = false ∧ point.isAlphanumeric = false ∧ point.isDigit = false ∧
      isNameStart point = false ∧ isNamePart point = false ∧
      point.isOneOf ['.', 'n', 'e', 'E', '+', '-', 'x', 'X', 'o', 'O', 'b', 'B', '_', '\\'] = false := by
  simp only [isDivider, CodePoint.isOneOf, List.any_cons, List.any_nil, Bool.or_false,
    Bool.or_eq_true, CodePoint.is, beq_iff_eq] at divides
  rcases divides with rfl | rfl | rfl | rfl | rfl | rfl | rfl | rfl | rfl | rfl | rfl | rfl <;>
    decide

/-- Scanning moves a cursor by some code points of a text and of the same line, and a divider
after the text makes no difference. -/
def StepsOn (text : Text) (scan : Cursor → Cursor) : Prop :=
  ∃ count, count ≤ text.length ∧ ∀ rest, Divided rest → ∀ mark,
    scan ⟨text ++ rest, mark⟩ = ⟨text.drop count ++ rest, mark.advance count⟩

theorem StepsOn.andThen {text : Text} {first second : Cursor → Cursor}
    (firstSteps : StepsOn text first) (secondSteps : ∀ text, StepsOn text second) :
    StepsOn text fun cursor => second (first cursor) := by
  obtain ⟨count, bounded, moved⟩ := firstSteps
  obtain ⟨more, moreBounded, movedMore⟩ := secondSteps (text.drop count)
  rw [List.length_drop] at moreBounded
  refine ⟨count + more, by omega, fun rest divided mark => ?_⟩
  simp only [moved rest divided, movedMore rest divided, List.drop_drop, Mark.advance_advance]

/-- Two scanners that do the same with dividers after a text step alike on it. -/
theorem StepsOn.congr {text : Text} {scan other : Cursor → Cursor} (steps : StepsOn text other)
    (same : ∀ rest, Divided rest → ∀ mark, scan ⟨text ++ rest, mark⟩ = other ⟨text ++ rest, mark⟩) :
    StepsOn text scan := by
  obtain ⟨count, bounded, moved⟩ := steps
  exact ⟨count, bounded, fun rest divided mark =>
    (same rest divided mark).trans (moved rest divided mark)⟩

theorem stepsOn_id (text : Text) : StepsOn text fun cursor => cursor :=
  ⟨0, Nat.zero_le _, fun _ _ _ => rfl⟩

theorem stepsOn_skip {text : Text} {count : Nat} (bounded : count ≤ text.length) :
    StepsOn text (skip count) := by
  refine ⟨count, bounded, fun rest _ mark => ?_⟩
  simp only [skip, List.drop_append_of_le_length bounded]

theorem stepsOn_skipWhile {inClass : CodePoint → Bool}
    (without : ∀ point, isDivider point → inClass point = false) (text : Text) :
    StepsOn text (skipWhile inClass) := by
  have within : (text.takeWhile inClass).length ≤ text.length :=
    (List.takeWhile_prefix inClass).length_le
  refine ⟨(text.takeWhile inClass).length, within, fun rest divided mark => ?_⟩
  have taken : (text ++ rest).takeWhile inClass = text.takeWhile inClass := by
    clear within
    induction text with
    | nil =>
        cases rest with
        | nil => rfl
        | cons point others => simp [without point (divided point rfl)]
    | cons point others induction => simp only [List.cons_append, List.takeWhile_cons, induction]
  simp only [skipWhile, taken, List.drop_append_of_le_length within]

theorem stepsOn_digits (text : Text) : StepsOn text (skipWhile isDigitPart) :=
  stepsOn_skipWhile (fun _ divides => (isDivider_not_part divides).1) text

/-- A divider is none of the characters that go on with a number. -/
theorem isDivider_isOneOf {point : CodePoint} (divides : isDivider point) {characters : List Char}
    (among : ∀ c, c ∈ characters →
      c ∈ ['.', 'n', 'e', 'E', '+', '-', 'x', 'X', 'o', 'O', 'b', 'B', '_', '\\']) :
    point.isOneOf characters = false := by
  have none := (isDivider_not_part divides).2.2.2.2.2
  rw [CodePoint.isOneOf, List.any_eq_false] at none ⊢
  exact fun c there => none c (among c there)

theorem isDivider_is {point : CodePoint} (divides : isDivider point) {c : Char}
    (among : c ∈ ['.', 'n', 'e', 'E', '+', '-', 'x', 'X', 'o', 'O', 'b', 'B', '_', '\\']) :
    point.is c = false := by
  have none : point.isOneOf [c] = false := isDivider_isOneOf divides (by simpa using among)
  simpa [CodePoint.isOneOf] using none

/-- Whether a text begins with a code point of a class does not depend on a divider after it. -/
theorem startsIn_append {inClass : CodePoint → Bool} (text : Text) {rest : Text}
    (divided : Divided rest) (without : ∀ point, isDivider point → inClass point = false) :
    startsIn inClass (text ++ rest) = startsIn inClass text := by
  cases text with
  | nil => exact not_startsIn_of_divided divided without
  | cons point others => rfl

theorem stepsOn_scanFraction (text : Text) : StepsOn text scanFraction := by
  have same : ∀ rest, Divided rest →
      startsIn (·.is '.') (text ++ rest) = startsIn (·.is '.') text := fun rest divided =>
    startsIn_append text divided fun point divides => isDivider_is divides (by simp)
  cases isDot : startsIn (·.is '.') text with
  | false =>
      refine (stepsOn_id text).congr fun rest divided mark => ?_
      simp only [scanFraction, same rest divided, isDot]
      rfl
  | true =>
      have present : 1 ≤ text.length := by
        cases text with
        | nil => cases isDot
        | cons point others => simp
      refine ((stepsOn_skip present).andThen stepsOn_digits).congr fun rest divided mark => ?_
      simp only [scanFraction, same rest divided, isDot]
      rfl

/-- The width of the mark of an exponent, if digits follow it. -/
def exponentWidth? : Text → Option Nat
  | [] => none
  | mark :: rest =>
      let width := if startsIn (·.isOneOf ['+', '-']) rest then 2 else 1
      if mark.isOneOf ['e', 'E'] && startsIn CodePoint.isDigit (rest.drop (width - 1)) then
        some width
      else none

theorem scanExponent_eq (cursor : Cursor) :
    scanExponent cursor =
      match exponentWidth? cursor.rest with
      | some width => skipWhile isDigitPart (skip width cursor)
      | none => cursor := by
  obtain ⟨rest, mark⟩ := cursor
  cases rest with
  | nil => rfl
  | cons point others =>
      simp only [scanExponent, exponentWidth?]
      cases startsIn (·.isOneOf ['+', '-']) others <;>
        cases point.isOneOf ['e', 'E'] <;> simp <;> split <;> rfl

theorem exponentWidth?_append (text : Text) {rest : Text} (divided : Divided rest) :
    exponentWidth? (text ++ rest) = exponentWidth? text := by
  have isDigit : ∀ point, isDivider point → point.isDigit = false := fun point divides =>
    (isDivider_not_part divides).2.2.1
  have isSign : ∀ point, isDivider point → point.isOneOf ['+', '-'] = false :=
    fun point divides => isDivider_isOneOf divides (by simp)
  cases text with
  | nil =>
      cases rest with
      | nil => rfl
      | cons point others =>
          have notMark : point.isOneOf ['e', 'E'] = false :=
            isDivider_isOneOf (divided point rfl) (by simp)
          simp [exponentWidth?, notMark]
  | cons point others =>
      simp only [exponentWidth?, List.cons_append, startsIn_append others divided isSign]
      cases others with
      | nil =>
          have noDigit : startsIn CodePoint.isDigit rest = false :=
            not_startsIn_of_divided divided isDigit
          simp only [List.nil_append, startsIn, List.head?_nil, Option.any_none] at noDigit ⊢
          simp [noDigit]
      | cons second more =>
          cases startsIn (·.isOneOf ['+', '-']) (second :: more) with
          | false => rfl
          | true => simp [startsIn_append more divided isDigit]

private theorem exponentWidth?_le {text : Text} {width : Nat} (isWidth
    : exponentWidth? text = some width) :
    width ≤ text.length := by
  match text with
  | [] => cases isWidth
  | [point] => simp [exponentWidth?, startsIn] at isWidth
  | point :: second :: others =>
      have atMost : width ≤ 2 := by
        simp only [exponentWidth?, Option.ite_none_right_eq_some, Option.some.injEq] at isWidth
        rw [← isWidth.2]
        split <;> decide
      exact Nat.le_trans atMost (Nat.le_add_left 2 others.length)

theorem stepsOn_scanExponent (text : Text) : StepsOn text scanExponent := by
  cases isWidth : exponentWidth? text with
  | none =>
      refine (stepsOn_id text).congr fun rest divided mark => ?_
      simp only [scanExponent_eq, exponentWidth?_append text divided, isWidth]
  | some width =>
      refine ((stepsOn_skip (exponentWidth?_le isWidth)).andThen stepsOn_digits).congr
        fun rest divided mark => ?_
      simp only [scanExponent_eq, exponentWidth?_append text divided, isWidth]

/-- Whether a number begins with the mark of a base. -/
def isMarked (text : Text) : Bool :=
  startsIn (·.is '0') text && startsIn (·.isOneOf ['x', 'X', 'o', 'O', 'b', 'B']) (text.drop 1)

theorem scanDigits_eq (cursor : Cursor) :
    scanDigits cursor =
      if isMarked cursor.rest then scanMarkedDigits (skip 2 cursor)
      else scanExponent (scanFraction (skipWhile isDigitPart cursor)) := by
  unfold scanDigits
  split
  case h_1 isRest => simp [isMarked, startsIn, isRest, CodePoint.is]
  case h_2 other =>
    have unmarked : isMarked cursor.rest = false := by
      rcases isRest : cursor.rest with _ | ⟨point, _ | ⟨second, others⟩⟩
      · rfl
      · simp [isMarked, startsIn]
      · have notZero : point ≠ .char '0' := by
          rintro rfl
          exact other second others isRest
        simp [isMarked, startsIn, CodePoint.is, notZero]
    rw [unmarked]
    rfl

theorem isMarked_append (text : Text) {rest : Text} (divided : Divided rest) :
    isMarked (text ++ rest) = isMarked text := by
  have notMark : ∀ point, isDivider point →
      point.isOneOf ['x', 'X', 'o', 'O', 'b', 'B'] = false := fun point divides =>
    isDivider_isOneOf divides (by simp)
  have notZero : ∀ point, isDivider point → point.is '0' = false := by
    intro point divides
    have notDigit := (isDivider_not_part divides).2.2.1
    cases isZero : point.is '0' with
    | false => rfl
    | true =>
        rw [eq_of_beq isZero] at notDigit
        cases notDigit
  rw [isMarked, isMarked, startsIn_append text divided notZero]
  cases text with
  | nil => rfl
  | cons point others =>
      simp only [List.cons_append, List.drop_one, List.tail_cons,
        startsIn_append others divided notMark]

private theorem stepsOn_scanDigits (text : Text) : StepsOn text scanDigits := by
  cases marked : isMarked text with
  | false =>
      refine (((stepsOn_digits text).andThen stepsOn_scanFraction).andThen
        stepsOn_scanExponent).congr fun rest divided mark => ?_
      simp only [scanDigits_eq, isMarked_append text divided, marked]
      rfl
  | true =>
      have within : 2 ≤ text.length := by
        match text with
        | [] => cases marked
        | [point] => simp [isMarked, startsIn] at marked
        | point :: second :: others => simp
      have notPart : ∀ point, isDivider point →
          ((point.isAlphanumeric || point.is '_') && !point.is 'n') = false := by
        intro point divides
        rw [(isDivider_not_part divides).2.1, isDivider_is divides (by simp)]
        rfl
      refine ((stepsOn_skip within).andThen (stepsOn_skipWhile notPart)).congr
        fun rest divided mark => ?_
      simp only [scanDigits_eq, isMarked_append text divided, marked]
      rfl

/-- A text that is read as a number is read so before a divider. -/
theorem scanNumber_append {text rest : Text} {next : Cursor} (divided : Divided rest)
    (scanned : scanNumber ⟨text, .start⟩ = .ok (.number, next))
    (whole : textBetween ⟨text, .start⟩ next = text) (mark : Mark) :
    scanNumber ⟨text ++ rest, mark⟩ = .ok (.number, ⟨rest, mark.advance text.length⟩) := by
  obtain ⟨count, within, moved⟩ := stepsOn_scanDigits text
  have alone := moved [] Divided.nil .start
  simp only [List.append_nil] at alone
  unfold scanNumber at scanned
  simp only [alone] at scanned
  split at scanned
  case isTrue => cases scanned
  case isFalse =>
    split at scanned
    case isTrue => cases scanned
    case isFalse =>
      cases scanned
      have all : count = text.length :=
        Nat.le_antisymm within (length_le_of_whole whole (Nat.le_refl _))
      subst all
      have notEnd : startsIn (·.is 'n') rest = false :=
        not_startsIn_of_divided divided fun point divides => isDivider_is divides (by simp)
      have notName : startsIn isNameStart rest = false :=
        not_startsIn_of_divided divided fun point divides => (isDivider_not_part divides).2.2.2.1
      simp [scanNumber, moved rest divided mark, notEnd, notName]

theorem scanName_offset (text : Text) (mark : Mark) :
    (scanName text mark).mark.offset + (scanName text mark).rest.length =
      mark.offset + text.length := by
  fun_induction scanName text mark with
  | case1 rest mark induction =>
      rw [induction, Mark.offset_advance, List.length_cons, List.length_cons]
      omega
  | case2 point rest mark _ isPart induction =>
      rw [induction, Mark.offset_advance, List.length_cons]
      omega
  | case3 => rfl
  | case4 => rfl

theorem scanName_part {point : CodePoint} (isPart : isNamePart point) (rest : Text) (mark : Mark) :
    scanName (point :: rest) mark = scanName rest (mark.advance 1) := by
  rw [scanName.eq_def]
  split
  case h_1 isEscape =>
    cases isEscape
    cases isPart
  case h_2 isPoint =>
    cases isPoint
    rw [if_pos isPart]
  case h_3 isPoint => cases isPoint

/-- The rest of a text cannot belong to a name before it. -/
def EndsName (rest : Text) : Prop :=
  ∀ point, rest.head? = some point → isNamePart point = false ∧ point.is '\\' = false

theorem EndsName.nil : EndsName [] :=
  nofun

theorem EndsName.cons {point : CodePoint} (notPart : isNamePart point = false)
    (notEscape : point.is '\\' = false) (rest : Text) : EndsName (point :: rest) := by
  intro first isFirst
  cases isFirst
  exact ⟨notPart, notEscape⟩

theorem EndsName.of_divided {rest : Text} (divided : Divided rest) : EndsName rest := by
  intro point isHead
  have divides := divided point isHead
  exact ⟨(isDivider_not_part divides).2.2.2.2.1, isDivider_is divides (by simp)⟩

private theorem scanName_end {rest : Text} (ends : EndsName rest) (mark : Mark) :
    scanName rest mark = ⟨rest, mark⟩ := by
  rw [scanName.eq_def]
  split
  case h_1 => cases (ends _ rfl).2
  case h_2 point others _ => rw [if_neg (by simp [(ends point rfl).1])]
  case h_3 => rfl

theorem scanName_append {text rest : Text} {start : Mark} (all : (scanName text start).rest = [])
    (ends : EndsName rest) (mark : Mark) :
    scanName (text ++ rest) mark = ⟨rest, mark.advance text.length⟩ := by
  fun_induction scanName text start generalizing mark with
  | case1 others start induction =>
      simp only [List.cons_append, scanName, induction all, Mark.advance_advance, List.length_cons]
      rw [Nat.add_comm 2]
  | case2 point others start _ isPart induction =>
      simp only [List.cons_append, scanName_part isPart, induction all, Mark.advance_advance,
        List.length_cons]
      rw [Nat.add_comm 1]
  | case3 => cases all
  | case4 start => exact scanName_end ends mark

theorem scanString_offset {quote : CodePoint} {opened : Mark} (text : Text) (mark : Mark)
    {next : Cursor} (scanned : scanString quote opened text mark = .ok next) :
    next.mark.offset + next.rest.length = mark.offset + text.length := by
  fun_induction scanString quote opened text mark with
  | case1 => cases scanned
  | case2 mark rest induction =>
      rw [induction scanned]
      simp only [Mark.offset_advance, Mark.offset_newline, List.length_cons]
      omega
  | case3 point rest mark _ _ induction =>
      rw [induction scanned]
      simp only [Mark.offset_advance, Mark.offset_newline, List.length_cons]
      omega
  | case4 point rest mark _ _ induction =>
      rw [induction scanned]
      simp only [Mark.offset_advance, List.length_cons]
      omega
  | case5 =>
      cases scanned
      simp only [Mark.offset_advance, List.length_cons]
      omega
  | case6 => cases scanned
  | case7 point rest mark _ _ _ _ induction =>
      rw [induction scanned]
      simp only [Mark.offset_advance, List.length_cons]
      omega

theorem scanString_escape {quote point : CodePoint} {opened : Mark} {rest : Text}
    (notBreak : ∀ others, point = .char '\r' → rest = .char '\n' :: others → False) (mark : Mark) :
    scanString quote opened (.char '\\' :: point :: rest) mark =
      if point.isLineEnd then scanString quote opened rest ((mark.advance 1).newline 1)
      else scanString quote opened rest (mark.advance 2) := by
  rw [scanString.eq_def]
  split
  case h_1 isText => cases isText
  case h_2 isText =>
    cases isText
    exact absurd rfl (notBreak _ rfl)
  case h_3 isText =>
    cases isText
    rfl
  case h_4 other isText =>
    cases isText
    exact absurd rfl (other _ _ rfl)

theorem scanString_point {quote point : CodePoint} {opened : Mark} (notEscape : point ≠ .char '\\')
    (rest : Text) (mark : Mark) :
    scanString quote opened (point :: rest) mark =
      if point = quote then .ok ⟨rest, mark.advance 1⟩
      else if point.isOneOf ['\n', '\r'] then .error ⟨.unterminatedString, opened⟩
      else scanString quote opened rest (mark.advance 1) := by
  rw [scanString.eq_def]
  split
  case h_1 isText => cases isText
  case h_2 isText =>
    cases isText
    exact absurd rfl notEscape
  case h_3 isText =>
    cases isText
    exact absurd rfl notEscape
  case h_4 isText =>
    cases isText
    rfl

/-- What stands after the closing quote of a string makes no difference. -/
theorem scanString_append {quote : CodePoint} {opened start stop : Mark} (text : Text)
    (notEscape : quote ≠ .char '\\') (opened' mark : Mark) (rest : Text)
    (scanned : scanString quote opened text start = .ok ⟨[], stop⟩) :
    ∃ stop', scanString quote opened' (text ++ rest) mark = .ok ⟨rest, stop'⟩ := by
  -- A string does not end in the middle of an escape, so `others` has a first code point.
  have apart : ∀ {point : CodePoint} {others : Text} {start : Mark},
      (∀ more, point = .char '\r' → others = .char '\n' :: more → False) →
      scanString quote opened others start = .ok ⟨[], stop⟩ →
      ∀ more, point = .char '\r' → others ++ rest = .char '\n' :: more → False := by
    intro point others start notBreak scanned more isReturn isFeed
    cases others with
    | nil => cases scanned
    | cons second others =>
        cases isFeed
        exact notBreak others isReturn rfl
  fun_induction scanString quote opened text start generalizing mark with
  | case1 => cases scanned
  | case2 start others induction => exact induction _ scanned
  | case3 point others start notBreak isEnd induction =>
      rw [List.cons_append, List.cons_append, scanString_escape (apart notBreak scanned),
        if_pos isEnd]
      exact induction _ scanned
  | case4 point others start notBreak notEnd induction =>
      rw [List.cons_append, List.cons_append, scanString_escape (apart notBreak scanned),
        if_neg notEnd]
      exact induction _ scanned
  | case5 others start notEsc =>
      cases scanned
      rw [List.cons_append, scanString_point notEscape, if_pos rfl]
      exact ⟨_, rfl⟩
  | case6 => cases scanned
  | case7 point others start _ notEsc notQuote notEnd induction =>
      have notEscape : point ≠ .char '\\' := by
        rintro rfl
        cases others with
        | nil => cases scanned
        | cons second others => exact notEsc second others rfl rfl
      rw [List.cons_append, scanString_point notEscape, if_neg notQuote, if_neg notEnd]
      exact induction _ scanned

theorem textBetween_append (text rest : Text) {mark stop : Mark}
    (reached : stop.offset = mark.offset + text.length) :
    textBetween ⟨text ++ rest, mark⟩ ⟨rest, stop⟩ = text := by
  rw [textBetween, reached, Nat.add_sub_cancel_left, List.take_left]

/-- A text is scanned as one word, reserved or not. -/
structure IsName (text : Text) : Prop where
  starts : ∃ point rest, text = point :: rest ∧ isSkipped point = false ∧ isQuote point = false ∧
    point.is '\x60' = false ∧ point.isDigit = false ∧ startsWord point
  all : (scanName text .start).rest = []

/-- A code point of a class is no character outside it. -/
theorem not_is_of_class {inClass : CodePoint → Bool} {point : CodePoint} (within : inClass point)
    {c : Char} (without : inClass (.char c) = false) : point.is c = false := by
  cases same : point.is c with
  | false => rfl
  | true =>
      rw [eq_of_beq same, without] at within
      cases within

theorem scanNumber_type {cursor next : Cursor} {type : TokenType}
    (scanned : scanNumber cursor = .ok (type, next)) : type = .bigint ∨ type = .number := by
  unfold scanNumber at scanned
  simp only at scanned
  split at scanned
  · cases scanned
    exact .inl rfl
  · split at scanned
    · cases scanned
    · cases scanned
      exact .inr rfl

theorem isName_ofWord (word : Text) : (TokenType.ofWord word).isName := by
  rw [TokenType.ofWord, TokenType.isName, Bool.or_eq_true]
  split
  case h_1 entry found =>
    right
    exact List.any_eq_true.mpr ⟨entry, List.mem_of_find?_eq_some found, beq_self_eq_true _⟩
  case h_2 =>
    left
    rfl

private theorem isOther_of_isName {type : TokenType} (isName : type.isName) :
    isOther type = false ∧ type ≠ .string ∧ type ≠ .number ∧ type ≠ .bigint := by
  have plain : ∀ entry ∈ TokenType.keywords, isOther entry.2 = false ∧ entry.2 ≠ .string ∧
      entry.2 ≠ .number ∧ entry.2 ≠ .bigint := by
    decide
  rcases Bool.or_eq_true_iff.mp isName with isIdent | isKeyword
  · cases eq_of_beq isIdent
    decide
  · obtain ⟨entry, there, same⟩ := List.any_eq_true.mp isKeyword
    exact eq_of_beq same ▸ plain entry there

theorem isName_of_lexesAs {type : TokenType} {text : Text} (lexes : LexesAs type text)
    (isName : type.isName) : IsName text ∧ TokenType.ofWord text = type := by
  obtain ⟨notOther, notString, plainNumber, notBigint⟩ := isOther_of_isName isName
  obtain ⟨point, rest, result, rfl, notSkipped, scanned, rfl, isText⟩ :=
    scanToken_of_lexesAs lexes notOther
  rcases scanToken_cases scanned with ⟨_, next, _, rfl⟩ | ⟨_, _, _, type, next, isNumber, rfl⟩ |
    ⟨notQuote, notTick, notNumber, isWord, next, word, rfl, rfl, rfl⟩ | other
  · exact absurd rfl notString
  · rcases scanNumber_type isNumber with isType | isType
    · exact absurd isType notBigint
    · exact absurd isType plainNumber
  · have conserved := scanName_offset (point :: rest) .start
    have within := length_le_of_whole isText (Nat.le_of_eq (Nat.zero_add _).symm)
    have start : Mark.start.offset = 0 := rfl
    refine ⟨⟨⟨point, rest, rfl, notSkipped, notQuote, notTick, ?_, isWord⟩, ?_⟩, ?_⟩
    · exact (Bool.or_eq_false_iff.mp notNumber).1
    · apply List.eq_nil_of_length_eq_zero
      omega
    · simp only at isText
      rw [isText]
      rfl
  · rw [notOther] at other
    cases other

end Lexer

namespace Word

open Lexer

theorem scans_isName {text : Text} (isName : IsName text) {rest : Text} (ends : EndsName rest)
    {type : TokenType} {joined : Bool}
    (isType : ∀ previous, Follows ⟨type, text, joined⟩ previous → wordType previous text = type) :
    Scans ⟨type, text, joined⟩ rest := by
  obtain ⟨⟨point, others, rfl, notSkipped, notQuote, notTick, notDigit, isWord⟩, all⟩ := isName
  have notDot : point.is '.' = false := not_is_of_class isWord (by decide)
  have notSlash : point.is '/' = false := not_is_of_class isWord (by decide)
  refine ⟨solid_of_not_isSkipped notSkipped (by simp [notSlash]), ?_⟩
  intro previous opened mark follows plain
  refine ⟨opened, mark.advance (point :: others).length, plain, fun _ => rfl, ?_⟩
  have stop := scanName_append all ends mark
  have text := textBetween_append (point :: others) rest (mark.offset_advance _)
  rw [List.cons_append] at stop text ⊢
  unfold scanToken
  simp only [stop, text, isType previous follows]
  rw [isQuote] at notQuote
  rw [startsWord] at isWord
  simp only [notQuote, notTick, notDigit, notDot, isWord, Bool.false_and, Bool.or_false,
    Bool.false_eq_true, if_false, if_true]
  rfl

/-- A name ends where no name goes on. -/
theorem scans_name {text : Text} (lexes : LexesAs .ident text) {rest : Text}
    (ends : EndsName rest) : Scans ⟨.ident, text, false⟩ rest := by
  obtain ⟨isName, isWord⟩ := isName_of_lexesAs lexes rfl
  refine scans_isName isName ends fun previous _ => ?_
  rw [wordType, isWord, ite_self]

/-- A number ends at a divider. -/
theorem scans_number {text : Text} (lexes : LexesAs .number text) {rest : Text}
    (divided : Divided rest) : Scans ⟨.number, text, false⟩ rest := by
  obtain ⟨point, others, result, rfl, notSkipped, scanned, isType, isText⟩ :=
    scanToken_of_lexesAs lexes (by decide)
  rcases scanToken_cases scanned with ⟨_, next, _, rfl⟩ |
    ⟨notQuote, notTick, isNumber, type, next, scannedNumber, rfl⟩ |
    ⟨_, _, _, _, next, word, rfl, rfl, rfl⟩ | other
  · cases isType
  · cases isType
    have notSlash : point.is '/' = false := by
      cases isDigit : point.isDigit with
      | true => exact not_is_of_class isDigit (by decide)
      | false =>
          rw [startsNumber, isDigit, Bool.false_or, Bool.and_eq_true] at isNumber
          rw [eq_of_beq isNumber.1]
          rfl
    refine ⟨solid_of_not_isSkipped notSkipped (by simp [notSlash]), ?_⟩
    intro previous opened mark _ plain
    refine ⟨opened, mark.advance (point :: others).length, plain, fun _ => rfl, ?_⟩
    have stop := scanNumber_append divided scannedNumber isText mark
    have text := textBetween_append (point :: others) rest (mark.offset_advance _)
    have stillNumber : startsNumber point (others ++ rest) := by
      have same : startsIn CodePoint.isDigit (others ++ rest) = startsIn CodePoint.isDigit others :=
        startsIn_append others divided fun point divides => (isDivider_not_part divides).2.2.1
      rwa [startsNumber, same]
    rw [List.cons_append] at stop text ⊢
    unfold scanToken
    rw [isQuote] at notQuote
    rw [startsNumber] at stillNumber
    simp only [notQuote, notTick, stillNumber, stop, Bool.false_eq_true, if_false, if_true,
      Calculation.ok_bind, text]
    rfl
  · have absurd := isName_ofWord (textBetween ⟨point :: others, .start⟩
      (scanName (point :: others) .start))
    have isType : TokenType.ofWord _ = .number := isType
    rw [isType] at absurd
    cases absurd
  · rw [isType] at other
    cases other

/-- A string ends at its quote. -/
theorem scans_string {text : Text} (lexes : LexesAs .string text) (rest : Text) :
    Scans ⟨.string, text, false⟩ rest := by
  obtain ⟨point, others, result, rfl, notSkipped, scanned, isType, isText⟩ :=
    scanToken_of_lexesAs lexes (by decide)
  rcases scanToken_cases scanned with ⟨isQuote, ⟨left, stop⟩, scannedString, rfl⟩ |
    ⟨_, _, _, type, next, isNumber, rfl⟩ | ⟨_, _, _, _, next, word, rfl, rfl, rfl⟩ | other
  · have conserved := scanString_offset others (Mark.start.advance 1) scannedString
    have within := length_le_of_whole isText (Nat.le_of_eq (Nat.zero_add _).symm)
    have start : Mark.start.offset = 0 := rfl
    have nothingLeft : left = [] := by
      apply List.eq_nil_of_length_eq_zero
      simp only [Mark.offset_advance, List.length_cons] at conserved within
      omega
    subst nothingLeft
    have notEscape : point ≠ .char '\\' := by
      rintro rfl
      cases isQuote
    have notSlash : point.is '/' = false := not_is_of_class isQuote (by decide)
    refine ⟨solid_of_not_isSkipped notSkipped (by simp [notSlash]), ?_⟩
    intro previous opened mark _ plain
    obtain ⟨stop', found⟩ :=
      scanString_append others notEscape mark (mark.advance 1) rest scannedString
    refine ⟨opened, stop', plain, nofun, ?_⟩
    have reached := scanString_offset _ _ found
    have text : textBetween ⟨(point :: others) ++ rest, mark⟩ ⟨rest, stop'⟩ = point :: others := by
      apply textBetween_append
      simp only [Mark.offset_advance, List.length_append, List.length_cons] at reached ⊢
      omega
    rw [List.cons_append] at text ⊢
    unfold scanToken
    rw [Lexer.isQuote] at isQuote
    simp only [isQuote, if_true, found, Calculation.ok_bind, text]
    rfl
  · cases isType
    rcases scanNumber_type isNumber with absurd | absurd <;> cases absurd
  · have absurd := isName_ofWord (textBetween ⟨point :: others, .start⟩
      (scanName (point :: others) .start))
    have isType : TokenType.ofWord _ = .string := isType
    rw [isType] at absurd
    cases absurd
  · rw [isType] at other
    cases other

theorem isDivider_of_isGap {point : CodePoint} (isGap : Word.isGap point) : isDivider point := by
  simp only [Word.isGap, CodePoint.isOneOf, List.any_cons, List.any_nil, Bool.or_false,
    Bool.or_eq_true] at isGap
  simp only [isDivider, CodePoint.isOneOf, List.any_cons, List.any_nil, Bool.or_false,
    Bool.or_eq_true]
  tauto

/-- A word that ends at a divider and at the end of a text. -/
theorem sound_of_divided {word : Word} (notEmpty : word.text ≠ [])
    (scans : ∀ rest, Divided rest → word.Scans rest) : word.Sound :=
  ⟨notEmpty, fun _ rest isGap => scans _ (.cons (isDivider_of_isGap isGap) rest),
    scans [] .nil⟩

/-- The first code point of a text that is read as a string, a number or a word. -/
theorem head_of_lexesAs {type : TokenType} {text : Text} (lexes : LexesAs type text)
    (isWord : isOther type = false) :
    ∃ point rest, text = point :: rest ∧ (isQuote point ∨ startsNumber point rest ∨ startsWord point) := by
  obtain ⟨point, rest, result, rfl, _, scanned, rfl, _⟩ := scanToken_of_lexesAs lexes isWord
  refine ⟨point, rest, rfl, ?_⟩
  rcases scanToken_cases scanned with ⟨isQuote, _⟩ | ⟨_, _, isNumber, _⟩ | ⟨_, _, _, isWord, _⟩ |
    other
  · exact .inl isQuote
  · exact .inr (.inl isNumber)
  · exact .inr (.inr isWord)
  · rw [isWord] at other
    cases other

theorem ne_nil_of_lexesAs {type : TokenType} {text : Text} (lexes : LexesAs type text)
    (isWord : isOther type = false) : text ≠ [] := by
  obtain ⟨point, rest, rfl, _⟩ := head_of_lexesAs lexes isWord
  exact List.cons_ne_nil point rest

theorem sound_name {text : Text} (lexes : LexesAs .ident text) : Sound ⟨.ident, text, false⟩ :=
  sound_of_divided (ne_nil_of_lexesAs lexes (by decide)) fun _ divided =>
    scans_name lexes (.of_divided divided)

theorem sound_number {text : Text} (lexes : LexesAs .number text) : Sound ⟨.number, text, false⟩ :=
  sound_of_divided (ne_nil_of_lexesAs lexes (by decide)) fun _ => scans_number lexes

theorem sound_string {text : Text} (lexes : LexesAs .string text) : Sound ⟨.string, text, false⟩ :=
  sound_of_divided (ne_nil_of_lexesAs lexes (by decide)) fun rest _ => scans_string lexes rest

end Word

end ScriptFold
