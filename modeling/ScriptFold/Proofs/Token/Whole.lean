import ScriptFold.Proofs.Token.Crossing
import ScriptFold.Proofs.Token.Fixed

/-!
# What scanners go over

Each scanner goes over a token as it is written.  Template pieces count all of the line ends in
them.  A regular expression counts none, and a string only those behind a backslash.  All other
tokens stay on their line.
-/

namespace ScriptFold

open Text

namespace Lexer

open Cursor

/-! ### Code points that end no line -/

/-- Whether a class has one of the four code points that end lines. -/
def hasLineEnd (inClass : CodePoint → Bool) : Bool :=
  ['\n', '\r', '\u2028', '\u2029'].any fun c => inClass (.char c)

theorem isLineEnd_of_class {inClass : CodePoint → Bool} (without : hasLineEnd inClass = false)
    {point : CodePoint} (within : inClass point = true) : point.isLineEnd = false := by
  rw [hasLineEnd, List.any_eq_false] at without
  rw [CodePoint.isLineEnd, CodePoint.isOneOf, List.any_eq_false]
  intro c there
  rw [not_is_of_class within (Bool.eq_false_iff.mpr (without c there))]
  exact Bool.false_ne_true

theorem isLineEnd_eq (point : CodePoint) :
    point.isLineEnd = (point.isOneOf ['\n', '\r'] || point.isOneOf ['\u2028', '\u2029']) := by
  simp [CodePoint.isLineEnd, CodePoint.isOneOf, Bool.or_assoc]

theorem isLineEnd_of_isOneOf {characters : List Char}
    (without : hasLineEnd (·.isOneOf characters) = false) {point : CodePoint}
    (within : point.isOneOf characters = true) : point.isLineEnd = false :=
  @isLineEnd_of_class (·.isOneOf characters) without point within

theorem isLineEnd_of_isNamePart {point : CodePoint} (isPart : isNamePart point = true) :
    point.isLineEnd = false :=
  isLineEnd_of_class (by decide +kernel) isPart

/-! ### Quoted texts -/

/-- A string goes up to its closing quote and misses the bare separators. -/
theorem scanString_crosses {quote : CodePoint} (within : quote.isLineEnd = false)
    {opened : Mark} {text : Text} {mark : Mark} {next : Cursor}
    (scanned : scanString quote opened text mark = .ok next) :
    ∃ body, Crosses ⟨text, mark⟩ (body ++ [quote]) (bareSeparators (body ++ [quote])) next := by
  fun_induction scanString quote opened text mark with
  | case1 => cases scanned
  | case2 mark rest induction =>
      obtain ⟨body, crosses⟩ := induction scanned
      refine ⟨.char '\\' :: .char '\r' :: .char '\n' :: body, .past rfl (.broken ?_)⟩
      exact crosses
  | case3 point rest mark apart ends induction =>
      obtain ⟨body, crosses⟩ := induction scanned
      exact ⟨.char '\\' :: point :: body, .past rfl (.ended ends apart crosses)⟩
  | case4 point rest mark apart unended induction =>
      obtain ⟨body, crosses⟩ := induction scanned
      exact ⟨.char '\\' :: point :: body, .past rfl (.past (by simpa using unended) crosses)⟩
  | case5 rest mark =>
      cases scanned
      refine ⟨[], ?_⟩
      have none : bareSeparators [quote] = 0 := by
        rw [isLineEnd_eq, Bool.or_eq_false_iff] at within
        simp [bareSeparators, within.2]
      rw [List.nil_append, none]
      exact .past within (.refl _)
  | case6 => cases scanned
  | case7 point rest mark _ notEsc _ unbroken induction =>
      have notEscape : point ≠ .char '\\' := by
        rintro rfl
        cases rest with
        | nil => cases scanned
        | cons second rest => exact notEsc second rest rfl rfl
      obtain ⟨body, crosses⟩ := induction scanned
      refine ⟨point :: body, ?_⟩
      rw [List.cons_append, bareSeparators_cons notEscape]
      cases bare : point.isOneOf ['\u2028', '\u2029'] with
      | true =>
          refine .unended ?_ (.of_ne ?_ rest) crosses
          · rw [isLineEnd_eq, bare, Bool.or_true]
          · rintro rfl
            cases bare
      | false =>
          refine .past ?_ crosses
          rw [isLineEnd_eq, Bool.eq_false_iff.mpr unbroken, bare]
          rfl

/-- The delimiter at the end of a template piece. -/
def PieceEnd.closer : PieceEnd → Text
  | .closed => [.char '\x60']
  | .substitution => [.char '$', .char '\x7b']

theorem scanTemplate_stop {opened : Mark} {text : Text} {mark : Mark} {ending : PieceEnd}
    {stop : Nat} {next : Cursor}
    (scanned : scanTemplate opened text mark = .ok (ending, stop, next)) :
    next.mark.offset = stop + ending.closer.length := by
  fun_induction scanTemplate opened text mark with
  | case1 => cases scanned
  | case5 =>
      cases scanned
      rfl
  | case6 =>
      cases scanned
      rfl
  | case2 _ _ induction | case3 _ _ _ _ _ induction | case4 _ _ _ _ _ induction
  | case7 _ _ induction | case8 _ _ _ _ _ _ _ _ _ induction | case9 _ _ _ _ _ _ _ _ _ induction =>
      exact induction scanned

/-- A template piece goes up to its closing delimiter and misses no line end. -/
theorem scanTemplate_crosses {opened : Mark} {text : Text} {mark : Mark} {ending : PieceEnd}
    {stop : Nat} {next : Cursor}
    (scanned : scanTemplate opened text mark = .ok (ending, stop, next)) :
    ∃ body, Crosses ⟨text, mark⟩ (body ++ ending.closer) 0 next := by
  fun_induction scanTemplate opened text mark with
  | case1 => cases scanned
  | case2 mark rest induction =>
      obtain ⟨body, crosses⟩ := induction scanned
      exact ⟨.char '\\' :: .char '\r' :: .char '\n' :: body, .past rfl (.broken crosses)⟩
  | case3 point rest mark apart ends induction =>
      obtain ⟨body, crosses⟩ := induction scanned
      exact ⟨.char '\\' :: point :: body, .past rfl (.ended ends apart crosses)⟩
  | case4 point rest mark apart within induction =>
      obtain ⟨body, crosses⟩ := induction scanned
      exact ⟨.char '\\' :: point :: body, .past rfl (.past (by simpa using within) crosses)⟩
  | case5 =>
      cases scanned
      exact ⟨[], .past rfl (.refl _)⟩
  | case6 =>
      cases scanned
      exact ⟨[], .past rfl (.past rfl (.refl _))⟩
  | case7 mark rest induction =>
      obtain ⟨body, crosses⟩ := induction scanned
      exact ⟨.char '\r' :: .char '\n' :: body, .broken crosses⟩
  | case8 point rest mark _ _ _ _ apart ends induction =>
      obtain ⟨body, crosses⟩ := induction scanned
      exact ⟨point :: body, .ended ends apart crosses⟩
  | case9 point rest mark _ _ _ _ _ within induction =>
      obtain ⟨body, crosses⟩ := induction scanned
      exact ⟨point :: body, .past (by simpa using within) crosses⟩

/-- A regular expression goes up to its closing slash and misses every line end. -/
theorem scanRegexBody_crosses {opened : Mark} {inClass : Bool} {text : Text} {mark : Mark}
    {next : Cursor} (scanned : scanRegexBody opened inClass text mark = .ok next) :
    ∃ body, Crosses ⟨text, mark⟩ (body ++ [.char '/']) (lineEnds (body ++ [.char '/'])) next := by
  fun_induction scanRegexBody opened inClass text mark with
  | case1 => cases scanned
  | case2 inClass point rest mark induction =>
      have apart : Apart point rest := by
        intro others isReturn isFeed
        rw [isFeed, scanRegexBody] at scanned
        · cases scanned
        · exact nofun
      obtain ⟨body, crosses⟩ := induction scanned
      refine ⟨.char '\\' :: point :: body, .unmarked (.of_within (by decide) _) ?_⟩
      exact .unmarked apart crosses
  | case3 => cases scanned
  | case4 inClass point rest mark _ within isSlash =>
      cases scanned
      simp only [Bool.and_eq_true, CodePoint.is, beq_iff_eq] at isSlash
      rw [isSlash.1]
      exact ⟨[], .unmarked (.of_within (by decide) rest) (.refl _)⟩
  | case5 _ point rest _ _ within _ _ induction =>
      obtain ⟨body, crosses⟩ := induction scanned
      exact ⟨point :: body, .unmarked (.of_within within rest) crosses⟩
  | case6 _ point rest _ _ within _ _ _ induction =>
      obtain ⟨body, crosses⟩ := induction scanned
      exact ⟨point :: body, .unmarked (.of_within within rest) crosses⟩
  | case7 _ point rest _ _ within _ _ _ induction =>
      obtain ⟨body, crosses⟩ := induction scanned
      exact ⟨point :: body, .unmarked (.of_within within rest) crosses⟩

/-! ### Numbers, names and operators -/

/-- The next code point is of a class without line ends. -/
theorem skip_one_stays {inClass : CodePoint → Bool} (without : hasLineEnd inClass = false)
    {cursor : Cursor} (starts : startsIn inClass cursor.rest = true) :
    StaysOnLine cursor (skip 1 cursor) := by
  obtain ⟨rest, mark⟩ := cursor
  cases rest with
  | nil => cases starts
  | cons point rest => exact .past (isLineEnd_of_class without starts) (.refl _)

theorem skipWhile_stays {inClass : CodePoint → Bool} (without : hasLineEnd inClass = false)
    (cursor : Cursor) : StaysOnLine cursor (skipWhile inClass cursor) :=
  .skipWhile (fun _ => isLineEnd_of_class without) cursor

theorem digits_stay (cursor : Cursor) : StaysOnLine cursor (skipWhile isDigitPart cursor) :=
  skipWhile_stays (by decide +kernel) cursor

theorem scanMarkedDigits_stays (cursor : Cursor) : StaysOnLine cursor (scanMarkedDigits cursor) :=
  skipWhile_stays (by decide +kernel) cursor

theorem scanFraction_stays (cursor : Cursor) : StaysOnLine cursor (scanFraction cursor) := by
  unfold scanFraction
  split
  case isFalse => exact .refl cursor
  case isTrue starts => exact (skip_one_stays (by decide) starts).trans (digits_stay _)

theorem scanExponent_stays (cursor : Cursor) : StaysOnLine cursor (scanExponent cursor) := by
  rw [scanExponent_eq]
  split
  case h_2 => exact .refl cursor
  case h_1 width isWidth =>
    refine .trans ?_ (digits_stay _)
    obtain ⟨rest, mark⟩ := cursor
    cases rest with
    | nil => cases isWidth
    | cons point rest =>
        simp only [exponentWidth?, Option.ite_none_right_eq_some, Bool.and_eq_true,
          Option.some.injEq] at isWidth
        obtain ⟨⟨isMark, _⟩, rfl⟩ := isWidth
        have within : point.isLineEnd = false := isLineEnd_of_isOneOf (by decide) isMark
        split
        case isTrue signed => exact .past within (skip_one_stays (by decide) signed)
        case isFalse => exact .past within (.refl _)

theorem scanDigits_stays (cursor : Cursor) : StaysOnLine cursor (scanDigits cursor) := by
  rw [scanDigits_eq]
  split
  case isTrue marked =>
    refine .trans ?_ (scanMarkedDigits_stays _)
    obtain ⟨rest, mark⟩ := cursor
    obtain ⟨isZero, isMark⟩ := Bool.and_eq_true_iff.mp marked
    cases rest with
    | nil => cases isZero
    | cons point rest =>
        have within : point.isLineEnd = false := @isLineEnd_of_class (·.is '0') (by decide) _ isZero
        exact .past within (skip_one_stays (by decide) isMark)
  case isFalse => exact .trans (digits_stay _) (.trans (scanFraction_stays _) (scanExponent_stays _))

theorem scanNumber_stays {cursor next : Cursor} {type : TokenType}
    (scanned : scanNumber cursor = .ok (type, next)) : StaysOnLine (scanDigits cursor) next := by
  unfold scanNumber at scanned
  dsimp only at scanned
  split at scanned
  case isTrue starts =>
    cases scanned
    exact skip_one_stays (by decide) starts
  case isFalse =>
    split at scanned
    case isTrue => cases scanned
    case isFalse =>
      cases scanned
      exact .refl _

/-- A number has at least one code point. -/
theorem scanDigits_shorter {point : CodePoint} {rest : Text} (starts : startsNumber point rest = true)
    (mark : Mark) : (scanDigits ⟨point :: rest, mark⟩).rest.length ≤ rest.length := by
  rw [scanDigits_eq]
  split
  case isTrue =>
    refine (scanMarkedDigits_stays _).length_le.trans ?_
    exact (List.drop_sublist 1 rest).length_le
  case isFalse =>
    refine (scanExponent_stays _).length_le.trans ?_
    cases isPart : isDigitPart point with
    | true =>
        refine (scanFraction_stays _).length_le.trans ?_
        rw [skipWhile, List.takeWhile_cons_of_pos isPart]
        exact (List.drop_sublist _ rest).length_le
    | false =>
        have none : skipWhile isDigitPart ⟨point :: rest, mark⟩ = ⟨point :: rest, mark⟩ := by
          rw [skipWhile, List.takeWhile_cons_of_neg (by simp [isPart])]
          rfl
        have isDot : startsIn (·.is '.') (point :: rest) = true := by
          simp only [isDigitPart, Bool.or_eq_false_iff] at isPart
          simp only [startsNumber, isPart.1, Bool.false_or, Bool.and_eq_true] at starts
          exact starts.1
        rw [none, scanFraction, if_pos isDot]
        exact (digits_stay _).length_le

theorem scanName_stays (text : Text) (mark : Mark) : StaysOnLine ⟨text, mark⟩ (scanName text mark) := by
  fun_induction scanName text mark with
  | case1 rest mark induction => exact .past rfl (.past rfl induction)
  | case2 point rest mark _ isPart induction => exact .past (isLineEnd_of_isNamePart isPart) induction
  | case3 point rest mark => exact .refl _
  | case4 mark => exact .refl _

/-- A word begins with a part of a name. -/
theorem isNamePart_of_startsWord {point : CodePoint} (starts : startsWord point = true)
    (solid : isSkipped point = false) : isNamePart point = true := by
  simp only [isSkipped, isSpace, CodePoint.isOneOf, List.any_cons, Bool.or_eq_false_iff] at solid
  simp only [startsWord, isNameStart, Bool.or_eq_true, decide_eq_true_eq] at starts
  rcases starts with (isLetter | isMark) | isLarge
  · simp [isNamePart, CodePoint.isAlphanumeric, isLetter]
  · simp [isNamePart, isMark]
  · simp [isNamePart, CodePoint.isOneOf, isLarge, solid]

private theorem operators_within : ∀ entry ∈ TokenType.operators, Text.ofString entry.1 ≠ [] ∧
    ∀ point ∈ Text.ofString entry.1, point.isLineEnd = false := by
  decide

/-- The text of an operator is what it stays on its line for. -/
theorem scanOperator_stays {cursor : Cursor} {opened : List Opener} {result : Scanned}
    (scanned : scanOperator cursor opened = .ok result) :
    StaysOnLine cursor result.next ∧ result.text = textBetween cursor result.next ∧
      result.next.rest.length < cursor.rest.length := by
  unfold scanOperator at scanned
  dsimp only at scanned
  split at scanned
  case h_2 => cases scanned
  case h_1 spelling type found =>
    cases scanned
    have fits := List.find?_some found
    simp only [Bool.and_eq_true] at fits
    obtain ⟨more, isRest⟩ := List.isPrefixOf_iff_prefix.mp fits.1
    obtain ⟨notEmpty, within⟩ := operators_within _ (List.mem_of_find?_eq_some found)
    have isNext : (skip spelling.length cursor).rest = more := by
      rw [skip, ← isRest, ← TokenType.length_ofString, List.drop_left]
    refine ⟨⟨spelling, within, ?_, ?_⟩, ?_, ?_⟩
    · rw [isNext, isRest]
    · rw [TokenType.length_ofString]
      rfl
    · rw [textBetween, ← isRest, skip, Mark.offset_advance, Nat.add_sub_cancel_left,
        ← TokenType.length_ofString, List.take_left]
    · rw [isNext, ← isRest, List.length_append]
      exact Nat.lt_add_of_pos_left (List.length_pos_iff.mpr notEmpty)

/-! ### Tokens -/

/-- A text is that of a whole token: it has something and no line ends on either side of it. -/
structure Whole (text : Text) : Prop where
  notEmpty : text ≠ []
  first : ∀ point, text.head? = some point → point.isLineEnd = false
  last : ∀ point, text.getLast? = some point → point.isLineEnd = false

/-- A scanned token is what its cursor has gone over. -/
structure Reads (start : Cursor) (result : Scanned) : Prop where
  crosses : start.Crosses (result.type.written result.text) (result.type.missed result.text)
    result.next
  whole : Whole (result.type.written result.text)
  type : result.type ≠ .endOfInput

/-- The types of tokens whose text is written as it is and counts every line end. -/
def isPlain (type : TokenType) : Bool :=
  !([.wholeTemplate, .templateHead, .templateMiddle, .templateTail, .regex, .string,
    .endOfInput].contains type)

private theorem written_of_isPlain {type : TokenType} (plain : isPlain type = true) (text : Text) :
    type.written text = text ∧ type.missed text = 0 ∧ type ≠ .endOfInput := by
  cases type <;> first | (cases plain; done) | exact ⟨rfl, rfl, nofun⟩

/-- A token of a plain type within one line. -/
theorem reads_of_stays {start next : Cursor} {type : TokenType} (plain : isPlain type = true)
    (stays : StaysOnLine start next) (shorter : next.rest.length < start.rest.length)
    (opened : List Opener) : Reads start ⟨type, textBetween start next, next, opened⟩ := by
  obtain ⟨isWritten, noneMissed, notEnd⟩ := written_of_isPlain plain (textBetween start next)
  obtain ⟨stretch, within, crosses⟩ := stays.crosses
  have isText : textBetween start next = stretch := crosses.textBetween
  refine ⟨?_, ?_, notEnd⟩
  · rw [isWritten, noneMissed, isText]
    exact crosses
  · rw [isWritten, isText]
    refine ⟨?_, ?_, ?_⟩
    · rintro rfl
      rw [crosses.rest] at shorter
      exact Nat.lt_irrefl _ shorter
    · exact fun point isHead => within point (List.mem_of_head? isHead)
    · exact fun point isLast => within point (List.mem_of_getLast? isLast)

private theorem isPlain_of_isName {type : TokenType} (isName : type.isName) : isPlain type = true
    := by
  have plain : ∀ entry ∈ TokenType.keywords, isPlain entry.2 = true := by decide
  rcases Bool.or_eq_true_iff.mp isName with isIdent | isKeyword
  · cases eq_of_beq isIdent
    decide
  · obtain ⟨entry, there, same⟩ := List.any_eq_true.mp isKeyword
    exact eq_of_beq same ▸ plain entry there

theorem isPlain_wordType (previous : Option TokenType) (word : Text) :
    isPlain (wordType previous word) = true := by
  rw [wordType]
  split
  case isTrue => rfl
  case isFalse => exact isPlain_of_isName (isName_ofWord word)

theorem isPlain_scanOperator {cursor : Cursor} {opened : List Opener} {result : Scanned}
    (scanned : scanOperator cursor opened = .ok result) : isPlain result.type = true := by
  have plain : ∀ entry ∈ TokenType.operators, isPlain entry.2 = true := by decide
  unfold scanOperator at scanned
  dsimp only at scanned
  split at scanned
  case h_2 => cases scanned
  case h_1 spelling type found =>
    cases scanned
    exact plain _ (List.mem_of_find?_eq_some found)

/-- The pieces of a type stand between an opening code point and the delimiter of an ending. -/
structure Delimits (point : CodePoint) (ending : PieceEnd) (type : TokenType) : Prop where
  written : ∀ text, type.written text = point :: text ++ ending.closer
  missed : ∀ text, type.missed text = 0
  type : type ≠ .endOfInput

theorem delimits_wholeTemplate : Delimits (.char '\x60') .closed .wholeTemplate :=
  ⟨fun _ => rfl, fun _ => rfl, nofun⟩

theorem delimits_templateHead : Delimits (.char '\x60') .substitution .templateHead :=
  ⟨fun _ => rfl, fun _ => rfl, nofun⟩

theorem delimits_templateTail : Delimits (.char '\x7d') .closed .templateTail :=
  ⟨fun _ => rfl, fun _ => rfl, nofun⟩

theorem delimits_templateMiddle : Delimits (.char '\x7d') .substitution .templateMiddle :=
  ⟨fun _ => rfl, fun _ => rfl, nofun⟩

theorem whole_of_delimiters {point final : CodePoint} (solid : point.isLineEnd = false)
    (closed : final.isLineEnd = false) (body : Text) : Whole (point :: (body ++ [final])) := by
  refine ⟨List.cons_ne_nil _ _, ?_, ?_⟩
  · intro first isFirst
    cases isFirst
    exact solid
  · intro last isLast
    rw [← List.cons_append, List.getLast?_concat] at isLast
    cases isLast
    exact closed

theorem ends_append {first second : Text}
    (firstEnds : ∀ point, first.getLast? = some point → point.isLineEnd = false)
    (secondEnds : ∀ point, second.getLast? = some point → point.isLineEnd = false) :
    ∀ point, (first ++ second).getLast? = some point → point.isLineEnd = false := by
  intro point isLast
  rw [List.getLast?_append] at isLast
  cases ending : second.getLast? with
  | none =>
      rw [ending] at isLast
      exact firstEnds point isLast
  | some last =>
      rw [ending] at isLast
      cases isLast
      exact secondEnds point ending

theorem Whole.append {first second : Text} (whole : Whole first)
    (within : ∀ point ∈ second, point.isLineEnd = false) : Whole (first ++ second) := by
  refine ⟨List.append_ne_nil_of_left_ne_nil whole.notEmpty second, ?_, ?_⟩
  · intro point isHead
    rw [List.head?_append_of_ne_nil _ whole.notEmpty] at isHead
    exact whole.first point isHead
  · exact ends_append whole.last fun point isLast => within point (List.mem_of_getLast? isLast)

private theorem whole_piece {point : CodePoint} (solid : point.isLineEnd = false) (body : Text)
    (ending : PieceEnd) : Whole (point :: body ++ ending.closer) := by
  cases ending with
  | closed => exact whole_of_delimiters solid (by decide) body
  | substitution =>
      have isText : point :: body ++ PieceEnd.closer .substitution =
          point :: ((body ++ [.char '$']) ++ [.char '\x7b']) := by
        simp [PieceEnd.closer]
      rw [isText]
      exact whole_of_delimiters solid (by decide) _

theorem piece_reads {point : CodePoint} {rest body : Text} {mark : Mark} {ending : PieceEnd}
    {type : TokenType} {next : Cursor} (solid : point.isLineEnd = false)
    (delimits : Delimits point ending type)
    (crosses : Crosses ⟨rest, mark.advance 1⟩ (body ++ ending.closer) 0 next)
    (opened : List Opener) : Reads ⟨point :: rest, mark⟩ ⟨type, body, next, opened⟩ := by
  refine ⟨?_, ?_, delimits.type⟩
  · rw [delimits.written, delimits.missed]
    exact crosses.past solid
  · rw [delimits.written]
    exact whole_piece solid body ending

/-- A template piece after its opening delimiter. -/
theorem scanPiece_reads {opened : List Opener} {closed substitution : TokenType}
    {point : CodePoint} {rest : Text} {mark : Mark} {result : Scanned}
    (solid : point.isLineEnd = false) (closes : Delimits point .closed closed)
    (substitutes : Delimits point .substitution substitution)
    (scanned : scanPiece opened closed substitution ⟨point :: rest, mark⟩ = .ok result) :
    Reads ⟨point :: rest, mark⟩ result := by
  obtain ⟨⟨ending, stop, next⟩, isPiece, scanned⟩ := Calculation.of_bind_eq_ok scanned
  have isPiece : scanTemplate mark rest (mark.advance 1) = .ok (ending, stop, next) := isPiece
  obtain ⟨body, crosses⟩ := scanTemplate_crosses isPiece
  have isText : rest.take (stop - (mark.advance 1).offset) = body := by
    have isStop := scanTemplate_stop isPiece
    have isRest := crosses.rest
    have reached := crosses.offset
    rw [List.length_append] at reached
    have isSize : stop - (mark.advance 1).offset = body.length := by
      dsimp only at reached
      omega
    rw [isSize]
    dsimp only at isRest
    rw [isRest, List.append_assoc, List.take_left]
  cases ending with
  | closed =>
      cases scanned
      exact isText ▸ piece_reads solid closes crosses opened
  | substitution =>
      cases scanned
      exact isText ▸ piece_reads solid substitutes crosses _

/-- A string with its quotes. -/
theorem scanString_reads {quote : CodePoint} {rest : Text} {mark : Mark} {next : Cursor}
    (isQuote : isQuote quote = true) (scanned : scanString quote mark rest (mark.advance 1) = .ok next)
    (opened : List Opener) :
    Reads ⟨quote :: rest, mark⟩ ⟨.string, textBetween ⟨quote :: rest, mark⟩ next, next, opened⟩ := by
  have within : quote.isLineEnd = false := isLineEnd_of_isOneOf (by decide) isQuote
  have noEscape : quote ≠ .char '\\' := by
    rintro rfl
    cases isQuote
  obtain ⟨body, crosses⟩ := scanString_crosses within scanned
  have whole := crosses.past within
  have missed : bareSeparators (quote :: (body ++ [quote])) = bareSeparators (body ++ [quote]) := by
    rw [isLineEnd_eq, Bool.or_eq_false_iff] at within
    rw [bareSeparators_cons noEscape, within.2]
    rfl
  rw [whole.textBetween]
  refine ⟨?_, whole_of_delimiters within within body, nofun⟩
  show Crosses _ (quote :: (body ++ [quote])) (bareSeparators (quote :: (body ++ [quote]))) next
  rw [missed]
  exact whole

/-- A regular expression with its slashes and flags. -/
theorem scanRegex_reads {rest : Text} {mark : Mark} {closed : Cursor}
    (scanned : scanRegexBody mark false rest (mark.advance 1) = .ok closed) (opened : List Opener) :
    Reads ⟨.char '/' :: rest, mark⟩
      ⟨.regex, textBetween ⟨.char '/' :: rest, mark⟩ (skipWhile CodePoint.isLetter closed),
        skipWhile CodePoint.isLetter closed, opened⟩ := by
  obtain ⟨body, bodyCrosses⟩ := scanRegexBody_crosses scanned
  have stays : StaysOnLine closed (skipWhile CodePoint.isLetter closed) :=
    skipWhile_stays (by decide +kernel) closed
  obtain ⟨flags, within, flagsCross⟩ := stays.crosses
  have uncut : Uncut (.char '/' :: (body ++ [.char '/'])) flags := by
    refine .of_head fun isFeed => ?_
    cases within _ (List.mem_of_head? isFeed)
  have crosses := (bodyCrosses.unmarked (.of_within (by decide) rest)).trans flagsCross uncut
  have missed : lineEnds (.char '/' :: (body ++ [.char '/'])) + 0 =
      lineEnds (.char '/' :: (body ++ [.char '/']) ++ flags) := by
    rw [lineEnds_append uncut, lineEnds_of_forall within]
  rw [missed] at crosses
  rw [crosses.textBetween]
  have slash : (CodePoint.char '/').isLineEnd = false := by decide
  have whole := whole_of_delimiters slash slash body
  exact ⟨crosses, whole.append within, nofun⟩

/-- A scanned token is what its cursor has gone over. -/
theorem scanToken_reads {previous : Option TokenType} {opened : List Opener} {point : CodePoint}
    {rest : Text} {mark : Mark} {result : Scanned} (solid : isSkipped point = false)
    (scanned : scanToken previous opened ⟨point :: rest, mark⟩ = .ok result) :
    Reads ⟨point :: rest, mark⟩ result := by
  have within : point.isLineEnd = false := (Bool.or_eq_false_iff.mp solid).1
  unfold scanToken at scanned
  dsimp only at scanned
  split at scanned
  case isTrue isQuote =>
    obtain ⟨next, isNext, scanned⟩ := Calculation.of_bind_eq_ok scanned
    cases scanned
    exact scanString_reads isQuote isNext opened
  split at scanned
  case isTrue isTick =>
    cases eq_of_beq isTick
    exact scanPiece_reads within delimits_wholeTemplate delimits_templateHead scanned
  split at scanned
  case isTrue starts =>
    obtain ⟨⟨type, next⟩, isNumber, scanned⟩ := Calculation.of_bind_eq_ok scanned
    cases scanned
    have plain : isPlain type = true := by
      rcases scanNumber_type isNumber with rfl | rfl <;> rfl
    have stays := scanNumber_stays isNumber
    refine reads_of_stays plain ((scanDigits_stays _).trans stays) ?_ opened
    exact Nat.lt_succ_of_le (stays.length_le.trans (scanDigits_shorter starts mark))
  split at scanned
  case isTrue starts =>
    cases scanned
    have isPart := isNamePart_of_startsWord starts solid
    refine reads_of_stays (isPlain_wordType _ _) (scanName_stays _ mark) ?_ opened
    rw [scanName_part isPart]
    exact Nat.lt_succ_of_le (scanName_stays rest _).length_le
  split at scanned
  case isTrue =>
    cases scanned
    have stays := scanName_stays rest (mark.advance 1)
    exact reads_of_stays rfl (stays.past within) (Nat.lt_succ_of_le stays.length_le) opened
  split at scanned
  case isTrue isRegex =>
    obtain ⟨closed, isClosed, scanned⟩ := Calculation.of_bind_eq_ok scanned
    cases scanned
    cases eq_of_beq (Bool.and_eq_true_iff.mp isRegex).1
    exact scanRegex_reads isClosed opened
  split at scanned
  case isTrue isBrace =>
    cases eq_of_beq (Bool.and_eq_true_iff.mp isBrace).1
    exact scanPiece_reads within delimits_templateTail delimits_templateMiddle scanned
  case isFalse =>
    obtain ⟨stays, isText, shorter⟩ := scanOperator_stays scanned
    have reads := reads_of_stays (isPlain_scanOperator scanned) stays shorter result.openers
    rw [← isText] at reads
    exact reads

end Lexer

end ScriptFold
