import ScriptFold.Text.Digit
import ScriptFold.Token.Basic

/-!
# Dividing a script into tokens

Each scanner walks the remaining code points and says where the next token ends.
A closing brace ends either a block or a template substitution; a stack of the
open ones tells the two apart.  A slash starts a regular expression unless the
token before it ends a value.
-/

namespace ScriptFold

/-- What is left of a text, and the mark of its first code point. -/
structure Cursor where
  rest : Text
  mark : Mark

def CodePoint.isLineEnd (point : CodePoint) : Bool :=
  point.isOneOf ['\n', '\r', '\u2028', '\u2029']

namespace Lexer

/-- Blanks that separate tokens within a line. -/
def isSpace (point : CodePoint) : Bool :=
  point.isOneOf [' ', '\t', '\x0b', '\x0c', '\u00a0', '\ufeff']

/-- What stands between two tokens. -/
inductive Trivia where
  | between
  | lineComment
  /-- A block comment, with the mark of its first code point. -/
  | blockComment (opened : Mark)

/-- Skip blanks, line ends and comments.  Gives the cursor at the next token and
whether a line ended on the way. -/
def skipTrivia : Trivia → Text → Mark → Bool → Except LexicalFailure (Cursor × Bool)
  | .blockComment opened, [], _, _ => .error ⟨.unterminatedComment, opened⟩
  | _, [], mark, newline => .ok (⟨[], mark⟩, newline)
  | .between, .char '/' :: .char '/' :: rest, mark, newline =>
      skipTrivia .lineComment rest (mark.advance 2) newline
  | .between, .char '/' :: .char '*' :: rest, mark, newline =>
      skipTrivia (.blockComment mark) rest (mark.advance 2) newline
  | .blockComment opened, .char '*' :: .char '/' :: rest, mark, newline =>
      let _ := opened
      skipTrivia .between rest (mark.advance 2) newline
  | .between, .char '\r' :: .char '\n' :: rest, mark, _ =>
      skipTrivia .between rest (mark.newline 2) true
  | .lineComment, .char '\r' :: .char '\n' :: rest, mark, _ =>
      skipTrivia .between rest (mark.newline 2) true
  | .blockComment opened, .char '\r' :: .char '\n' :: rest, mark, _ =>
      skipTrivia (.blockComment opened) rest (mark.newline 2) true
  | .between, point :: rest, mark, newline =>
      if point.isLineEnd then skipTrivia .between rest (mark.newline 1) true
      else if isSpace point then skipTrivia .between rest (mark.advance 1) newline
      else .ok (⟨point :: rest, mark⟩, newline)
  | .lineComment, point :: rest, mark, newline =>
      if point.isLineEnd then skipTrivia .between rest (mark.newline 1) true
      else skipTrivia .lineComment rest (mark.advance 1) newline
  | .blockComment opened, point :: rest, mark, newline =>
      if point.isLineEnd then skipTrivia (.blockComment opened) rest (mark.newline 1) true
      else skipTrivia (.blockComment opened) rest (mark.advance 1) newline

/-- The cursor after the closing quote of a string whose opening quote is read. -/
def scanString (quote : CodePoint) (opened : Mark) :
    Text → Mark → Except LexicalFailure Cursor
  | [], _ => .error ⟨.unterminatedString, opened⟩
  | .char '\\' :: .char '\r' :: .char '\n' :: rest, mark =>
      scanString quote opened rest ((mark.advance 1).newline 2)
  | .char '\\' :: point :: rest, mark =>
      if point.isLineEnd then scanString quote opened rest ((mark.advance 1).newline 1)
      else scanString quote opened rest (mark.advance 2)
  | point :: rest, mark =>
      if point = quote then .ok ⟨rest, mark.advance 1⟩
      else if point.isOneOf ['\n', '\r'] then .error ⟨.unterminatedString, opened⟩
      else scanString quote opened rest (mark.advance 1)

/-- How a template piece ends: at the closing backtick or at a substitution. -/
inductive PieceEnd where
  | closed
  | substitution
  deriving DecidableEq

/-- Scan a template piece whose opening delimiter is read.  Gives how it ends, the
offset where its text ends and the cursor after its closing delimiter. -/
def scanTemplate (opened : Mark) :
    Text → Mark → Except LexicalFailure (PieceEnd × Nat × Cursor)
  | [], _ => .error ⟨.unterminatedTemplate, opened⟩
  | .char '\\' :: .char '\r' :: .char '\n' :: rest, mark =>
      scanTemplate opened rest ((mark.advance 1).newline 2)
  | .char '\\' :: point :: rest, mark =>
      if point.isLineEnd then scanTemplate opened rest ((mark.advance 1).newline 1)
      else scanTemplate opened rest (mark.advance 2)
  | .char '\x60' :: rest, mark => .ok (.closed, mark.offset, ⟨rest, mark.advance 1⟩)
  | .char '$' :: .char '\x7b' :: rest, mark =>
      .ok (.substitution, mark.offset, ⟨rest, mark.advance 2⟩)
  | .char '\r' :: .char '\n' :: rest, mark => scanTemplate opened rest (mark.newline 2)
  | point :: rest, mark =>
      if point.isLineEnd then scanTemplate opened rest (mark.newline 1)
      else scanTemplate opened rest (mark.advance 1)

/-- The cursor after the closing slash of a regular expression whose opening slash is read. -/
def scanRegexBody (opened : Mark) : (inClass : Bool) → Text → Mark → Except LexicalFailure Cursor
  | _, [], _ => .error ⟨.unterminatedRegex, opened⟩
  | inClass, .char '\\' :: _ :: rest, mark => scanRegexBody opened inClass rest (mark.advance 2)
  | inClass, point :: rest, mark =>
      if point.isLineEnd then .error ⟨.unterminatedRegex, opened⟩
      else if point.is '/' && !inClass then .ok ⟨rest, mark.advance 1⟩
      else if point.is '[' then scanRegexBody opened true rest (mark.advance 1)
      else if point.is ']' then scanRegexBody opened false rest (mark.advance 1)
      else scanRegexBody opened inClass rest (mark.advance 1)

/-- Move a cursor past the leading code points of a class. -/
def skipWhile (inClass : CodePoint → Bool) (cursor : Cursor) : Cursor :=
  let taken := cursor.rest.takeWhile inClass
  ⟨cursor.rest.drop taken.length, cursor.mark.advance taken.length⟩

/-- Move a cursor by some code points of the same line. -/
def skip (count : Nat) (cursor : Cursor) : Cursor :=
  ⟨cursor.rest.drop count, cursor.mark.advance count⟩

/-- Digits and the underscores between them. -/
def isDigitPart (point : CodePoint) : Bool :=
  point.isDigit || point.is '_'

/-- Whether the first code point of a text is in a class. -/
def startsIn (inClass : CodePoint → Bool) (text : Text) : Bool :=
  text.head?.any inClass

/-- Code points that begin a name. -/
def isNameStart (point : CodePoint) : Bool :=
  point.isLetter || point.isOneOf ['_', '$']

/-- Code points that continue a name. -/
def isNamePart (point : CodePoint) : Bool :=
  point.isAlphanumeric || point.isOneOf ['_', '$']
    || (127 < point.toNat && !point.isLineEnd && !point.isOneOf ['\u00a0', '\ufeff'])

/-- The digits of a number with a base mark: letters and numerals up to an `n`. -/
def scanMarkedDigits (cursor : Cursor) : Cursor :=
  skipWhile (fun point => (point.isAlphanumeric || point.is '_') && !point.is 'n') cursor

def scanFraction (cursor : Cursor) : Cursor :=
  if startsIn (·.is '.') cursor.rest then skipWhile isDigitPart (skip 1 cursor) else cursor

/-- The exponent of a decimal, if digits follow its mark. -/
def scanExponent (cursor : Cursor) : Cursor :=
  match cursor.rest with
  | mark :: rest =>
      if mark.isOneOf ['e', 'E'] then
        let width := if startsIn (·.isOneOf ['+', '-']) rest then 2 else 1
        if startsIn CodePoint.isDigit (cursor.rest.drop width) then
          skipWhile isDigitPart (skip width cursor)
        else cursor
      else cursor
  | [] => cursor

/-- The cursor after the digits, fraction and exponent of a number. -/
def scanDigits (cursor : Cursor) : Cursor :=
  match cursor.rest with
  | .char '0' :: mark :: _ =>
      if mark.isOneOf ['x', 'X', 'o', 'O', 'b', 'B'] then scanMarkedDigits (skip 2 cursor)
      else scanExponent (scanFraction (skipWhile isDigitPart cursor))
  | _ => scanExponent (scanFraction (skipWhile isDigitPart cursor))

/-- The type of a number and the cursor after it. -/
def scanNumber (cursor : Cursor) : Except LexicalFailure (TokenType × Cursor) :=
  let stop := scanDigits cursor
  if startsIn (·.is 'n') stop.rest then .ok (.bigint, skip 1 stop)
  else if startsIn isNameStart stop.rest then .error ⟨.identifierAfterNumber, stop.mark⟩
  else .ok (.number, stop)

/-- The cursor after a name; an escape `\u` is part of it. -/
def scanName : Text → Mark → Cursor
  | .char '\\' :: .char 'u' :: rest, mark => scanName rest (mark.advance 2)
  | point :: rest, mark =>
      if isNamePart point then scanName rest (mark.advance 1) else ⟨point :: rest, mark⟩
  | [], mark => ⟨[], mark⟩

/-- An open brace, or an open template substitution. -/
inductive Opener where
  | brace
  | substitution
  deriving DecidableEq, Repr

/-- A scanned token and what it leaves behind. -/
structure Scanned where
  type : TokenType
  text : Text
  next : Cursor
  openers : List Opener

/-- The operator at a cursor.  A question mark and a dot before a digit are two tokens. -/
def scanOperator (cursor : Cursor) (opened : List Opener) : Except LexicalFailure Scanned :=
  let fits (entry : String × TokenType) : Bool :=
    cursor.rest.startsWith entry.1
      && !(entry.2 == .optionalDot && startsIn CodePoint.isDigit (cursor.rest.drop 2))
  match TokenType.operators.find? fits with
  | some (spelling, type) =>
      let opened :=
        match type with
        | .openBrace => .brace :: opened
        | .closeBrace => opened.tail
        | _ => opened
      .ok ⟨type, spelling, skip spelling.length cursor, opened⟩
  | none =>
      .error ⟨.unexpectedCharacter (cursor.rest.headD (.char '\x00')), cursor.mark⟩

/-- The code points between two cursors of one text. -/
def textBetween (start stop : Cursor) : Text :=
  start.rest.take (stop.mark.offset - start.mark.offset)

/-- A template piece, after its opening delimiter. -/
def scanPiece (opened : List Opener) (closed substitution : TokenType) (start : Cursor) :
    Except LexicalFailure Scanned := do
  let body := skip 1 start
  let (ending, stop, next) ← scanTemplate start.mark body.rest body.mark
  let text := body.rest.take (stop - body.mark.offset)
  match ending with
  | .closed => return ⟨closed, text, next, opened⟩
  | .substitution => return ⟨substitution, text, next, .substitution :: opened⟩

/-- The type of a word after the token before it: property names may be reserved words. -/
def wordType (previous : Option TokenType) (word : Text) : TokenType :=
  if previous = some .dot ∨ previous = some .optionalDot then .ident else .ofWord word

/-- The token at a cursor that has something left. -/
def scanToken (previous : Option TokenType) (opened : List Opener) (start : Cursor) :
    Except LexicalFailure Scanned :=
  match start.rest with
  | [] => .error ⟨.unexpectedCharacter (.char '\x00'), start.mark⟩
  | point :: rest =>
      if point.isOneOf ['"', '\x27'] then do
        let next ← scanString point start.mark rest (start.mark.advance 1)
        return ⟨.string, textBetween start next, next, opened⟩
      else if point.is '\x60' then
        scanPiece opened .wholeTemplate .templateHead start
      else if point.isDigit || (point.is '.' && startsIn CodePoint.isDigit rest) then do
        let (type, next) ← scanNumber start
        return ⟨type, textBetween start next, next, opened⟩
      else if isNameStart point || 127 < point.toNat then
        let next := scanName start.rest start.mark
        let word := textBetween start next
        return ⟨wordType previous word, word, next, opened⟩
      else if point.is '#' && startsIn isNameStart rest then
        let next := scanName rest (start.mark.advance 1)
        return ⟨.privateName, textBetween start next, next, opened⟩
      else if point.is '/' && !previous.any TokenType.endsValue then do
        let closed ← scanRegexBody start.mark false rest (start.mark.advance 1)
        let next := skipWhile CodePoint.isLetter closed
        return ⟨.regex, textBetween start next, next, opened⟩
      else if point.is '\x7d' && opened.head? == some .substitution then
        scanPiece opened.tail .templateTail .templateMiddle start
      else
        scanOperator start opened

/-- The tokens from a cursor on.  Every token has at least one code point, so a
budget of one more than the code points left is never used up. -/
def tokensFrom (previous : Option TokenType) (opened : List Opener) :
    (budget : Nat) → Cursor → Except LexicalFailure (List Token)
  | 0, cursor => .ok [⟨.endOfInput, [], cursor.mark, cursor.mark.offset, false⟩]
  | budget + 1, cursor => do
      let (start, newline) ← skipTrivia .between cursor.rest cursor.mark false
      if start.rest.isEmpty then
        return [⟨.endOfInput, [], start.mark, start.mark.offset, newline⟩]
      let scanned ← scanToken previous opened start
      let stop := scanned.next.mark
      let token : Token :=
        ⟨scanned.type, scanned.text, start.mark, stop.offset,
          newline || start.mark.line < stop.line⟩
      let rest ← tokensFrom (some scanned.type) scanned.openers budget scanned.next
      return token :: rest

end Lexer

/-- The tokens of a text; the last one marks the end of input. -/
def tokenize (text : Text) : Except LexicalFailure (List Token) :=
  Lexer.tokensFrom none [] (text.length + 1) ⟨text, .start⟩

end ScriptFold
