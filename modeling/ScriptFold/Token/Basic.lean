import ScriptFold.Token.Type

/-!
# Tokens

A token is a stretch of the script: its type, its text and where it stands.
-/

namespace ScriptFold

/-- A place in a text: an offset with its line and column.  Offsets count from
zero, lines and columns from one. -/
structure Mark where
  offset : Nat
  line : Nat
  column : Nat
  deriving DecidableEq, Repr, Inhabited

namespace Mark

def start : Mark := ⟨0, 1, 1⟩

/-- The mark `count` code points further on in the same line. -/
def advance (mark : Mark) (count : Nat) : Mark :=
  ⟨mark.offset + count, mark.line, mark.column + count⟩

/-- The mark after a line break of `count` code points. -/
def newline (mark : Mark) (count : Nat) : Mark :=
  ⟨mark.offset + count, mark.line + 1, 1⟩

end Mark

structure Token where
  type : TokenType
  /-- The text of the token; for a template piece, without its delimiters. -/
  text : Text
  mark : Mark
  /-- The offset just past the token. -/
  stop : Nat
  /-- Whether a line ends after the token before this one, be it between the two
  or inside this one. -/
  newlineBefore : Bool
  deriving DecidableEq, Inhabited

namespace Token

/-- The line of the first code point. -/
def line (token : Token) : Nat := token.mark.line

/-- The column of the first code point. -/
def column (token : Token) : Nat := token.mark.column

/-- The offset of the first code point. -/
def start (token : Token) : Nat := token.mark.offset

/-- The column just past the token, counted as if it stood in one line. -/
def endColumn (token : Token) : Nat := token.column + (token.stop - token.start)

/-- Whether the token is the name `name`. -/
def isNamed (token : Token) (name : String) : Bool :=
  token.type == .ident && token.text.isString name

end Token

/-- Why a text cannot be divided into tokens. -/
inductive LexicalError where
  | unterminatedComment
  | unterminatedString
  | unterminatedTemplate
  | unterminatedRegex
  | identifierAfterNumber
  | unexpectedCharacter (point : CodePoint)
  deriving DecidableEq

/-- The wording of a lexical error, without its position. -/
def LexicalError.message : LexicalError → String
  | .unterminatedComment => "Unterminated comment"
  | .unterminatedString => "Unterminated string"
  | .unterminatedTemplate => "Unterminated template literal"
  | .unterminatedRegex => "Unterminated regex"
  | .identifierAfterNumber => "Identifier directly after number"
  | .unexpectedCharacter point => "Unexpected character '" ++ point.toChar.toString ++ "'"

/-- A lexical error and where it stands. -/
structure LexicalFailure where
  cause : LexicalError
  mark : Mark
  deriving DecidableEq

end ScriptFold
