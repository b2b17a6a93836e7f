import ScriptFold.Token.Lexer

/-!
# Entries at the prompt

An entry is what is typed at one prompt.  Enter submits it when nothing is left
open, and starts a new line otherwise.
-/

namespace ScriptFold

namespace Entry

def isOpening (type : TokenType) : Bool :=
  [TokenType.openParen, .openBracket, .openBrace].contains type

def isClosing (type : TokenType) : Bool :=
  [TokenType.closeParen, .closeBracket, .closeBrace].contains type

/-- The level after a token; a closing bracket too many is ignored. -/
def depthAfter (depth : Nat) (token : Token) : Nat :=
  if isOpening token.type then depth + 1
  else if isClosing token.type then depth - 1
  else depth

/-- How many brackets an entry leaves open.  An entry without tokens of its own, such
as one with an unterminated literal, counts as one level open. -/
def openDepth (text : Text) : Nat :=
  match tokenize text with
  | .ok tokens => tokens.foldl depthAfter 0
  | .error _ => 1

/-- The indentation of the next line: two spaces for each open level. -/
def indentation (text : Text) : Text :=
  List.replicate (2 * openDepth text) (.char ' ')

/-- Code points that cannot be seen. -/
def isInvisible (point : CodePoint) : Bool :=
  point.isOneOf ['\u200b', '\u200c', '\u200d', '\ufeff', '\u00a0', '\r']

/-- An entry without the code points that cannot be seen. -/
def clean (text : Text) : Text :=
  text.filter fun point => !isInvisible point

def isCommand (text : Text) : Bool :=
  text.head?.any (·.is '/')

end Entry

/-- The text being typed, and whether completions have been offered for it. -/
structure Buffer where
  text : Text := []
  completing : Bool := false

namespace Buffer

def type (typed : Text) (buffer : Buffer) : Buffer :=
  { buffer with text := buffer.text ++ typed }

/-- Erase the last code point.  If a command is left, completions are offered. -/
def backspace (buffer : Buffer) : Buffer :=
  let text := buffer.text.dropLast
  ⟨text, buffer.completing || Entry.isCommand text⟩

def erase : Nat → Buffer → Buffer
  | 0, buffer => buffer
  | count + 1, buffer => erase count buffer.backspace

/-- Whether Enter submits the text. -/
def isComplete (buffer : Buffer) : Bool :=
  Entry.isCommand buffer.text || Entry.openDepth buffer.text == 0

/-- Start a new line with its indentation. -/
def breakLine (buffer : Buffer) : Buffer :=
  buffer.type (.char '\n' :: Entry.indentation buffer.text)

end Buffer

end ScriptFold
