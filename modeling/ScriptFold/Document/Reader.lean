import ScriptFold.Number.Numeral
import ScriptFold.Value.Basic

/-!
# Reading value documents

A document is one JSON value.  Its grammar is the usual one with three more words,
`NaN`, `Infinity` and `-Infinity`.  A numeral without a fraction and an exponent is
an integer, every other one a double.  An object keeps the order of its names; a
name that stands twice keeps its first place and its last value.

Every reader takes the rest of the document with its offset and gives what it read
with what it left.
-/

namespace ScriptFold

namespace Document

/-- Why a document cannot be read. -/
inductive ReadError where
  | byteOrderMark
  | expectedValue
  | expectedName
  | expectedColon
  | expectedComma
  | extraData
  | controlCharacter
  | unterminatedString
  | unknownEscape
  | badUnitEscape
  deriving DecidableEq, Repr

/-- The wording of a read error, without its place. -/
def ReadError.message : ReadError → String
  | .byteOrderMark => "Unexpected UTF-8 BOM (decode using utf-8-sig)"
  | .expectedValue => "Expecting value"
  | .expectedName => "Expecting property name enclosed in double quotes"
  | .expectedColon => "Expecting ':' delimiter"
  | .expectedComma => "Expecting ',' delimiter"
  | .extraData => "Extra data"
  | .controlCharacter => "Invalid control character at"
  | .unterminatedString => "Unterminated string starting at"
  | .unknownEscape => "Invalid \\escape"
  | .badUnitEscape => "Invalid \\uXXXX escape"

inductive ReadFailure where
  /-- An error at an offset. -/
  | at (cause : ReadError) (offset : Nat)
  /-- An integer with more digits than are read. -/
  | integerTooLong (digits : Nat)
  /-- Arrays and objects inside each other, beyond what the stack holds. -/
  | tooDeep
  deriving DecidableEq, Repr

namespace ReadFailure

/-- The line of an offset, counted from one. -/
def lineOf (document : Text) (offset : Nat) : Nat :=
  (document.take offset).countP (·.is '\n') + 1

/-- The column of an offset, counted from one. -/
def columnOf (document : Text) (offset : Nat) : Nat :=
  ((document.take offset).reverse.takeWhile fun point => !point.is '\n').length + 1

/-- The wording of a failure to read a document. -/
def message (document : Text) : ReadFailure → String
  | .at cause offset =>
      cause.message ++ ": line " ++ digitsOf (lineOf document offset)
        ++ " column " ++ digitsOf (columnOf document offset)
        ++ " (char " ++ digitsOf offset ++ ")"
  | .integerTooLong digits =>
      "Exceeds the limit (" ++ digitsOf Numeral.greatestDecimalWidth
        ++ " digits) for integer string conversion: value has " ++ digitsOf digits
        ++ " digits; use sys.set_int_max_str_digits() to increase the limit"
  | .tooDeep => "maximum recursion depth exceeded"

end ReadFailure

/-- The rest of a document, and the offset where it starts. -/
structure Position where
  rest : Text
  offset : Nat

namespace Position

/-- The position some code points further on. -/
def skip (position : Position) (count : Nat) : Position :=
  ⟨position.rest.drop count, position.offset + count⟩

def skipBlanks (position : Position) : Position :=
  position.skip (position.rest.takeWhile (·.isOneOf [' ', '\t', '\n', '\r'])).length

/-- Whether a character stands here. -/
def startsWith (position : Position) (c : Char) : Bool :=
  position.rest.head?.any (·.is c)

/-- Stop here. -/
def fail {α : Type} (position : Position) (cause : ReadError) : Except ReadFailure α :=
  .error (.at cause position.offset)

end Position

def hexValue? (point : CodePoint) : Option Nat :=
  let n := point.toNat
  if 0x30 ≤ n ∧ n ≤ 0x39 then some (n - 0x30)
  else if 0x41 ≤ n ∧ n ≤ 0x46 then some (n - 0x41 + 10)
  else if 0x61 ≤ n ∧ n ≤ 0x66 then some (n - 0x61 + 10)
  else none

/-- The code point of a 16-bit unit written with four digits. -/
def unit? (digits : Text) : Option CodePoint := do
  let values ← digits.mapM hexValue?
  CodePoint.ofNat? (Numeral.ofDigits 16 values)

/-- The characters that stand for themselves or for a control after a backslash. -/
def escapes : List (Char × Char) :=
  [('"', '"'), ('\\', '\\'), ('/', '/'), ('b', '\x08'), ('f', '\x0c'), ('n', '\n'),
    ('r', '\r'), ('t', '\t')]

/-- What a code point after a backslash stands for. -/
def escape? (point : CodePoint) : Option CodePoint :=
  (escapes.find? fun entry => point.is entry.1).map fun entry => .char entry.2

/-- The code points up to the closing quote of a string, after the escapes and before
the halves are joined.  Four digits of an escape are never the end of a document. -/
def readPoints (opened : Nat) : Text → (offset : Nat) → Except ReadFailure (Text × Position)
  | [], _ => .error (.at .unterminatedString opened)
  | .char '"' :: rest, offset => .ok ([], ⟨rest, offset + 1⟩)
  | .char '\\' :: .char 'u' :: a :: b :: c :: d :: next :: rest, offset =>
      match unit? [a, b, c, d] with
      | none => .error (.at .badUnitEscape (offset + 1))
      | some point => do
          let (points, position) ← readPoints opened (next :: rest) (offset + 6)
          return (point :: points, position)
  | .char '\\' :: .char 'u' :: _, offset => .error (.at .badUnitEscape (offset + 1))
  | .char '\\' :: point :: rest, offset =>
      match escape? point with
      | none => .error (.at .unknownEscape offset)
      | some meant => do
          let (points, position) ← readPoints opened rest (offset + 2)
          return (meant :: points, position)
  | point :: rest, offset =>
      if point.is '\\' then .error (.at .unterminatedString opened)
      else if point.toNat ≤ 0x1F then .error (.at .controlCharacter offset)
      else do
        let (points, position) ← readPoints opened rest (offset + 1)
        return (point :: points, position)

/-- Join each first half with a second half right after it. -/
def joinHalves : Text → Text
  | .half first :: .half second :: rest =>
      if first.val < 0x400 ∧ 0x400 ≤ second.val then
        .char (Char.ofNat (0x10000 + first.val * 0x400 + (second.val - 0x400))) :: joinHalves rest
      else
        .half first :: joinHalves (.half second :: rest)
  | point :: rest => point :: joinHalves rest
  | [] => []

/-- A string; the position is that of its opening quote. -/
def readString (position : Position) : Except ReadFailure (Text × Position) := do
  let (points, next) ← readPoints position.offset (position.rest.drop 1) (position.offset + 1)
  return (joinHalves points, next)

def isDigit (point : CodePoint) : Bool :=
  0x30 ≤ point.toNat && point.toNat ≤ 0x39

/-- The length of the digits at the front of a text. -/
def digitsLength (text : Text) : Nat :=
  (text.takeWhile isDigit).length

/-- The length of a whole part: a zero, or digits that do not begin with one. -/
def wholeLength (text : Text) : Nat :=
  if text.head?.any (·.is '0') then 1 else digitsLength text

/-- The length of a fraction: nothing, or a point and digits. -/
def fractionLength : Text → Nat
  | .char '.' :: rest => if digitsLength rest = 0 then 0 else digitsLength rest + 1
  | _ => 0

/-- The length of an exponent: nothing, or its mark, a sign that may be left out, and digits. -/
def exponentLength : Text → Nat
  | mark :: rest =>
      if mark.isOneOf ['e', 'E'] then
        let signLength := if rest.head?.any (·.isOneOf ['+', '-']) then 1 else 0
        let digits := digitsLength (rest.drop signLength)
        if digits = 0 then 0 else 1 + signLength + digits
      else 0
  | [] => 0

/-- A numeral. -/
def readNumber (position : Position) : Except ReadFailure (Value × Position) :=
  let text := position.rest
  let signLength := if position.startsWith '-' then 1 else 0
  let whole := wholeLength (text.drop signLength)
  let wholeEnd := signLength + whole
  let fraction := fractionLength (text.drop wholeEnd)
  let exponent := exponentLength (text.drop (wholeEnd + fraction))
  let stop := wholeEnd + fraction + exponent
  if whole = 0 then position.fail .expectedValue
  else if fraction + exponent = 0 then
    match Numeral.integer? 10 (text.take stop) with
    | some n => .ok (.int n, position.skip stop)
    | none => .error (.integerTooLong whole)
  else
    match Numeral.decimal? (text.take stop) with
    | some x => .ok (.float x, position.skip stop)
    | none => position.fail .expectedValue

def words : List (String × Value) :=
  [("null", .null), ("true", .bool true), ("false", .bool false), ("NaN", .float .nan),
    ("Infinity", .float (.infinity false)), ("-Infinity", .float (.infinity true))]

/-- A word or a numeral. -/
def readAtom (position : Position) : Except ReadFailure (Value × Position) :=
  match words.find? fun entry => Text.startsWith position.rest entry.1 with
  | some (word, value) => .ok (value, position.skip word.length)
  | none => readNumber position

def readName (position : Position) : Except ReadFailure (Text × Position) := do
  if !position.startsWith '"' then position.fail .expectedName
  else
    let (name, next) ← readString position
    let colon := next.skipBlanks
    if colon.startsWith ':' then return (name, (colon.skip 1).skipBlanks)
    else colon.fail .expectedColon

/-- What follows an item: the end of its collection, or a comma and another item. -/
def readSeparator (closing : Char) (position : Position) : Except ReadFailure (Bool × Position) :=
  let here := position.skipBlanks
  if here.startsWith closing then .ok (true, here.skip 1)
  else if here.startsWith ',' then .ok (false, (here.skip 1).skipBlanks)
  else here.fail .expectedComma

mutual

/-- A value.  Each value and each item uses one step of the budget; an array and an object use
one of the levels to which they may lie inside each other. -/
def readValue :
    (levels budget : Nat) → Position → Except ReadFailure (Value × Position)
  | _, 0, position => position.fail .expectedValue
  | levels, budget + 1, position =>
      if position.startsWith '"' then do
        let (text, next) ← readString position
        return (.str text, next)
      else if position.startsWith '[' then
        match levels with
        | 0 => .error .tooDeep
        | levels + 1 => do
            let first := (position.skip 1).skipBlanks
            if first.startsWith ']' then return (.list [], first.skip 1)
            let (items, next) ← readItems levels budget first
            return (.list items, next)
      else if position.startsWith '\x7b' then
        match levels with
        | 0 => .error .tooDeep
        | levels + 1 => do
            let first := (position.skip 1).skipBlanks
            if first.startsWith '\x7d' then return (.record [], first.skip 1)
            let (entries, next) ← readEntries levels budget first
            return (.recordOf entries, next)
      else
        readAtom position

/-- The items of an array that has some, and its closing bracket. -/
def readItems :
    (levels budget : Nat) → Position → Except ReadFailure (List Value × Position)
  | _, 0, position => position.fail .expectedValue
  | levels, budget + 1, position => do
      let (item, next) ← readValue levels budget position
      let (closed, next) ← readSeparator ']' next
      if closed then return ([item], next)
      let (items, next) ← readItems levels budget next
      return (item :: items, next)

/-- The entries of an object that has some, and its closing brace. -/
def readEntries :
    (levels budget : Nat) → Position →
      Except ReadFailure (List (Value × Value) × Position)
  | _, 0, position => position.fail .expectedName
  | levels, budget + 1, position => do
      let (name, next) ← readName position
      let (value, next) ← readValue levels budget next
      let (closed, next) ← readSeparator '\x7d' next
      if closed then return ([(.str name, value)], next)
      let (entries, next) ← readEntries levels budget next
      return ((.str name, value) :: entries, next)

end

/-- The value of a document, in which arrays and objects may lie inside each other as deep as
the stack is high.  Every value and every item has a code point of its own, so a budget of two
steps for each code point is never used up. -/
def read (document : Text) (levels : Nat := Stack.limit) : Except ReadFailure Value := do
  if document.head?.any (·.is '\ufeff') then throw (.at .byteOrderMark 0)
  let (value, next) ←
    readValue levels (2 * document.length + 2) (Position.skipBlanks ⟨document, 0⟩)
  let rest := next.skipBlanks
  if rest.rest.isEmpty then return value else rest.fail .extraData

end Document

end ScriptFold
