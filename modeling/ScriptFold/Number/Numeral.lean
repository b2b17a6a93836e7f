import ScriptFold.Number.Basic
import ScriptFold.Text.Digit

/-!
# Numerals

Reading integers in a base and decimals.  Digits of every script count by their
place value.  A numeral may stand between blanks, may have a sign, and single
underscores may separate its digits.
-/

namespace ScriptFold

namespace Numeral

/-- Blanks around a numeral: all blanks but the four information separators. -/
def isMargin (point : CodePoint) : Bool :=
  point.isBlank && !(0x1C ≤ point.toNat && point.toNat ≤ 0x1F)

/-- The value of a digit: a decimal digit, or a letter counted from ten. -/
def digitValue? (point : CodePoint) : Option Nat :=
  let n := point.toNat
  if 0x61 ≤ n ∧ n ≤ 0x7A then some (n - 0x61 + 10)
  else if 0x41 ≤ n ∧ n ≤ 0x5A then some (n - 0x41 + 10)
  else point.decimalValue?

/-- The values of a run of digits below `base`, which single underscores may separate. -/
def digits? (base : Nat) : Text → Option (List Nat)
  | [] => none
  | point :: rest => do
      let digit ← digitValue? point
      guard (digit < base)
      match rest with
      | [] => some [digit]
      | .char '_' :: more => (digits? base more).map (digit :: ·)
      | next :: more => (digits? base (next :: more)).map (digit :: ·)

/-- The number with these digits, most significant first. -/
def ofDigits (base : Nat) (digits : List Nat) : Nat :=
  digits.foldl (fun value digit => value * base + digit) 0

/-- The base named by a letter after a leading zero. -/
def baseOf? (point : CodePoint) : Option Nat :=
  if point.isOneOf ['x', 'X'] then some 16
  else if point.isOneOf ['o', 'O'] then some 8
  else if point.isOneOf ['b', 'B'] then some 2
  else none

/-- A base mark `0x`, `0o` or `0b` at the front, with what follows it. -/
def baseMark? : Text → Option (Nat × Text)
  | .char '0' :: mark :: rest => (baseOf? mark).map fun base => (base, rest)
  | _ => none

/-- An underscore may follow a base mark. -/
def afterMark : Text → Text
  | .char '_' :: rest => rest
  | rest => rest

/-- Split off a sign: whether it is a minus, and what follows. -/
def splitSign : Text → Bool × Text
  | .char '-' :: rest => (true, rest)
  | .char '+' :: rest => (false, rest)
  | rest => (false, rest)

/-- The longest run of decimal digits that is read as an integer. -/
def greatestDecimalWidth : Nat := 4300

/-- The unsigned integer written in `base`, whose own mark may stand in front. -/
def natural? (base : Nat) (body : Text) : Option Nat := do
  let unmarked :=
    match baseMark? body with
    | some (marked, rest) => if marked = base then afterMark rest else body
    | none => body
  let digits ← digits? base unmarked
  guard (base ≠ 10 ∨ digits.length ≤ greatestDecimalWidth)
  return ofDigits base digits

/-- The integer written in `base`. -/
def integer? (base : Nat) (text : Text) : Option Int := do
  let (negative, body) := splitSign (text.trim isMargin)
  let n ← natural? base body
  return if negative then -(n : Int) else n

/-- The integer written with a base mark, or in base ten without one. -/
def markedInteger? (text : Text) : Option Int :=
  let body := text.trim isMargin
  match baseMark? body with
  | some (base, _) => integer? base body
  | none => integer? 10 body

/-- The decimal digits at the front of a text, and the rest. -/
def spanDecimals : Text → List Nat × Text
  | [] => ([], [])
  | point :: rest =>
      match point.decimalValue? with
      | none => ([], point :: rest)
      | some digit =>
          let (digits, more) := spanDecimals rest
          (digit :: digits, more)

/-- The exponent part of a decimal: nothing, or `e` with an integer. -/
def exponent? : Text → Option Int
  | [] => some 0
  | mark :: rest => do
      guard (mark.isOneOf ['e', 'E'])
      let (negative, body) := splitSign rest
      let (digits, more) := spanDecimals body
      guard (digits ≠ [] ∧ more = [])
      let n := ofDigits 10 digits
      return if negative then -(n : Int) else n

/-- The double nearest to `mantissa × 10^power`.  Far beyond the doubles on either
side no power of ten is computed. -/
def nearest (negative : Bool) (mantissa : Nat) (power : Int) : Double :=
  let width : Int := (Nat.toDigits 10 mantissa).length
  if mantissa = 0 ∨ width + power < -400 then Double.ofRank negative 0
  else if 400 < width + power then .infinity negative
  else if 0 ≤ power then Double.ofRatio negative (mantissa * Nat.pow 10 power.toNat) 1
  else Double.ofRatio negative mantissa (Nat.pow 10 (-power).toNat)

def unsignedDecimal? (negative : Bool) (body : Text) : Option Double := do
  let (whole, rest) := spanDecimals body
  let (fraction, rest) :=
    match rest with
    | .char '.' :: more => spanDecimals more
    | rest => ([], rest)
  guard (whole ≠ [] ∨ fraction ≠ [])
  let exponent ← exponent? rest
  return nearest negative (ofDigits 10 (whole ++ fraction)) (exponent - fraction.length)

/-- A word read without regard to the case of its basic letters. -/
def isWord (text : Text) (words : List String) : Bool :=
  let lower := text.map fun point =>
    match point with
    | .char c => CodePoint.char c.toLower
    | .half n => .half n
  Text.isOneOf lower words

/-- A decimal without the underscores that separate two of its digits; no other
underscores are allowed. -/
def joinDigits? (afterDigit : Bool) : Text → Option Text
  | [] => some []
  | .char '_' :: point :: rest =>
      if afterDigit && point.decimalValue?.isSome then
        (joinDigits? true rest).map (point :: ·)
      else none
  | .char '_' :: [] => none
  | point :: rest => (joinDigits? point.decimalValue?.isSome rest).map (point :: ·)

/-- The double written as a decimal, or as a word for infinity or not a number. -/
def decimal? (text : Text) : Option Double := do
  let (negative, body) := splitSign (← joinDigits? false (text.trim isMargin))
  if isWord body ["inf", "infinity"] then some (.infinity negative)
  else if isWord body ["nan"] then some .nan
  else unsignedDecimal? negative body

/-- A result that must exist. -/
def require {α : Type} : Option α → Except Fault α
  | some value => .ok value
  | none => .error .malformed

/-- Whether every code point is a digit, and there is one. -/
def isDigits (text : Text) : Bool :=
  !text.isEmpty && text.all CodePoint.isDigit

/-- The number of an unsigned literal without underscores. -/
def unsignedLiteral (text : Text) : Except Fault Num :=
  if text.isString "Infinity" then .ok (Num.infinity false)
  else if text.isString "NaN" then .ok Num.nan
  else if (baseMark? text).isSome then do
    Num.settle (.int (← require (markedInteger? text)))
  else if isDigits text then
    let legacyOctal :=
      1 < text.length && text.head? == some (.char '0')
        && text.all fun point => point.isOneOf ['0', '1', '2', '3', '4', '5', '6', '7']
    do Num.settle (.int (← require (integer? (if legacyOctal then 8 else 10) text)))
  else do
    return .float (← require (decimal? text))

/-- The number of a literal without underscores; a minus in front keeps the sign of zero. -/
def signedLiteral : Text → Except Fault Num
  | .char '-' :: rest => do
      let value ← signedLiteral rest
      return if value.isZero then .float (Double.ofRank true 0) else value.neg
  | text => unsignedLiteral text

/-- The number of a literal as a script writes it. -/
def literal (text : Text) : Except Fault Num :=
  signedLiteral (text.filter fun point => !point.is '_')

/-- The number that a string stands for, `nan` if it stands for none. -/
def ofString (raw : Text) : Except Fault Num :=
  let text := raw.trim CodePoint.isBlank
  let (negative, body) := splitSign text
  let signed := text != body
  if text.isEmpty then .ok (.int 0)
  else if body.isString "Infinity" then .ok (Num.infinity negative)
  else if 2 < body.length && (baseMark? body).isSome then
    if signed then .ok Num.nan
    else
      match markedInteger? body with
      | some n => Num.settle (.int n)
      | none => .ok Num.nan
  else if body.isEmpty || !body.all isDecimalPart then .ok Num.nan
  else if isDigits body then
    match integer? 10 body with
    | some n => Num.settle (.int (if negative then -n else n))
    | none => .ok Num.nan
  else
    match decimal? body with
    | some x => .ok (.float (if negative then x.neg else x))
    | none => .ok Num.nan
where
  isDecimalPart (point : CodePoint) : Bool :=
    point.isDigit || point.isOneOf ['.', 'e', 'E', '+', '-']

end Numeral

end ScriptFold
