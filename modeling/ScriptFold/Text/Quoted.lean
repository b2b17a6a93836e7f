import ScriptFold.Text.Printable

/-!
# Quoted text in messages

A message shows a text in single quotes, or in double quotes if the text holds a
single quote and no double quote.  Code points without a printed form are shown
by their numbers.
-/

namespace ScriptFold

namespace Quoted

/-- The hexadecimal digits of a number, filled up to a width. -/
def hex (width n : Nat) : String :=
  let digits := Nat.toDigits 16 n
  String.ofList (List.replicate (width - digits.length) '0' ++ digits)

/-- A code point as a message shows it. -/
def escape (quote : Char) (point : CodePoint) : String :=
  let n := point.toNat
  if point.is '\\' then "\\\\"
  else if point.is quote then "\\" ++ quote.toString
  else if point.is '\n' then "\\n"
  else if point.is '\r' then "\\r"
  else if point.is '\t' then "\\t"
  else if point.isPrintable then point.toChar.toString
  else if n < 0x100 then "\\x" ++ hex 2 n
  else if n < 0x10000 then "\\u" ++ hex 4 n
  else "\\U" ++ hex 8 n

def quoteFor (text : Text) : Char :=
  if text.any (·.is '\x27') && !text.any (·.is '"') then '"' else '\x27'

end Quoted

/-- A text in quotes, as messages show it. -/
def Text.quoted (text : Text) : String :=
  let quote := Quoted.quoteFor text
  quote.toString ++ String.join (text.map (Quoted.escape quote)) ++ quote.toString

/-- Why a text with lone halves cannot be encoded: the place of the first ones in it. -/
def Text.encodingError (text : Text) : String :=
  let start := (text.takeWhile fun point => !point.isHalf).length
  let halves := (text.drop start).takeWhile CodePoint.isHalf
  let place :=
    match halves with
    | [half] => "character \x27\\u" ++ Quoted.hex 4 half.toNat ++ "\x27 in position " ++ start.repr
    | _ => "characters in position " ++ start.repr ++ "-" ++ (start + halves.length - 1).repr
  "\x27utf-8\x27 codec can\x27t encode " ++ place ++ ": surrogates not allowed"

end ScriptFold
