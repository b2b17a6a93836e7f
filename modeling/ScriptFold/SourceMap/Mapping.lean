import ScriptFold.Fault
import ScriptFold.Text.Basic

/-!
# Source map mappings

A mapping ties a position of the generated text to a position of the source.
Mappings are written line by line, each number as a run of base 64 digits of five
bits, lowest first, with the sign in the lowest bit.
-/

namespace ScriptFold

/-- A generated position and the source position it comes from, all counted from zero. -/
structure Mapping where
  generatedLine : Int
  generatedColumn : Int
  sourceLine : Int
  sourceColumn : Int
  deriving DecidableEq, Repr, Inhabited

namespace Mapping

/-- The digits of base 64, in the order of their values. -/
def alphabet : List Char :=
  "ABCDEFGHIJKLMNOPQRSTUVWXYZabcdefghijklmnopqrstuvwxyz0123456789+/".toList

def digitChar (digit : Nat) : Char :=
  alphabet.getD digit 'A'

/-- The digits of a number, lowest first; all but the last are marked as continued. -/
def vlqDigits : (fuel n : Nat) → List Nat
  | 0, n => [n % 32]
  | fuel + 1, n => if n < 32 then [n] else (n % 32 + 32) :: vlqDigits fuel (n / 32)

/-- A signed integer with its sign in the lowest bit. -/
def zigzag (n : Int) : Nat :=
  if n < 0 then 2 * n.natAbs + 1 else 2 * n.natAbs

/-- The signed integer whose sign is in the lowest bit. -/
def unzigzag (n : Nat) : Int :=
  if n % 2 = 1 then -((n / 2 : Nat) : Int) else (n / 2 : Nat)

/-- A signed integer as a run of base 64 digits. -/
def encodeVlq (n : Int) : List Char :=
  (vlqDigits ((zigzag n).log2 + 1) (zigzag n)).map digitChar

/-- The value of a base 64 digit. -/
def digitValue (point : CodePoint) : Except Fault Nat :=
  match alphabet.findIdx? fun c => point.is c with
  | some value => .ok value
  | none => .error .unknownDigit

/-- The numbers of some digits, after `shift` bits of an unfinished number. -/
def decodeDigits (shift partialValue : Nat) : List Nat → List Int
  | [] => []
  | digit :: rest =>
      let value := partialValue + (digit % 32) <<< shift
      if 32 ≤ digit then decodeDigits (shift + 5) value rest
      else unzigzag value :: decodeDigits 0 0 rest

/-- The numbers of a run of base 64 digits. -/
def decodeVlq (text : Text) : Except Fault (List Int) := do
  return decodeDigits 0 0 (← text.mapM digitValue)

/-- The lexicographic order of mappings. -/
def precedes (a b : Mapping) : Bool :=
  let order :=
    (compare a.generatedLine b.generatedLine).then
      ((compare a.generatedColumn b.generatedColumn).then
        ((compare a.sourceLine b.sourceLine).then (compare a.sourceColumn b.sourceColumn)))
  order != .gt

def dropRepeats : List Mapping → List Mapping
  | first :: second :: rest =>
      if first = second then dropRepeats (second :: rest)
      else first :: dropRepeats (second :: rest)
  | mappings => mappings

/-- The distinct mappings in order. -/
def sorted (mappings : List Mapping) : List Mapping :=
  dropRepeats (mappings.mergeSort precedes)

/-- One segment, relative to the positions before it. -/
def encodeSegment (column sourceLine sourceColumn : Int) (mapping : Mapping) : List Char :=
  encodeVlq (mapping.generatedColumn - column) ++ encodeVlq 0
    ++ encodeVlq (mapping.sourceLine - sourceLine)
    ++ encodeVlq (mapping.sourceColumn - sourceColumn)

/-- Sorted mappings as text, after a mapping of line `line`.  A new line starts its
columns from zero. -/
def encodeFrom (line : Int) (isFirst : Bool) (column sourceLine sourceColumn : Int) :
    List Mapping → List Char
  | [] => []
  | mapping :: rest =>
      let breaks := (mapping.generatedLine - line).toNat
      let lead :=
        if 0 < breaks then List.replicate breaks ';' else if isFirst then [] else [',']
      let base := if 0 < breaks then 0 else column
      lead ++ encodeSegment base sourceLine sourceColumn mapping
        ++ encodeFrom mapping.generatedLine false mapping.generatedColumn mapping.sourceLine
          mapping.sourceColumn rest

/-- Mappings as text.  Lines are counted from zero; a mapping above them has no place. -/
def encode (mappings : List Mapping) : String :=
  let placed := (sorted mappings).filter fun mapping => 0 ≤ mapping.generatedLine
  String.ofList (encodeFrom 0 true 0 0 0 placed)

/-- The mappings of one line of segments, with the source position after them. -/
def decodeSegments (line : Nat) (column sourceLine sourceColumn : Int) :
    List Text → Except Fault (List Mapping × Int × Int)
  | [] => .ok ([], sourceLine, sourceColumn)
  | segment :: rest => do
      if segment.isEmpty then
        decodeSegments line column sourceLine sourceColumn rest
      else
        match ← decodeVlq segment with
        | [] => throw .missingItem
        | step :: _ :: lineStep :: columnStep :: _ =>
            let mapping : Mapping :=
              ⟨line, column + step, sourceLine + lineStep, sourceColumn + columnStep⟩
            let (mappings, after) ← decodeSegments line mapping.generatedColumn
              mapping.sourceLine mapping.sourceColumn rest
            return (mapping :: mappings, after)
        | step :: _ => decodeSegments line (column + step) sourceLine sourceColumn rest

/-- The mappings of some lines, from line `line` on. -/
def decodeLines (line : Nat) (sourceLine sourceColumn : Int) :
    List Text → Except Fault (List Mapping)
  | [] => .ok []
  | text :: rest => do
      let (mappings, sourceLine, sourceColumn) ←
        decodeSegments line 0 sourceLine sourceColumn (text.splitAt ',')
      return mappings ++ (← decodeLines (line + 1) sourceLine sourceColumn rest)

/-- The mappings of a text. -/
def decode (text : Text) : Except Fault (List Mapping) :=
  decodeLines 0 0 0 (text.splitAt ';')

end Mapping

end ScriptFold
