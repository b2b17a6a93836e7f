import ScriptFold.Failure
import ScriptFold.SourceMap.Basic
import ScriptFold.Text.Digit

/-!
# Pages

A page is the text printed so far, with the mappings recorded on the way.  Writing
keeps adjacent tokens apart: a blank goes between two word characters and between
two equal signs.
-/

namespace ScriptFold

/-- The text printed so far, last code point first, with the line and column that it
reaches, and the mappings, last one first. -/
structure Page where
  reversed : Text := []
  line : Nat := 0
  column : Nat := 0
  mappings : List Mapping := []

namespace Page

def text (page : Page) : Text :=
  page.reversed.reverse

def lineText (page : Page) : Text :=
  (page.reversed.takeWhile fun point => !point.is '\n').reverse

/-- Spaces and tabs. -/
def isIndent (point : CodePoint) : Bool :=
  point.isOneOf [' ', '\t']

def indent (page : Page) : Text :=
  page.lineText.takeWhile isIndent

def isWordChar (point : CodePoint) : Bool :=
  point.isAlphanumeric || point.isOneOf ['_', '$']

/-- Whether two neighbours would be read as one token. -/
def fuses (last first : CodePoint) : Bool :=
  (last.isOneOf ['+', '-'] && first == last) || (isWordChar last && isWordChar first)

/-- A page with one more code point. -/
def put (page : Page) (point : CodePoint) : Page :=
  if point.is '\n' then
    { page with reversed := point :: page.reversed, line := page.line + 1, column := 0 }
  else
    { page with reversed := point :: page.reversed, column := page.column + 1 }

/-- A page with more text. -/
def write (page : Page) (text : Text) : Page :=
  match text, page.reversed with
  | first :: _, last :: _ =>
      if !last.is '\n' && fuses last first then text.foldl put (page.put (.char ' '))
      else text.foldl put page
  | _, _ => text.foldl put page

/-- Record that the end of a page comes from a line and a column of a source. -/
def map (page : Page) (sourceLine sourceColumn : Nat) : Page :=
  let mapping : Mapping := ⟨page.line, page.column, sourceLine, sourceColumn⟩
  { page with mappings := mapping :: page.mappings }

end Page

namespace Text

/-- The offsets at which the lines after the first one start, counted from `offset`; only
line feeds divide lines. -/
def lineStarts (offset : Nat) (text : Text) : List Nat :=
  (text.zipIdx (offset + 1)).filterMap fun (point, next) =>
    if point.is '\n' then some next else none

/-- The line and column of an offset, counted from zero, given where lines start from
line `line` on. -/
def positionFrom (offset : Nat) : (line start : Nat) → (later : List Nat) → Nat × Nat
  | line, start, [] => (line, offset - start)
  | line, start, next :: later =>
      if next ≤ offset then positionFrom offset (line + 1) next later else (line, offset - start)

end Text

namespace Printer

/-- Printing.  If positions of the script are recorded, the starts of its lines are at hand. -/
abbrev Print := ReaderT (Option (List Nat)) (StateT Page (Except Failure))

def write (text : Text) : Print Unit :=
  modify fun page => page.write text

def currentIndent : Print Text := do
  return (← get).indent

/-- Record where the next text comes from, if it comes from the script. -/
def record (source : Source) (offset : Nat) : Print Unit := do
  match ← read, source.role with
  | some lineStarts, .script =>
      let (line, column) := Text.positionFrom offset 0 0 lineStarts
      modify fun page => page.map line column
  | _, _ => pure ()

/-- Write a line of a source text that starts at an offset, recording its first character
after the indentation. -/
def writeLine (source : Source) (offset : Nat) (line : Text) : Print Unit := do
  let lead := line.takeWhile Page.isIndent
  if lead.length < line.length then
    write lead
    record source (offset + lead.length)
    write (line.drop lead.length)
  else
    write line

/-- Write the lines of a source text, with the offset of the first. -/
def writeLines (source : Source) (isFirst : Bool) (offset : Nat) : List Text → Print Unit
  | [] => pure ()
  | line :: rest => do
      if !isFirst then write "\n"
      writeLine source offset line
      writeLines source false (offset + line.length + 1) rest

/-- Copy a stretch of a source, recording the first character of every line. -/
def copy (source : Source) (start stop : Nat) : Print Unit := do
  if stop ≤ start then return
  let text := source.text.slice start stop
  if (← read).isSome && source.role = .script then
    writeLines source true start (text.splitAt '\n')
  else
    write text

end Printer

end ScriptFold
