import ScriptFold.SourceMap.Mapping
import ScriptFold.Text.Quoted

/-!
# Source maps

A source map names the source, may quote it and holds the mappings.  Its text is
a JSON object in which only plain characters stand for themselves.
-/

namespace ScriptFold

structure SourceMap where
  sourceName : Text
  sourceText : Option Text
  file : Option Text
  mappings : List Mapping

namespace SourceMap

/-- A unit of 16 bits as a JSON escape. -/
def escapeUnit (n : Nat) : String :=
  "\\u" ++ Quoted.hex 4 n

/-- A code point in a JSON string. -/
def escape (point : CodePoint) : String :=
  match point with
  | .char '"' => "\\\""
  | .char '\\' => "\\\\"
  | .char '\n' => "\\n"
  | .char '\r' => "\\r"
  | .char '\t' => "\\t"
  | .char '\x08' => "\\b"
  | .char '\x0c' => "\\f"
  | point =>
      if 0x20 ≤ point.toNat ∧ point.toNat ≤ 0x7E then point.toChar.toString
      else
        match point.units16? with
        | some units => String.join (units.map escapeUnit)
        | none => escapeUnit point.toNat

def jsonString (text : Text) : String :=
  "\"" ++ String.join (text.map escape) ++ "\""

def field (name value : String) : String :=
  "\"" ++ name ++ "\": " ++ value

/-- The text of a source map. -/
def toJson (map : SourceMap) : String :=
  let fields := [
    field "version" "3",
    field "sources" ("[" ++ jsonString map.sourceName ++ "]"),
    field "names" "[]",
    field "mappings" ("\"" ++ Mapping.encode map.mappings ++ "\"")]
  let file := map.file.toList.map fun name => field "file" (jsonString name)
  let content := map.sourceText.toList.map fun text =>
    field "sourcesContent" ("[" ++ jsonString text ++ "]")
  "\x7b" ++ String.intercalate ", " (fields ++ file ++ content) ++ "\x7d"

end SourceMap

end ScriptFold
