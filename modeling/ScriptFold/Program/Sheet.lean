import ScriptFold.Program.Setting

/-!
# Binding sheets

A binding sheet is a document that holds bindings: an object with the fields
`values`, `functions`, `macros` and `asts`, each of them an object by name.  A
function is the name of a host function.  A macro is a template, or an object whose
field `fn` is the name of a host macro.  A fragment is a text.  A field may be missing,
and entries of any other form are passed over.
-/

namespace ScriptFold

namespace Sheet

def entries : Value → Table Value
  | .record pairs => pairs.filterMap fun pair =>
      match pair.1 with
      | .str name => some (name, pair.2)
      | _ => none
  | _ => []

/-- The entry of an object under a name. -/
def field? (name : String) (value : Value) : Option Value :=
  (entries value).lookup (Text.ofString name)

/-- The entries of a section that have the form of their sort. -/
def readSection {α : Type} (sheet : Value) (name : String) (form : Value → Option α) : Table α :=
  (entries ((field? name sheet).getD .null)).filterMap fun entry =>
    (form entry.2).map fun item => (entry.1, item)

def functionOf? : Value → Option String
  | .str name => some name.toString
  | _ => none

def macroOf? : Value → Option MacroBinding
  | .str template => some (.template template)
  | value => ((field? "fn" value).bind functionOf?).map .host

def fragmentOf? : Value → Option FragmentBinding
  | .str text => some (.text text)
  | _ => none

end Sheet

def Bindings.ofSheet (sheet : Value) : Bindings :=
  ⟨Sheet.readSection sheet "values" some, Sheet.readSection sheet "functions" Sheet.functionOf?,
    Sheet.readSection sheet "macros" Sheet.macroOf?,
    Sheet.readSection sheet "asts" Sheet.fragmentOf?⟩

end ScriptFold
