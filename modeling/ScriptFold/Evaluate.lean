import ScriptFold.Fold.Walk
import ScriptFold.Printer.Basic

/-!
# Evaluating scripts

A script is read, folded with its bindings and printed.  Fragments that are given
as text are read and folded on their own first.
-/

namespace ScriptFold

inductive FragmentBinding where
  | text (text : Text)
  | tree (node : Node)
  /-- Something else, with the name of its type. -/
  | other (typeName : String)

/-- What a script is folded with. -/
structure Bindings where
  values : Table Value := []
  functions : Table String := []
  macros : Table MacroBinding := []
  fragments : Table FragmentBinding := []

/-- How a script is evaluated. -/
structure Options where
  /-- The name of the source, which asks for a source map. -/
  sourceName : Option Text := none
  /-- The name of the file that the source map is for. -/
  mapName : Option Text := none
  /-- How deep macros may expand into macros. -/
  depthLimit : Int := 100

namespace Evaluate

/-- Read a fragment and fold it on its own. -/
def prepareText (host : Host) (depthLimit : Int) (name text : Text) : FoldM Node := do
  let sourceName := Text.ofString "<ast " ++ name ++ Text.ofString ">"
  let tree ← FoldM.parse ⟨text, some sourceName, .fragment⟩
  Fold.programOnStack ⟨host, [], [], [], [], depthLimit⟩ tree

/-- Make fragments ready for use. -/
def prepareAll (host : Host) (depthLimit : Int) : Table FragmentBinding → FoldM (Table Node)
  | [] => pure []
  | (name, binding) :: rest => do
      let node ←
        match binding with
        | .text text => prepareText host depthLimit name text
        | .tree (.leaf token) => prepareText host depthLimit name token.text
        | .tree .absent => throw (.wrongFragment name "NoneType")
        | .tree node => pure node
        | .other typeName => throw (.wrongFragment name typeName)
      return (name, node) :: (← prepareAll host depthLimit rest)

/-- The context of a fold. -/
def prepare (host : Host) (bindings : Bindings) (depthLimit : Int) : FoldM Context := do
  let fragments ← prepareAll host depthLimit bindings.fragments
  return ⟨host, bindings.values, bindings.functions, bindings.macros, fragments, depthLimit⟩

/-- Read and fold a script. -/
def tree (host : Host) (bindings : Bindings) (depthLimit : Int) (source : Source) :
    FoldM Node := do
  let context ← prepare host bindings depthLimit
  Fold.programOnStack context (← FoldM.parse source)

end Evaluate

/-- What evaluating a script gives, and what was noticed on the way. -/
structure Evaluation where
  result : Except Failure Printed
  diagnostics : List Diagnostic

/-- Read, fold and print a script. -/
def evaluate (host : Host) (bindings : Bindings) (options : Options) (text : Text) :
    Evaluation :=
  let run : FoldM Printed := do
    let tree ← Evaluate.tree host bindings options.depthLimit ⟨text, options.sourceName, .script⟩
    FoldM.attempt (printTree tree options.sourceName options.mapName)
  let (result, diagnostics) := run.run.run []
  ⟨result, diagnostics⟩

end ScriptFold
