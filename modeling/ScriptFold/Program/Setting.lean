import ScriptFold.Document.Reader
import ScriptFold.Evaluate
import ScriptFold.Program.Path

/-!
# The setting of a run

What a run finds around it, files and an environment, and what it leaves behind, output
and an ending.
-/

namespace ScriptFold

/-- What stands at a path. -/
inductive FileContent where
  | text (text : Text)
  | bindings (bindings : Bindings)
  | directory

def FileContent.isDirectory : FileContent → Bool
  | .directory => true
  | _ => false

/-- The files that a run can reach, by name. -/
abbrev Files := Table FileContent

abbrev Environment := Table Text

inductive Output where
  /-- Text for the standard output. -/
  | out (text : Text)
  /-- Text for the error output. -/
  | err (text : Text)
  /-- The mark of a trace, for the error output. -/
  | trace
  /-- The screen is cleared. -/
  | clear

namespace Output

def line (text : Text) : Output :=
  .out (text ++ [.char '\n'])

/-- A line of standard output, unless it holds a lone half. -/
def writtenLine (text : Text) : Except Fault Output :=
  if text.hasHalf then .error .loneHalf else .ok (line text)

def errorLine (text : Text) : Output :=
  .err (text ++ [.char '\n'])

end Output

inductive Ending where
  | success
  | status (code : Nat)
  /-- With a message of its own. -/
  | message (text : Text)
  | failure (cause : Failure)
  /-- A document cannot be read. -/
  | document (text : Text) (cause : Document.ReadFailure)
  /-- A file cannot be used. -/
  | file (cause : PathError) (path : Text)
  /-- Bindings in a form that is made by machines cannot be loaded. -/
  | unloadable

/-- The wording of an ending that a file brought about. -/
def Ending.fileMessage? : Ending → Option Text
  | .document text cause => some (cause.message text)
  | .file cause path => some (cause.message (Path.normalize path))
  | _ => none

namespace Environment

def tracesErrors (environment : Environment) : Bool :=
  match environment.lookup (Text.ofString "PREFOLD_DEBUG_PY_TRACE") with
  | none => false
  | some value => !value.isOneOf ["", "0"]

/-- How deep macros may expand into macros. -/
def depthLimit (environment : Environment) : Except Ending Int :=
  match environment.lookup (Text.ofString "PREFOLD_MAX_MACRO_DEPTH") with
  | none => .ok 100
  | some raw =>
      if raw.all CodePoint.isBlank then .ok 100
      else
        match Numeral.integer? 10 raw with
        | none =>
            .error (.message ("PREFOLD_MAX_MACRO_DEPTH must be an integer, got " ++ raw.quoted))
        | some limit =>
            if limit < 1 then .error (.message "PREFOLD_MAX_MACRO_DEPTH must be at least 1")
            else .ok limit

end Environment

end ScriptFold
