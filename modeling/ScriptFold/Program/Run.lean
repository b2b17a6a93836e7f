import ScriptFold.Program.Command
import ScriptFold.Program.Files

/-!
# Running a command

A run reads a script and its bindings, evaluates it and writes the result.  The first
thing that goes wrong ends the run.
-/

namespace ScriptFold

namespace Program

/-- What a run finds around it. -/
structure Desk where
  /-- The standard input. -/
  input : Text
  files : Files
  environment : Environment

/-- What a run leaves behind. -/
structure Outcome where
  ending : Ending
  output : List Output
  /-- The files written, with their places. -/
  written : List (Location × Text) := []

def readScript (desk : Desk) (command : Command) : Except Ending Text := do
  if command.readsInput then
    if desk.input.isEmpty then throw (.message "No input provided on stdin")
    return desk.input.normalizeLineEnds
  if ← desk.files.contains command.input then desk.files.readText command.input
  else throw (.message (Text.ofString "No such file: " ++ command.input))

/-- The bindings of the script.  Values of a document are added to those of a bindings file. -/
def readBindings (desk : Desk) (command : Command) : Except Ending Bindings := do
  let bindings ←
    match command.bindings with
    | some path => desk.files.readBindings path
    | none => pure {}
  match command.values with
  | some path => return bindings.addValues (← desk.files.readValues path)
  | none => return bindings

/-- How the script is evaluated.  A map names the script and the file beside it. -/
def options (command : Command) (depthLimit : Int) : Options :=
  match command.output with
  | some path =>
      if command.wantsMap then
        let name : Text := if command.readsInput then "<stdin>" else command.input
        ⟨some name, some (Path.fileName path), depthLimit⟩
      else ⟨none, none, depthLimit⟩
  | none => ⟨none, none, depthLimit⟩

/-- Report an error of the script, with a trace if traces are on. -/
def reportError (desk : Desk) (message : Text) (failure : Failure) : List Output :=
  let trace :=
    match desk.environment.tracesErrors, failure.traceName? with
    | true, some name => [.trace, .errorLine (Text.ofString (name ++ ": ") ++ message)]
    | _, _ => []
  trace ++ [.errorLine (Text.ofString "error: " ++ message)]

def warning (diagnostic : Diagnostic) : Output :=
  .errorLine ("warning: " ++ diagnostic.text)

/-- Write texts to paths, one after the other.  The first that cannot be written ends
it; one with a lone surrogate half leaves an empty file behind. -/
def save (files : Files) : List (Text × Text) → Ending × List (Location × Text)
  | [] => (.success, [])
  | (path, text) :: rest =>
      match files.locate path with
      | .error ending => (ending, [])
      | .ok location =>
          if text.hasHalf then (.failure (.fault .loneHalf), [(location, [])])
          else
            let (ending, written) := save (files.insert location.toPath (.text text)) rest
            (ending, (location, text) :: written)

/-- Where the printed script goes. -/
def deliver (files : Files) (command : Command) (warnings : List Output) (printed : Printed) :
    Outcome :=
  match command.output with
  | none =>
      if printed.code.hasHalf then ⟨.failure (.fault .loneHalf), warnings, []⟩
      else ⟨.success, warnings ++ [.out printed.code], []⟩
  | some path =>
      let maps := printed.map.toList.map fun map =>
        (path ++ Text.ofString ".map", Text.ofString map)
      let (ending, written) := save files ((path, printed.code) :: maps)
      ⟨ending, warnings, written⟩

/-- Carry out a command. -/
def perform (host : Host) (desk : Desk) (command : Command) : Except Ending Outcome := do
  let script ← readScript desk command
  let bindings ← readBindings desk command
  let depthLimit ← desk.environment.depthLimit
  let evaluation := evaluate host bindings (options command depthLimit) script
  match evaluation.result with
  | .ok printed => return deliver desk.files command (evaluation.diagnostics.map warning) printed
  | .error failure =>
      match failure.scriptMessage? with
      | some message => return ⟨.status 1, reportError desk message failure, []⟩
      | none => throw (.failure failure)

/-- Run the words of a command line. -/
def run (host : Host) (desk : Desk) (words : List Text) : Outcome :=
  match Command.ofWords words with
  | .error cause => ⟨.message cause.message, [], []⟩
  | .ok command =>
      match perform host desk command with
      | .ok outcome => outcome
      | .error ending => ⟨ending, [], []⟩

end Program

end ScriptFold
