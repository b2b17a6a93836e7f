import ScriptFold.Console.Basic
import ScriptFold.Host.Stock
import ScriptFold.Program.Run
import ScriptFold.Program.Sheet

/-!
# The programs

Two programs share one executable.  The first evaluates the script of a command line;
the second, chosen by the name of the executable, is the console.  Everything here
reads what the library asks for and writes what it answers.
-/

namespace ScriptFold

namespace Terminal

/-- The name under which the executable is the console. -/
def consoleName : String := "scriptfold-console"

/-- The environment variables that matter to a run. -/
def variableNames : List String := ["PREFOLD_DEBUG_PY_TRACE", "PREFOLD_MAX_MACRO_DEPTH"]

def readEnvironment : IO Environment :=
  variableNames.filterMapM fun name => do
    return (← IO.getEnv name).map fun value => (Text.ofString name, Text.ofString value)

/-- All that is left of the standard input. -/
partial def readInput (lines : List String) : IO String := do
  let line ← (← IO.getStdin).getLine
  if line.isEmpty then return String.join lines.reverse
  readInput (line :: lines)

/-- What a text holds at a path: bindings, if the path has their suffix. -/
def contentOf (path : Text) (text : String) : FileContent :=
  if path.endsWith Files.bindingsSuffix then
    match Document.read (Text.ofString text) with
    | .ok sheet => .bindings (Bindings.ofSheet sheet)
    | .error _ => .text text
  else .text text

/-- What stands at a path. -/
def readContent? (path : Text) : IO (Option FileContent) := do
  try
    let place ← IO.FS.realPath path.toString
    if ← place.isDir then return some .directory
    if ← place.pathExists then return some (contentOf path (← IO.FS.readFile place))
    return none
  catch _ => return none

/-- What stands at some paths, and on the way to them. -/
def readFiles (paths : List Text) : IO Files :=
  (paths.flatMap Path.stages).filterMapM fun path => do
    return (← readContent? path).map fun content => (path, content)

def write : Output → IO Unit
  | .out text => IO.print text.toString
  | .err text => IO.eprint text.toString
  | .trace => IO.eprintln "<traceback>"
  | .clear => IO.print "\x1b[2J\x1b[H"

/-- The exit code of an ending, after its message is written. -/
def exitCode (ending : Ending) : IO UInt32 := do
  match ending with
  | .success => return 0
  | .status code => return code.toUInt32
  | .message text => IO.eprintln text.toString
  | .failure cause => IO.eprintln (cause.message?.getD "error")
  | ending => IO.eprintln (ending.fileMessage?.getD []).toString
  return 1

/-- The paths that a command line names. -/
def pathsOf (words : List Text) : List Text :=
  match Command.ofWords words with
  | .error _ => []
  | .ok command =>
      [command.script, command.values, command.bindings, command.output,
        command.output.map (· ++ Text.ofString ".map")].filterMap id

/-- Whether a command line asks for the standard input. -/
def readsInput (words : List Text) : Bool :=
  match Command.ofWords words with
  | .error _ => false
  | .ok command => command.readsInput

/-- Evaluate the script of a command line. -/
def evaluateCommand (words : List Text) : IO UInt32 := do
  let input ← if readsInput words then readInput [] else pure ""
  let desk : Program.Desk := ⟨input, ← readFiles (pathsOf words), ← readEnvironment⟩
  let outcome := Program.run stockHost desk words
  outcome.output.forM write
  for (location, content) in outcome.written do
    IO.FS.writeFile location.toPath.toString content.toString
  exitCode outcome.ending

/-- The path that an entry may ask for. -/
def pathOfEntry (entry : Text) : Text :=
  (Session.splitWord ((Entry.clean entry).trim CodePoint.isBlank)).2

/-- Answer lines until the input or the session ends. -/
partial def converse (console : Console) : IO UInt32 := do
  IO.print (if console.buffer.text.isEmpty then ">>> " else "... ")
  (← IO.getStdout).flush
  let line ← (← IO.getStdin).getLine
  if line.isEmpty then
    write Console.farewell
    return 0
  let typed := Text.trimEnd (·.is '\n') (Text.ofString line)
  let files ← readFiles [pathOfEntry (console.buffer.text ++ typed)]
  let reaction := console.react stockHost files (.keys typed 0 true)
  reaction.output.forM write
  match reaction.next with
  | .ok console => converse console
  | .error ending => exitCode ending

/-- Run the console. -/
def interactive : IO UInt32 := do
  write Console.greeting
  converse { session := { environment := ← readEnvironment } }

end Terminal

end ScriptFold

/-- Evaluate the script of the command line, or run the console. -/
def main (words : List String) : IO UInt32 := do
  if (← IO.appPath).fileName == some ScriptFold.Terminal.consoleName then
    ScriptFold.Terminal.interactive
  else
    ScriptFold.Terminal.evaluateCommand (words.map ScriptFold.Text.ofString)
