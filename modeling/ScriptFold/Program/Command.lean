import ScriptFold.Text.Basic

/-!
# Command lines

The words of a command line name a script, the files that go with it and where the
result goes.  A later flag takes the place of an earlier one.
-/

namespace ScriptFold

structure Command where
  script : Option Text := none
  output : Option Text := none
  values : Option Text := none
  bindings : Option Text := none
  wantsMap : Bool := false

/-- Why a command line is refused. -/
inductive CommandError where
  | missingPath (flag : String)
  | unexpected (word : Text)
  | mapWithoutOutput
  deriving DecidableEq

/-- The wording of a refusal. -/
def CommandError.message : CommandError → Text
  | .missingPath flag => flag ++ " flag requires a path"
  | .unexpected word => Text.ofString "Unexpected argument: " ++ word
  | .mapWithoutOutput => "--map requires -o"

namespace Command

inductive PathFlag where
  | output
  | values
  | bindings
  deriving DecidableEq, Repr

def PathFlag.word : PathFlag → String
  | .output => "-o"
  | .values => "--values"
  | .bindings => "--bindings"

def setPath (command : Command) (path : Text) : PathFlag → Command
  | .output => { command with output := some path }
  | .values => { command with values := some path }
  | .bindings => { command with bindings := some path }

/-- The flag that a word is; its path is the next word. -/
def flagOf? (word : Text) : Option PathFlag :=
  [PathFlag.output, .values, .bindings].find? fun flag => word.isString flag.word

/-- The flag and the path that a word holds together. -/
def flagWithPath? (word : Text) : Option (PathFlag × Text) :=
  [PathFlag.values, .bindings].findSome? fun flag =>
    let start := Text.ofString (flag.word ++ "=")
    if word.startsWith start then some (flag, word.drop start.length) else none

/-- Read the words of a command line one by one. -/
def readWords (command : Command) : List Text → Except CommandError Command
  | [] => .ok command
  | word :: rest =>
      match flagOf? word with
      | some flag =>
          match rest with
          | [] => .error (.missingPath flag.word)
          | path :: rest => readWords (command.setPath path flag) rest
      | none =>
          match flagWithPath? word with
          | some (flag, path) => readWords (command.setPath path flag) rest
          | none =>
              if word.isString "--map" then readWords { command with wantsMap := true } rest
              else if command.script.isSome then .error (.unexpected word)
              else readWords { command with script := some word } rest

/-- The command of a command line.  A map is written beside an output file. -/
def ofWords (words : List Text) : Except CommandError Command := do
  let command ← readWords {} words
  if command.wantsMap && command.output.isNone then throw .mapWithoutOutput
  return command

/-- The script to read; `-` stands for the standard input. -/
def input (command : Command) : Text :=
  match command.script with
  | none | some [] => "-"
  | some path => path

/-- Whether the script comes from the standard input. -/
def readsInput (command : Command) : Bool :=
  command.input.isString "-"

end Command

end ScriptFold
