import ScriptFold.Console.Entry
import ScriptFold.Program.Files
import ScriptFold.Text.Case

/-!
# Commands at the prompt

A command begins with a slash.  It changes the bindings or the environment of the
session, or shows them.
-/

namespace ScriptFold

/-- What a session keeps from one entry to the next. -/
structure Session where
  bindings : Bindings := {}
  environment : Environment := []

/-- The answer to an entry: its output, and the session after it unless it ends here. -/
structure Reply where
  output : List Output
  next : Except Ending Session

namespace Session

inductive CommandWord where
  | clear
  | load
  | traceback
  | reset
  | values
  deriving DecidableEq, Repr

namespace CommandWord

/-- All commands, in the order in which they are offered. -/
def all : List CommandWord := [.clear, .load, .traceback, .reset, .values]

/-- How a command is written. -/
def word : CommandWord → String
  | .clear => "/clear"
  | .load => "/load"
  | .traceback => "/py-traceback"
  | .reset => "/reset"
  | .values => "/values"

/-- What a command does. -/
def description : CommandWord → String
  | .clear => "Clear the terminal screen"
  | .load => "Load bindings from a .py or .json file"
  | .traceback => "Toggle Python traceback on errors"
  | .reset => "Drop all loaded bindings"
  | .values => "Show the compile-time values in scope"

def ofWord? (text : Text) : Option CommandWord :=
  all.find? fun command => text.isString command.word

end CommandWord

/-- The commands that an entry can be completed to. -/
def completions (text : Text) : List CommandWord :=
  if Entry.isCommand text then
    CommandWord.all.filter fun command => Text.startsWith command.word text
  else []

/-- An answer after which the session goes on. -/
def answer (session : Session) (output : List Output) : Reply :=
  ⟨output, .ok session⟩

/-- The number of bindings of each sort. -/
def counts (bindings : Bindings) : String :=
  String.intercalate ", " [
    digitsOf bindings.values.length ++ " values",
    digitsOf bindings.functions.length ++ " functions",
    digitsOf bindings.macros.length ++ " macros",
    digitsOf bindings.fragments.length ++ " asts"]

/-- The bindings after those of a file are added. -/
def loadFile (files : Files) (path : Text) (bindings : Bindings) : Except Ending Bindings := do
  if path.endsWith ".json" then return bindings.addValues (← files.readValues path)
  else return bindings.add (← files.readBindings path)

/-- The bindings after a file is loaded, unless there is no such file. -/
def loadPath (files : Files) (path : Text) (bindings : Bindings) :
    Except Ending (Option Bindings) := do
  if ← files.contains path then return some (← loadFile files path bindings)
  else return none

/-- What says that a file has been loaded, and how much is bound then. -/
def loadedText (path : Text) (bindings : Bindings) : Text :=
  Text.ofString "Loaded " ++ path ++ Text.ofString (" (" ++ counts bindings ++ ")")

/-- Load a file.  A file that cannot be read is reported, and so is a path that cannot be
written out once its file has been loaded. -/
def load (files : Files) (path : Text) (session : Session) : Reply :=
  if path.isEmpty then session.answer [.errorLine "Usage: /load FILE"]
  else
    match loadPath files path session.bindings with
    | .ok none => session.answer [.errorLine (Text.ofString "No such file: " ++ path)]
    | .ok (some bindings) =>
        let after := { session with bindings := bindings }
        match Output.writtenLine (loadedText path bindings) with
        | .ok line => after.answer [line]
        | .error _ =>
            let message := (loadedText path bindings).encodingError
            after.answer [.errorLine ("Error: " ++ message)]
    | .error ending =>
        match ending.fileMessage? with
        | some message => session.answer [.errorLine (Text.ofString "Error: " ++ message)]
        | none => ⟨[], .error ending⟩

/-- The names of a table after the word for its sort; nothing for an empty table. -/
def listNames {α : Type} (sort : String) (table : Table α) : List Text :=
  if table.isEmpty then []
  else [Text.ofString (sort ++ ": ") ++ Text.join ", " (table.map Prod.fst)]

def valueLine (entry : Text × Value) : Except Fault Output := do
  Output.writtenLine (entry.1 ++ Text.ofString (" = " ++ (← entry.2.listed)))

/-- The lines that show what is bound, each with the fault that keeps it from being written. -/
def bindingLines (bindings : Bindings) : List (Except Fault Output) :=
  let none := if bindings.values.isEmpty then [Output.writtenLine "(no values)"] else []
  let names := listNames "functions" bindings.functions ++ listNames "macros" bindings.macros
    ++ listNames "asts" bindings.fragments
  none ++ bindings.values.map valueLine ++ names.map Output.writtenLine

/-- Write lines one after the other.  The first that cannot be written ends the session. -/
def writeLines (session : Session) : List (Except Fault Output) → Reply
  | [] => session.answer []
  | .error fault :: _ => ⟨[], .error (.failure (.fault fault))⟩
  | .ok line :: rest =>
      let reply := session.writeLines rest
      { reply with output := line :: reply.output }

def traceVariable : Text := "PREFOLD_DEBUG_PY_TRACE"

def setTraces (session : Session) (on : Bool) : Session :=
  let environment := session.environment
  if on then { session with environment := environment.insert traceVariable "1" }
  else { session with environment := environment.filter fun entry => entry.1 != traceVariable }

/-- Whether traces are wanted; no word turns them over. -/
def wantsTraces? (session : Session) (word : Text) : Option Bool :=
  let lower := word.toLower
  if lower.isOneOf ["on", "1", "true", "yes"] then some true
  else if lower.isOneOf ["off", "0", "false", "no"] then some false
  else if word.isEmpty then some (!session.environment.tracesErrors)
  else none

/-- Turn traces on or off by a word. -/
def switchTraces (word : Text) (session : Session) : Reply :=
  match session.wantsTraces? word with
  | none => session.answer [.errorLine "Usage: /py-traceback [on|off]"]
  | some on =>
      let state := if on then "on" else "off"
      (session.setTraces on).answer [.line ("Python traceback: " ++ state)]

/-- Carry out a command. -/
def obey (files : Files) (command : CommandWord) (argument : Text) (session : Session) : Reply :=
  match command with
  | .clear => session.answer [.clear]
  | .load => session.load files argument
  | .values => session.writeLines (bindingLines session.bindings)
  | .traceback => session.switchTraces argument
  | .reset => { session with bindings := {} }.answer [.line "Bindings reset."]

/-- The first word of an entry and what follows it. -/
def splitWord (entry : Text) : Text × Text :=
  let word := entry.takeWhile fun point => !point.isBlank
  (word, Text.trimStart CodePoint.isBlank (entry.drop word.length))

/-- Answer an entry that is a command; any other entry has no answer here. -/
def handleCommand (files : Files) (entry : Text) (session : Session) : Option Reply :=
  let stripped := entry.trim CodePoint.isBlank
  if !Entry.isCommand stripped then none
  else
    let (word, argument) := splitWord stripped
    match CommandWord.ofWord? word with
    | some command => some (session.obey files command argument)
    | none => some (session.answer [.errorLine (Text.ofString "Unknown command: " ++ word)])

end Session

end ScriptFold
