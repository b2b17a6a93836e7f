import ScriptFold.Console.Command

/-!
# The console

The console reads entries at a prompt and answers each of them: a command is carried
out, any other entry is evaluated with the bindings of the session.
-/

namespace ScriptFold

namespace Session

/-- Report an error of an entry, with a trace if traces are on. -/
def reportError (session : Session) (message : Text) : List Output :=
  let trace :=
    if session.environment.tracesErrors then
      [.errorLine [], .errorLine "Python traceback:", Output.trace]
    else []
  .errorLine (Text.ofString "Error: " ++ message) :: trace

def evaluateEntry (host : Host) (entry : Text) (session : Session) : Reply :=
  match session.environment.depthLimit with
  | .error ending => ⟨[], .error ending⟩
  | .ok depthLimit =>
      let evaluation := evaluate host session.bindings ⟨none, none, depthLimit⟩ entry
      match evaluation.result with
      | .ok printed =>
          let warnings := evaluation.diagnostics.map fun diagnostic =>
            Output.errorLine ("warning: " ++ diagnostic.text)
          match Output.writtenLine printed.code with
          | .ok line => session.answer (warnings ++ [line])
          | .error fault => ⟨warnings, .error (.failure (.fault fault))⟩
      | .error failure =>
          match failure.scriptMessage? with
          | some message => session.answer (session.reportError message)
          | none => ⟨[], .error (.failure failure)⟩

/-- Answer a submitted entry.  A blank one has no answer. -/
def submit (host : Host) (files : Files) (text : Text) (session : Session) : Reply :=
  let entry := Entry.clean text
  if entry.all CodePoint.isBlank then session.answer []
  else
    match session.handleCommand files entry with
    | some reply => reply
    | none => session.evaluateEntry host entry

end Session

/-- A session and what is typed at its prompt. -/
structure Console where
  session : Session := {}
  buffer : Buffer := {}

/-- What happens at the prompt. -/
inductive KeyEvent where
  /-- Text is typed, some of it erased, and Enter may be pressed. -/
  | keys (typed : Text) (erased : Nat) (enter : Bool)
  | interrupt

/-- What an event brings about. -/
structure Reaction where
  output : List Output
  /-- The buffer, unless its text has been submitted or dropped. -/
  waiting : Option Buffer
  next : Except Ending Console

namespace Console

/-- The first line of a session. -/
def greeting : Output :=
  .line "prefold repl: Ctrl-D to exit, / for commands"

/-- The last line of a session. -/
def farewell : Output :=
  .line []

def wait (session : Session) (buffer : Buffer) : Reaction :=
  ⟨[], some buffer, .ok ⟨session, buffer⟩⟩

/-- Show an answer, and an empty prompt after it. -/
def present (reply : Reply) : Reaction :=
  ⟨reply.output, none, reply.next.map fun session => ⟨session, {}⟩⟩

def react (host : Host) (files : Files) (event : KeyEvent) (console : Console) : Reaction :=
  match event with
  | .interrupt => present (console.session.answer [.line "KeyboardInterrupt"])
  | .keys typed erased enter =>
      let buffer := (console.buffer.type typed).erase erased
      if !enter then wait console.session buffer
      else if buffer.isComplete then present (console.session.submit host files buffer.text)
      else wait console.session buffer.breakLine

end Console

end ScriptFold
