import ScriptFold.Fault
import ScriptFold.Grammar.Script
import ScriptFold.Number.Format

/-!
# Failures

Everything that can stop a run.  The wording of a failure is `Failure.message?`.
Errors of the script are reported to whoever wrote it; the other failures come from
the host and the bindings, or from a calculation that has no answer.
-/

namespace ScriptFold

/-- Why a script cannot be folded. -/
inductive FoldError where
  | functionNotCalled (name : Text)
  | macroNotCalled (name : Text)
  | invalidTarget
  | invalidUpdateTarget (op : Text)
  | assignToConstant (name : Text)
  | deleteOfConstant (name : Text)
  | deleteOf (kind : Option Kind)
  | updateOfConstant (name op : Text)
  | updateOfProperty (op : Text)
  | assignToProperty
  | deleteOfProperty
  | argumentsNotStatic (name : Text)
  | unknownProperty (key : Text)
  | expansionTooDeep (name : Text) (limit : Int)
  | statementsAsExpression
  | statementAsExpression (kind : Kind)
  | expansionNotTree (name : Text) (typeName : String)
  | functionResult (name : Text)
  | methodResult (key : Text)
  deriving DecidableEq

namespace FoldError

/-- A text between single quotes, as it is. -/
def between (text : Text) : String :=
  "'" ++ text.toString ++ "'"

/-- The wording of a fold error, without its position. -/
def message : FoldError → String
  | .functionNotCalled name =>
      "Compile-time function " ++ between name ++ " referenced but not called"
  | .macroNotCalled name =>
      "Compile-time macro " ++ between name ++ " referenced but not called"
  | .invalidTarget => "Invalid assignment target"
  | .invalidUpdateTarget op => "Invalid " ++ op.toString ++ " target"
  | .assignToConstant name => "Can't assign to compile-time constant " ++ between name
  | .deleteOfConstant name => "Can't delete compile-time constant " ++ between name
  | .deleteOf (some kind) => "Can't delete " ++ kind.name
  | .deleteOf none => "Can't delete this target"
  | .updateOfConstant name op =>
      "Can't mutate compile-time constant " ++ between name ++ " with " ++ op.toString
  | .updateOfProperty op => "Can't mutate a compile-time constant with " ++ op.toString
  | .assignToProperty => "Can't assign to a property of a compile-time constant"
  | .deleteOfProperty => "Can't delete a property of a compile-time constant"
  | .argumentsNotStatic name =>
      "Compile-time function " ++ between name ++ " called with non-static arguments"
  | .unknownProperty key => "Unknown property " ++ key.quoted ++ " of compile-time constant"
  | .expansionTooDeep name limit =>
      "Macro " ++ between name ++ " exceeded the expansion depth limit of " ++ intText limit
  | .statementsAsExpression => "Statement list used where an expression is expected"
  | .statementAsExpression kind =>
      "Statement '" ++ kind.name ++ "' used where an expression is expected"
  | .expansionNotTree name typeName =>
      "Macro " ++ between name ++ " returned " ++ typeName ++ ", not a syntax tree"
  | .functionResult name =>
      "Result of compile-time function " ++ between name ++ " has no literal form"
  | .methodResult key => "Result of " ++ between key ++ " has no literal form"

/-- The name under which a fold error is reported. -/
def name : FoldError → String
  | .functionNotCalled _ | .macroNotCalled _ => "ReferencedNotInvoked"
  | .invalidTarget | .invalidUpdateTarget _ | .assignToConstant _ => "InvalidAssignmentTarget"
  | .deleteOfConstant _ | .deleteOf _ => "InvalidDeleteTarget"
  | .updateOfConstant _ _ | .updateOfProperty _ | .assignToProperty | .deleteOfProperty =>
      "ConstantMutationError"
  | .argumentsNotStatic _ => "NonStaticArguments"
  | .unknownProperty _ => "UnknownProperty"
  | .expansionTooDeep _ _ => "MacroExpansionTooDeep"
  | .statementsAsExpression | .statementAsExpression _ | .expansionNotTree _ _ =>
      "InvalidMacroResult"
  | .functionResult _ | .methodResult _ => "UnrepresentableValue"

end FoldError

/-- Everything that can stop a run. -/
inductive Failure where
  | lexical (failure : LexicalFailure)
  | parse (failure : ParseFailure)
  | fold (cause : FoldError) (position : Option (Nat × Nat))
  | host
  | unprintable (kind : Kind)
  | missingOperator (kind : Option Kind)
  | wrongFragment (name : Text) (typeName : String)
  | fault (fault : Fault)
  deriving DecidableEq

namespace Failure

def ofScriptError : ScriptError → Failure
  | .lexical failure => .lexical failure
  | .parse failure => .parse failure

/-- The line and column of a failure. -/
def position? : Failure → Option (Nat × Nat)
  | .lexical failure => some (failure.mark.line, failure.mark.column)
  | .parse (.at _ line column) => some (line, column)
  | .fold _ position => position
  | _ => none

def atPosition (message : String) (line column : Nat) : String :=
  message ++ " at line " ++ digitsOf line ++ ", col " ++ digitsOf column

/-- The wording of a failure with its position; faults have none. -/
def message? : Failure → Option String
  | .lexical failure =>
      some (atPosition failure.cause.message failure.mark.line failure.mark.column)
  | .parse (.at cause line column) => some (atPosition cause.message line column)
  | .parse .nestingTooDeep => some "Nesting too deep"
  | .fold cause none => some cause.message
  | .fold cause (some (line, column)) =>
      some (cause.message ++ " (line " ++ digitsOf line ++ ", col " ++ digitsOf column ++ ")")
  | .host => some "host failure"
  | .unprintable kind => some ("Don't know how to print '" ++ kind.name ++ "'")
  | .missingOperator kind =>
      some ((kind.map Kind.name).getD "None" ++ " has no operator token")
  | .wrongFragment name typeName =>
      some ("asts[" ++ name.quoted ++ "] must be source text or a Tree, got " ++ typeName)
  | .fault _ => none

def scriptMessage? (failure : Failure) : Option Text :=
  match failure with
  | .lexical _ | .parse _ | .fold _ _ => failure.message?.map Text.ofString
  | _ => none

/-- The full name of an error of the script, as traces show it. -/
def traceName? : Failure → Option String
  | .lexical _ => some "prefold.lexer_rd.LexError"
  | .parse _ => some "prefold.parser_rd.ParseError"
  | .fold cause _ => some ("prefold.types." ++ cause.name)
  | _ => none

/-- Give a fold error a position unless it has one. -/
def locate (position : Option (Nat × Nat)) : Failure → Failure
  | .fold cause none => .fold cause position
  | failure => failure

end Failure

end ScriptFold
