import ScriptFold.Grammar.Statement
import ScriptFold.Token.Lexer

/-!
# Scripts

The rules of the grammar refer to each other; they are tied together level by
level, so that reading always ends.  A script whose constructs nest deeper than
the levels there are is refused.
-/

namespace ScriptFold

namespace Grammar

/-- The rules in which constructs may nest to a number of levels. -/
def rulesAt : (levels : Nat) → Rules
  | 0 =>
      let refuse : Reader Node := throw .nestingTooDeep
      ⟨refuse, refuse, refuse, fun _ => refuse, refuse, refuse, refuse, refuse⟩
  | levels + 1 =>
      let inner := rulesAt levels
      { statement := statement inner
        expression := expression inner
        assignment := assignment inner
        binary := binary inner
        unary := unary inner
        leftHandSide := leftHandSide inner
        construction := construction inner
        target := bindingTarget inner }

/-- The levels to which constructs may nest: a level takes at least a frame of the stack. -/
def nestingLimit : Nat := Stack.limit

/-- The statements of a script, up to the end of input. -/
def statements (levels : Nat := nestingLimit) : Reader (List Node) :=
  repeatWhile (do return (← current).type != .endOfInput) (rulesAt levels).statement

/-- The line and column of the end of a text, which only line feeds divide. -/
def endOf (text : Text) : Nat × Nat :=
  text.foldl
    (fun (line, column) point => if point.is '\n' then (line + 1, 1) else (line, column + 1))
    (1, 1)

/-- The tree of a script. -/
def program (source : Source) (statements : List Node) : Node :=
  let (line, column) := endOf source.text
  .read .program {} source ⟨0, source.text.length, 1, 1, line, column⟩ statements

end Grammar

/-- Why a text is not a script. -/
inductive ScriptError where
  | lexical (failure : LexicalFailure)
  | parse (failure : ParseFailure)
  deriving DecidableEq

/-- The tree of a script text whose constructs nest to a number of levels. -/
def parseScript (source : Source) (levels : Nat := Grammar.nestingLimit) :
    Except ScriptError Node :=
  match tokenize source.text with
  | .error failure => .error (.lexical failure)
  | .ok tokens =>
      match (Grammar.statements levels).run ⟨source, tokens, none, false, tokens.length + 1⟩ with
      | .error failure => .error (.parse failure)
      | .ok (statements, _) => .ok (Grammar.program source statements)

end ScriptFold
