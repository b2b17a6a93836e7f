import ScriptFold.Fold.Walk

/-!
# What expressions mean

A reference evaluator for expressions without assignments.  Names that are bound
stand for their values, all other names and the answers of calls come from a world
that may look at the calls made so far.  Operands are evaluated from left to right,
and an operand that is not needed is not evaluated.

A literal is read as folding reads it, and the result of every operator passes once
through its literal, because that is the only form in which folding can keep it.
-/

namespace ScriptFold

namespace Meaning

/-- A call that was made: the name that was called and the values of its arguments. -/
structure Event where
  name : Text
  arguments : List Value

/-- Where the values of free names and the answers of calls come from. -/
structure World where
  /-- The value of a name after some calls. -/
  read : List Event → Text → Value
  /-- The answer of the last of some calls. -/
  answer : List Event → Value

/-- Running a part of a script: the calls made so far are kept, also by a fault. -/
abbrev Run := ExceptT Fault (StateM (List Event))

/-- A calculation that makes no calls. -/
def calculate {α : Type} (result : Except Fault α) : Run α :=
  ExceptT.mk (pure result)

/-- A value once through its literal; values without a literal stay. -/
def throughLiteral (value : Value) : Except Fault Value := do
  match ← Literal.ofValue? value with
  | none => return value
  | some node => return (← Literal.value? node).getD value

def unaryResult (op : Text) (operand : Value) : Except Fault Value :=
  if op.isString "void" then throughLiteral .undefined
  else
    match UnaryOp.ofText? op with
    | some known => do throughLiteral (← known.apply operand)
    | none => .error .malformed

def binaryResult (op : Text) (left right : Value) : Except Fault Value :=
  match BinaryOp.ofText? op with
  | some known => do throughLiteral (← known.apply left right)
  | none => .error .malformed

/-- Whether a logical operator goes on to its right operand after the left one. -/
def needsRight (op : Text) (left : Value) : Except Fault Bool :=
  if op.isString "&&" then .ok left.isTruthy
  else if op.isString "||" then .ok !left.isTruthy
  else if op.isString "??" then .ok left.isNullish
  else .error .malformed

def literalResult (token : Leaf) : Except Fault Value := do
  match ← Literal.tokenValue? token with
  | some value => return value
  | none => throw .malformed

/-- Whether what a run gives counts as true. -/
def truth (run : Run Value) : Run Bool :=
  Value.isTruthy <$> run

mutual

/-- The value of an expression. -/
def eval (world : World) (bound : Table Value) : Node → Run Value
  | .tree .literal _ _ [⟨_, .leaf token⟩] => calculate (literalResult token)
  | .tree .ident _ _ [⟨_, .leaf name⟩] =>
      match bound.lookup name.text with
      | some value => calculate (throughLiteral value)
      | none => do return world.read (← get) name.text
  | .tree .paren _ _ [⟨_, inner⟩] => eval world bound inner
  | .tree .unary _ _ [⟨_, .leaf op⟩, ⟨_, operand⟩] => do
      calculate (unaryResult op.text (← eval world bound operand))
  | .tree .binary _ _ [⟨_, left⟩, ⟨_, .leaf op⟩, ⟨_, right⟩] => do
      let first ← eval world bound left
      let second ← eval world bound right
      calculate (binaryResult op.text first second)
  | .tree .logical _ _ [⟨_, left⟩, ⟨_, .leaf op⟩, ⟨_, right⟩] => do
      let first ← eval world bound left
      if ← calculate (needsRight op.text first) then eval world bound right else return first
  | .tree .conditional _ _ [⟨_, test⟩, ⟨_, consequent⟩, ⟨_, alternate⟩] => do
      if ← truth (eval world bound test) then eval world bound consequent
      else eval world bound alternate
  | .tree .template _ _ parts => do return .str (← evalPieces world bound 0 parts)
  | .tree .call _ _ [⟨_, .tree .ident _ _ [⟨_, .leaf name⟩]⟩, ⟨_, .tree .args _ _ args⟩] => do
      let arguments ← evalAll world bound args
      modify (· ++ [⟨name.text, arguments⟩])
      return world.answer (← get)
  | _ => throw .malformed

/-- The text of the parts of a template from an index on: pieces and substitutions in turn. -/
def evalPieces (world : World) (bound : Table Value) :
    (index : Nat) → List (Child Node) → Run Text
  | _, [] => return []
  | index, ⟨_, part⟩ :: rest => do
      let first ←
        if index % 2 = 0 then calculate (StringLiteral.unescape part.description)
        else do calculate (← eval world bound part).toText
      return first ++ (← evalPieces world bound (index + 1) rest)

/-- The values of some arguments. -/
def evalAll (world : World) (bound : Table Value) : List (Child Node) → Run (List Value)
  | [] => return []
  | ⟨_, argument⟩ :: rest => do
      let first ← eval world bound argument
      return first :: (← evalAll world bound rest)

end

section Equations

variable {world : World} {bound : Table Value} {flags : Flags} {place : Option Place}
  {seat : Option Nat}

theorem eval_literal {token : Leaf} :
    eval world bound (.tree .literal flags place [⟨seat, .leaf token⟩]) =
      calculate (literalResult token) := rfl

theorem eval_name {name : Leaf} :
    eval world bound (.tree .ident flags place [⟨seat, .leaf name⟩]) =
      match bound.lookup name.text with
      | some value => calculate (throughLiteral value)
      | none => do return world.read (← get) name.text := rfl

theorem eval_paren {inner : Child Node} :
    eval world bound (.tree .paren flags place [inner]) = eval world bound inner.node := rfl

theorem eval_unary {op : Leaf} {operand : Child Node} :
    eval world bound (.tree .unary flags place [⟨seat, .leaf op⟩, operand]) = (do
      calculate (unaryResult op.text (← eval world bound operand.node))) := rfl

theorem eval_binary {left right : Child Node} {op : Leaf} :
    eval world bound (.tree .binary flags place [left, ⟨seat, .leaf op⟩, right]) = (do
      let first ← eval world bound left.node
      let second ← eval world bound right.node
      calculate (binaryResult op.text first second)) := rfl

theorem eval_logical {left right : Child Node} {op : Leaf} :
    eval world bound (.tree .logical flags place [left, ⟨seat, .leaf op⟩, right]) = (do
      let first ← eval world bound left.node
      if ← calculate (needsRight op.text first) then eval world bound right.node
      else return first) := rfl

theorem eval_conditional {test consequent alternate : Child Node} :
    eval world bound (.tree .conditional flags place [test, consequent, alternate]) = (do
      if ← truth (eval world bound test.node) then eval world bound consequent.node
      else eval world bound alternate.node) := rfl

theorem eval_template {parts : List (Child Node)} :
    eval world bound (.tree .template flags place parts) = (do
      return .str (← evalPieces world bound 0 parts)) := rfl

theorem eval_call {calleeFlags argsFlags : Flags} {calleePlace argsPlace : Option Place}
    {calleeSeat argsSeat : Option Nat} {name : Leaf} {args : List (Child Node)} :
    eval world bound (.tree .call flags place
      [⟨calleeSeat, .tree .ident calleeFlags calleePlace [⟨seat, .leaf name⟩]⟩,
        ⟨argsSeat, .tree .args argsFlags argsPlace args⟩]) = (do
      let arguments ← evalAll world bound args
      modify (· ++ [⟨name.text, arguments⟩])
      return world.answer (← get)) := rfl

theorem evalPieces_nil {index : Nat} : evalPieces world bound index [] = pure [] := rfl

theorem evalPieces_cons {index : Nat} {part : Child Node} {rest : List (Child Node)} :
    evalPieces world bound index (part :: rest) = (do
      let first ←
        if index % 2 = 0 then calculate (StringLiteral.unescape part.node.description)
        else do calculate (← eval world bound part.node).toText
      return first ++ (← evalPieces world bound (index + 1) rest)) := rfl

theorem evalAll_cons {argument : Child Node} {rest : List (Child Node)} :
    evalAll world bound (argument :: rest) = (do
      let first ← eval world bound argument.node
      return first :: (← evalAll world bound rest)) := rfl

end Equations

/-- The token types of literals that write a value. -/
def isPrimitiveType : LeafType → Bool
  | .number | .string | .trueWord | .falseWord | .nullWord => true
  | _ => false

/-- The expressions that the evaluator gives a meaning to.  Calls are calls of names that
neither a function nor a macro of the context has. -/
inductive IsExpression (context : Context) : Node → Prop where
  | literal {flags : Flags} {place : Option Place} {seat : Option Nat} {token : Leaf}
      (primitive : isPrimitiveType token.type = true) :
      IsExpression context (.tree .literal flags place [⟨seat, .leaf token⟩])
  | name {flags : Flags} {place : Option Place} {seat : Option Nat} {token : Leaf} :
      IsExpression context (.tree .ident flags place [⟨seat, .leaf token⟩])
  | paren {flags : Flags} {place : Option Place} {inner : Child Node}
      (innerIs : IsExpression context inner.node) :
      IsExpression context (.tree .paren flags place [inner])
  | unary {flags : Flags} {place : Option Place} {seat : Option Nat} {op : Leaf}
      {operand : Child Node} (isOp : op.type = .op)
      (known : op.text.isString "void" = true ∨ (UnaryOp.ofText? op.text).isSome = true)
      (operandIs : IsExpression context operand.node) :
      IsExpression context (.tree .unary flags place [⟨seat, .leaf op⟩, operand])
  | binary {flags : Flags} {place : Option Place} {seat : Option Nat} {op : Leaf}
      {left right : Child Node} (known : (BinaryOp.ofText? op.text).isSome = true)
      (leftIs : IsExpression context left.node) (rightIs : IsExpression context right.node) :
      IsExpression context (.tree .binary flags place [left, ⟨seat, .leaf op⟩, right])
  | logical {flags : Flags} {place : Option Place} {seat : Option Nat} {op : Leaf}
      {left right : Child Node} (isOp : op.type = .op)
      (known : op.text.isOneOf ["&&", "||", "??"] = true)
      (leftIs : IsExpression context left.node) (rightIs : IsExpression context right.node) :
      IsExpression context (.tree .logical flags place [left, ⟨seat, .leaf op⟩, right])
  | conditional {flags : Flags} {place : Option Place} {test consequent alternate : Child Node}
      (testIs : IsExpression context test.node)
      (consequentIs : IsExpression context consequent.node)
      (alternateIs : IsExpression context alternate.node) :
      IsExpression context (.tree .conditional flags place [test, consequent, alternate])
  | template {flags : Flags} {place : Option Place} {parts : List (Child Node)}
      (pieces : ∀ index part, parts[index]? = some part → index % 2 = 0 →
        ∃ token, part.node = .leaf token)
      (substitutions : ∀ index part, parts[index]? = some part → index % 2 = 1 →
        IsExpression context part.node) :
      IsExpression context (.tree .template flags place parts)
  | call {flags calleeFlags argsFlags : Flags} {place calleePlace argsPlace : Option Place}
      {seat calleeSeat argsSeat : Option Nat} {name : Leaf} {args : List (Child Node)}
      (required : flags.optional = false)
      (notFunction : context.functions.binds name.text = false)
      (notMacro : context.macros.binds name.text = false)
      (argsAre : ∀ argument, argument ∈ args → IsExpression context argument.node) :
      IsExpression context (.tree .call flags place
        [⟨calleeSeat, .tree .ident calleeFlags calleePlace [⟨seat, .leaf name⟩]⟩,
          ⟨argsSeat, .tree .args argsFlags argsPlace args⟩])

end Meaning

end ScriptFold
