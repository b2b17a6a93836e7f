import ScriptFold.Fold.Slot

/-!
# Names

What an identifier stands for: a fragment, a value, or itself.  Functions and
macros may only be called.
-/

namespace ScriptFold

namespace Name

/-- The name of an identifier or binding. -/
def of? (node : Node) : Option Text :=
  if node.isOneOf [.ident, .binding] then node.children.head?.map Node.description else none

/-- The name of a node for a message. -/
def shown (node : Node) : Text :=
  (of? node).getD "None"

/-- The expression of an expression statement, or the statement itself. -/
def unwrapStatement (node : Node) : Except Fault Node :=
  if node.isKind .exprStmt then node.childAt 0 else .ok node

/-- A copy of a fragment, shaped for the position it goes to.  A program of one
statement stands for that statement, and an expression statement for its expression. -/
def insertable (fragment : Node) : Except Fault Folded := do
  let node := fragment.copy
  if node.isKind .program then
    match node.children with
    | [] => return .removed
    | [single] => return .ofNode (← unwrapStatement single)
    | statements => return .statements statements
  else return .ofNode (← unwrapStatement node)

/-- Refuse the name of a function or macro. -/
def refuseCallable (context : Context) (name : Text) (node : Node) : FoldM Unit := do
  if context.functions.binds name then FoldM.fail (.functionNotCalled name) node
  if context.macros.binds name then FoldM.fail (.macroNotCalled name) node

def fold (walker : Walker) (branch : Branch) : FoldM Folded := do
  let node := branch.toNode
  let context := walker.context
  match of? node with
  | none => return .same node
  | some name =>
      refuseCallable context name node
      match context.fragments.lookup name, context.values.lookup name with
      | some fragment, _ => FoldM.calculate (insertable fragment)
      | none, some value =>
          match ← Slot.nodeOf value with
          | some literal => return .instead literal
          | none =>
              FoldM.report (.valueWithoutLiteral name) node
              return .same node
      | none, none => return .same node

/-- The value bound to an identifier, also one without a literal. -/
def value? (context : Context) (node : Node) : FoldM (Option Value) := do
  if !node.isKind .ident then return none
  match of? node with
  | none => return none
  | some name =>
      match context.values.lookup name with
      | none => return none
      | some value =>
          refuseCallable context name node
          return if context.fragments.binds name then none else some value

inductive Callee where
  | function (name : Text) (hostName : String)
  | expansion (name : Text)
  | other

def callee (context : Context) (node : Node) : Callee :=
  match if node.isKind .ident then of? node else none with
  | none => .other
  | some name =>
      match context.functions.lookup name with
      | some hostName => .function name hostName
      | none => if context.macros.binds name then .expansion name else .other

end Name

end ScriptFold
