import ScriptFold.Tree.Basic

/-!
# Precedences and parentheses

How tight an expression binds, how tight a position asks its expression to bind,
and when parentheses are needed.
-/

namespace ScriptFold

namespace Precedence

def sequence : Nat := 1

/-- A `yield`. -/
def yield : Nat := 2

def assign : Nat := 3

def conditional : Nat := 4

/-- An operator in front of an operand. -/
def unary : Nat := 17

def afterOperand : Nat := 18

def call : Nat := 19

def primary : Nat := 20

def ofOperator (op : Text) : Nat :=
  if op.isString "??" then 5
  else if op.isString "||" then 6
  else if op.isString "&&" then 7
  else if op.isString "|" then 8
  else if op.isString "^" then 9
  else if op.isString "&" then 10
  else if op.isOneOf ["==", "!=", "===", "!=="] then 11
  else if op.isOneOf ["<", ">", "<=", ">=", "in", "instanceof"] then 12
  else if op.isOneOf ["<<", ">>", ">>>"] then 13
  else if op.isOneOf ["+", "-"] then 14
  else if op.isOneOf ["*", "/", "%"] then 15
  else if op.isString "**" then 16
  else unary

/-- The text of the operator of a binary node. -/
def operatorText (node : Node) : Except Fault Text := do
  return (← node.childAt 1).description

def ofNode (node : Node) : Except Fault Nat := do
  match node.kind? with
  | some .sequence => return sequence
  | some .yieldExpr => return yield
  | some .assign | some .arrow => return assign
  | some .conditional => return conditional
  | some .binary | some .logical => return ofOperator (← operatorText node)
  | some .unary | some .awaitExpr | some .prefixUpdate => return unary
  | some .postfixUpdate => return afterOperand
  | some .newExpr => return if (← node.childAt 1).isAbsent then afterOperand else call
  | some .call | some .member | some .subscript | some .taggedTemplate => return call
  | some .literal =>
      let text := (← node.childAt 0).description
      return if text.head? == some (.char '-') then unary else primary
  | _ => return primary

/-- How tight a child of a node must bind to go without parentheses. -/
def ofSlot (parent : Node) (index : Nat) : Except Fault Nat := do
  match parent.kind? with
  | some .binary | some .logical =>
      let op ← operatorText parent
      let own := ofOperator op
      if op.isString "**" then return if index = 0 then afterOperand else own
      return if index = 0 then own else own + 1
  | some .unary | some .awaitExpr => return unary
  | some .prefixUpdate => return afterOperand
  | some .postfixUpdate => return call
  | some .conditional => return if index = 0 then conditional + 1 else assign
  | some .assign => return if index = 0 then call else assign
  | some .member | some .call | some .taggedTemplate | some .newExpr | some .subscript =>
      return if index = 0 then call else 0
  | some .args | some .array | some .property | some .spread | some .computedKey
  | some .assignPattern | some .declarator | some .classField | some .yieldExpr
  | some .exportDefault | some .arrow => return assign
  | some .sequence => return yield
  | _ => return 0

/-- Whether the callee of a `new` holds a call that would be taken for its own. -/
def containsCall : Node → Except Fault Bool
  | .tree .call _ _ _ => .ok true
  | .tree .member _ _ (⟨_, object⟩ :: _) => containsCall object
  | .tree .subscript _ _ (⟨_, object⟩ :: _) => containsCall object
  | .tree .taggedTemplate _ _ (⟨_, tag⟩ :: _) => containsCall tag
  | .tree .member _ _ [] => .error .missingItem
  | .tree .subscript _ _ [] => .error .missingItem
  | .tree .taggedTemplate _ _ [] => .error .missingItem
  | _ => .ok false

def isNumber (node : Node) : Except Fault Bool := do
  if !node.isKind .literal then return false
  match ← node.childAt 0 with
  | .leaf token => return token.type == .number
  | _ => throw .wrongChild

/-- Whether a node needs parentheses at a position of its parent that asks for a precedence. -/
def needsParens (node : Node) (parent : Node) (index : Option Nat) (least : Nat) :
    Except Fault Bool := do
  if !node.isTree then return false
  if (← ofNode node) < least then return true
  match parent.kind? with
  | some .exprStmt => return node.leftmost.isOneOf [.object, .functionExpr, .classExpr]
  | some .arrow => return index == some 1 && node.leftmost.isKind .object
  | some .member | some .call | some .subscript =>
      if index == some 0 then isNumber node else return false
  | some .newExpr => if index == some 0 then containsCall node else return false
  | some .logical =>
      if !node.isKind .logical then return false
      return (← operatorText parent).isString "??" != (← operatorText node).isString "??"
  | _ => return false

end Precedence

end ScriptFold
