import ScriptFold.Fold.Slot
import ScriptFold.Value.Operator
import ScriptFold.Value.Property

/-!
# Operators

Folding of binary, logical, unary and template expressions, and of expressions
that are read only for their truth.
-/

namespace ScriptFold

namespace Operation

/-- The operator of some children: the first leaf that is one. -/
def operatorIn : List (Child Node) → Option Text
  | [] => none
  | ⟨_, .leaf token⟩ :: rest =>
      if token.type = .op ∨ token.type = .assignOp then some token.text else operatorIn rest
  | _ :: rest => operatorIn rest

def operatorOf (kind : Kind) (children : List (Child Node)) : FoldM Text :=
  match operatorIn children with
  | some op => pure op
  | none => throw (.missingOperator (some kind))

/-- A folded value in place of a node, or the node if the value has no literal. -/
def replaceBy (result : Folded) (value : Value) : FoldM Folded := do
  return match ← Slot.nodeOf value with
    | some node => .instead node
    | none => result

/-- Fold a binary expression with two known operands. -/
def foldBinaryValues (node : Node) (result : Folded) (op : Text) (left right : Value) :
    FoldM Folded := do
  if op.isString "in" then
    match ← FoldM.calculate (Property.contains? left right) with
    | some found => replaceBy result (.bool found)
    | none => return result
  else if op.isString "instanceof" then
    return result
  else
    match BinaryOp.ofText? op with
    | some known => replaceBy result (← FoldM.calculate (known.apply left right))
    | none =>
        FoldM.report (.unknownOperator op) node
        return result

def foldBinary (walker : Walker) (branch : Branch) : FoldM Folded := do
  match branch.children with
  | [left, op, right] =>
      let left ← Slot.expression walker left
      let right ← Slot.expression walker right
      let result := branch.keep [left, op, right]
      match ← Slot.valueOf left.node, ← Slot.valueOf right.node with
      | some a, some b => foldBinaryValues branch.toNode result op.node.description a b
      | _, _ => return result
  | _ => throw (.fault .malformed)

/-- The operand that a logical expression comes down to because of its left one. -/
def fromLeft (op : Text) (left right : Node) : FoldM (Option Node) := do
  match ← Slot.valueOf left with
  | none => return none
  | some value =>
      if op.isString "&&" then return some (if value.isTruthy then right else left)
      else if op.isString "||" then return some (if value.isTruthy then left else right)
      else if op.isString "??" then return some (if value.isNullish then right else left)
      else return none

def foldLogical (walker : Walker) (branch : Branch) : FoldM Folded := do
  let left ← Slot.expression walker (← branch.child 0)
  let right ← Slot.expression walker (← branch.child 2)
  match branch.children with
  | [_, op, _] =>
      match ← fromLeft op.node.description left.node right.node with
      | some node => return .ofNode node
      | none => return branch.keep [left, op, right]
  | _ => throw (.fault .malformed)

/-- Whether reading an expression has no effect. -/
def isPure : Node → FoldM Bool
  | .tree .ident _ _ _ => pure true
  | .tree .literal _ _ _ => pure true
  | .tree .thisExpr _ _ _ => pure true
  | .tree .paren _ _ (⟨_, inner⟩ :: _) => isPure inner
  | .tree .paren _ _ [] => throw (.fault .missingItem)
  | .tree .unary _ _ (op :: ⟨seat, operand⟩ :: rest) => do
      let word ← operatorOf .unary (op :: ⟨seat, operand⟩ :: rest)
      if word.isOneOf ["!", "typeof"] then isPure operand else return false
  | .tree .unary _ _ children => do
      let word ← operatorOf .unary children
      if word.isOneOf ["!", "typeof"] then throw (.fault .missingItem)
      return false
  | _ => pure false

/-- The operand that a condition comes down to because of its right one. -/
def fromRight (op : Text) (left right : Node) : FoldM (Option Node) := do
  match ← Slot.valueOf right with
  | none => return none
  | some value =>
      if value.isTruthy == op.isString "&&" then return some left
      return if ← isPure left then some right else none

/-- A logical expression whose operands are reduced, read only for its truth. -/
def reduceLogical (branch : Branch) (left op right : Child Node) : FoldM Outcome := do
  match ← fromLeft op.node.description left.node right.node with
  | some node => return .instead node
  | none =>
      match ← fromRight op.node.description left.node right.node with
      | some node => return .instead node
      | none =>
          return .same (.tree branch.kind branch.flags branch.place [left, op, right])

/-- A negation whose operand is reduced, read only for its truth. -/
def negated (result operand : Node) : FoldM Outcome := do
  match ← Slot.valueOf operand with
  | some value =>
      return match ← Slot.nodeOf (.bool !value.isTruthy) with
        | some node => .instead node
        | none => .same result
  | none => return .same result

/-- Simplify a folded expression that is read only for its truth. -/
def reduce : Node → FoldM Outcome
  | .tree .paren flags place (⟨seat, inner⟩ :: rest) => do
      let outcome ← reduce inner
      if ← FoldM.calculate (Literal.isPrimitive outcome.node) then
        return .instead outcome.node
      return .same (.tree .paren flags place (outcome.inSeat seat :: rest))
  | .tree .paren _ _ [] => throw (.fault .missingItem)
  | .tree .unary flags place (op :: ⟨seat, operand⟩ :: rest) => do
      let word ← operatorOf .unary (op :: ⟨seat, operand⟩ :: rest)
      if !word.isString "!" then
        return .same (.tree .unary flags place (op :: ⟨seat, operand⟩ :: rest))
      let outcome ← reduce operand
      negated (.tree .unary flags place (op :: outcome.inSeat seat :: rest)) outcome.node
  | .tree .unary flags place children => do
      let word ← operatorOf .unary children
      if word.isString "!" then throw (.fault .missingItem)
      return .same (.tree .unary flags place children)
  | .tree .logical flags place (⟨leftSeat, left⟩ :: op :: ⟨rightSeat, right⟩ :: rest) => do
      let children := ⟨leftSeat, left⟩ :: op :: ⟨rightSeat, right⟩ :: rest
      let word ← operatorOf .logical children
      if !word.isOneOf ["&&", "||"] then return .same (.tree .logical flags place children)
      let left' ← reduce left
      let right' ← reduce right
      if !rest.isEmpty then throw (.fault .malformed)
      reduceLogical ⟨.logical, flags, place, []⟩ (left'.inSeat leftSeat) op
        (right'.inSeat rightSeat)
  | .tree .logical flags place (⟨seat, left⟩ :: rest) => do
      let word ← operatorOf .logical (⟨seat, left⟩ :: rest)
      if !word.isOneOf ["&&", "||"] then
        return .same (.tree .logical flags place (⟨seat, left⟩ :: rest))
      let _ ← reduce left
      throw (.fault .missingItem)
  | .tree .logical _ _ [] => throw (.missingOperator (some .logical))
  | node => pure (.same node)

/-- Fold a child that is read only for its truth. -/
def test (walker : Walker) (child : Child Node) : FoldM (Child Node) := do
  let folded ← Slot.expression walker child
  return (← reduce folded.node).inSeat folded.seat

/-- Apply a unary operator to its folded operand, if that is known. -/
def applyUnary (branch : Branch) (op : Text) (operand : Child Node) : FoldM Folded := do
  let result := branch.keep (branch.children.set 1 operand)
  match ← Slot.valueOf operand.node with
  | none => return result
  | some value =>
      if op.isString "void" then
        let isZero := (Literal.token? operand.node).any fun token => token.text.isString "0"
        if isZero then return result
        return branch.keep (branch.children.set 1 ⟨none, Literal.ofWord .number "0"⟩)
      match UnaryOp.ofText? op with
      | some known => replaceBy result (← FoldM.calculate (known.apply value))
      | none =>
          FoldM.report (.unknownOperator op) branch.toNode
          return result

/-- Fold a unary expression, `delete` apart. -/
def foldUnary (walker : Walker) (branch : Branch) (op : Text) : FoldM Folded := do
  let operand ← branch.child 1
  let operand ←
    if op.isString "!" then test walker operand else Slot.expression walker operand
  applyUnary branch op operand

/-- Fold an expression in parentheses; a literal needs none. -/
def foldParen (walker : Walker) (branch : Branch) : FoldM Folded := do
  let inner ← Slot.expression walker (← branch.child 0)
  if ← FoldM.calculate (Literal.isPrimitive inner.node) then return .instead inner.node
  return branch.keep (branch.children.set 0 inner)

/-- Fold the parts of a template from an index on.  Gives the parts and, if all
substitutions are known, the text. -/
def foldPieces (walker : Walker) :
    (index : Nat) → List (Child Node) → FoldM (List (Child Node) × Option Text)
  | _, [] => pure ([], some [])
  | index, child :: rest => do
      if index % 2 = 0 then
        let piece ← FoldM.calculate (StringLiteral.unescape child.node.description)
        let (children, text) ← foldPieces walker (index + 1) rest
        return (child :: children, text.map (piece ++ ·))
      else
        let folded ← Slot.expression walker child
        let piece ←
          match ← Slot.valueOf folded.node with
          | some value => pure (some (← FoldM.calculate value.toText))
          | none => pure none
        let (children, text) ← foldPieces walker (index + 1) rest
        return (folded :: children, do return (← piece) ++ (← text))

/-- Fold a template; one whose substitutions are all known becomes a string. -/
def foldTemplate (walker : Walker) (branch : Branch) : FoldM Folded := do
  let (children, text) ← foldPieces walker 0 branch.children
  let result := branch.keep children
  match text with
  | some known =>
      if branch.children.length = 1 then return result else replaceBy result (.str known)
  | none => return result

/-- Fold a tagged template.  The tag sees the pieces as written, so only the
substitutions are folded. -/
def foldTagged (walker : Walker) (branch : Branch) : FoldM Folded := do
  let tag ← Slot.expression walker (← branch.child 0)
  let quasi ← branch.child 1
  match quasi.node with
  | .tree kind flags place parts =>
      let parts ← parts.zipIdx.mapM fun (part, index) =>
        if index % 2 = 1 then Slot.expression walker part else pure part
      let quasi : Child Node := ⟨quasi.seat, .tree kind flags place parts⟩
      return branch.keep ((branch.children.set 0 tag).set 1 quasi)
  | _ => throw (.fault .wrongChild)

end Operation

end ScriptFold
