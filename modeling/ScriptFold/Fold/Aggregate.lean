import ScriptFold.Fold.Target

/-!
# Aggregates and patterns

Folding of arrays, objects and their keys, and of the defaults and keys of
patterns.
-/

namespace ScriptFold

namespace Aggregate

/-- Fold the expression of a key in brackets; other keys stay. -/
def key (walker : Walker) (child : Child Node) : FoldM (Child Node) := do
  match child.node with
  | .tree .computedKey flags place (inner :: rest) =>
      let inner ← Slot.expression walker inner
      return ⟨child.seat, .tree .computedKey flags place (inner :: rest)⟩
  | .tree .computedKey _ _ [] => throw (.fault .missingItem)
  | _ => return child

/-- Fold the key of a node, its first child. -/
def withKey (walker : Walker) (branch : Branch) : FoldM (List (Child Node)) := do
  let first ← key walker (← branch.child 0)
  return branch.children.set 0 first

/-- Fold a property that is written as a name alone.  If the name stands for
something else, the property is written in full. -/
def shorthand (walker : Walker) (branch : Branch) : FoldM Folded := do
  let ident ← branch.child 0
  let value ← Slot.expression walker ⟨some 0, ident.node⟩
  if value.seat.isSome then
    return branch.keep (branch.children.set 0 ⟨ident.seat, value.node⟩)
  return .instead (.made .property [← FoldM.calculate (ident.node.childAt 0), value.node])

def objectMember (walker : Walker) (branch : Branch) : FoldM Folded := do
  match branch.kind with
  | .property =>
      let children ← withKey walker branch
      let value ← Slot.expression walker (← branch.child 1)
      return branch.keep (children.set 1 value)
  | .shorthandProperty => shorthand walker branch
  | .method => walker.walk branch.toNode
  | .spread =>
      let value ← Slot.expression walker (← branch.child 0)
      return branch.keep (branch.children.set 0 value)
  | _ =>
      let folded ← Slot.expression walker ⟨some 0, branch.toNode⟩
      return if folded.seat.isSome then .same folded.node else .instead folded.node

def memberChild (walker : Walker) (child : Child Node) : FoldM (Child Node) := do
  match child.node with
  | .tree kind flags place children =>
      match ← objectMember walker ⟨kind, flags, place, children⟩ with
      | .same node => return ⟨child.seat, node⟩
      | .instead node => return ⟨none, node⟩
      | .removed => return ⟨none, .absent⟩
      | .statements _ => throw (.fault .wrongChild)
  | _ => throw (.fault .wrongChild)

def fold (walker : Walker) (branch : Branch) : FoldM Folded := do
  match branch.kind with
  | .array | .args =>
      return branch.keep (← branch.children.mapM (Slot.expression walker))
  | .object => return branch.keep (← branch.children.mapM (memberChild walker))
  | .computedKey =>
      let inner ← Slot.expression walker (← branch.child 0)
      return branch.keep (branch.children.set 0 inner)
  | .property | .shorthandProperty => objectMember walker branch
  | _ => return .same branch.toNode

mutual

/-- Fold the defaults and keys of a pattern. -/
def pattern (walker : Walker) : Node → FoldM Outcome
  | .absent => pure (.same .absent)
  | .leaf token => pure (.same (.leaf token))
  | .tree .binding flags place children => pure (.same (.tree .binding flags place children))
  | .tree .arrayPattern flags place elements => do
      return .same (.tree .arrayPattern flags place (← patterns walker elements))
  | .tree .params flags place elements => do
      return .same (.tree .params flags place (← patterns walker elements))
  | .tree .objectPattern flags place properties => do
      return .same (.tree .objectPattern flags place (← patterns walker properties))
  | .tree .patternProperty flags place (first :: ⟨seat, target⟩ :: rest) => do
      let first ← key walker first
      let outcome ← pattern walker target
      return .same (.tree .patternProperty flags place (first :: outcome.inSeat seat :: rest))
  | .tree .patternProperty _ _ [first] => do
      let _ ← key walker first
      throw (.fault .missingItem)
  | .tree .assignPattern flags place (⟨seat, target⟩ :: default :: rest) => do
      let outcome ← pattern walker target
      let default ← Slot.expression walker default
      return .same (.tree .assignPattern flags place (outcome.inSeat seat :: default :: rest))
  | .tree .assignPattern _ _ [⟨_, target⟩] => do
      let _ ← pattern walker target
      throw (.fault .missingItem)
  | .tree .rest flags place (⟨seat, target⟩ :: rest) => do
      let outcome ← pattern walker target
      return .same (.tree .rest flags place (outcome.inSeat seat :: rest))
  | .tree kind flags place children => do
      let node := Node.tree kind flags place children
      if node.isOneOf [.ident, .member, .subscript, .paren] then
        Target.assign walker node
      else if node.isOneOf [.patternProperty, .assignPattern, .rest] then
        throw (.fault .missingItem)
      else
        FoldM.report (.unexpectedInPattern kind) node
        return .same node

/-- Fold the defaults and keys of some patterns. -/
def patterns (walker : Walker) : List (Child Node) → FoldM (List (Child Node))
  | [] => pure []
  | ⟨seat, node⟩ :: rest => do
      let outcome ← pattern walker node
      return outcome.inSeat seat :: (← patterns walker rest)

end

end Aggregate

end ScriptFold
