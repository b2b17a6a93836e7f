import ScriptFold.Fold.Name
import ScriptFold.Fold.Operation

/-!
# Targets

Assignments, updates and deletions may not write to what is known.  The parts of a
target that are read are folded.
-/

namespace ScriptFold

namespace Target

/-- The identifier that a target stands for, or none if it names something known. -/
def binding? (walker : Walker) (node : Node) : FoldM (Option Outcome) := do
  if (← Name.value? walker.context node).isSome then return none
  match ← walker.walk node with
  | .same resolved => return if resolved.isKind .ident then some (.same resolved) else none
  | .instead resolved => return if resolved.isKind .ident then some (.instead resolved) else none
  | _ => return none

/-- Fold a member that is written to, unless its object is known. -/
def member (walker : Walker) (cause : FoldError) (branch : Branch) : FoldM Node := do
  let object ← branch.child 0
  if (← Name.value? walker.context object.node).isSome then FoldM.fail cause branch.toNode
  let object ← Slot.expression walker object
  if ← FoldM.calculate (Literal.isConstant object.node) then FoldM.fail cause branch.toNode
  let children := branch.children.set 0 object
  if branch.kind = .subscript then
    let key ← Slot.expression walker (← branch.child 1)
    return .tree branch.kind branch.flags branch.place (children.set 1 key)
  return .tree branch.kind branch.flags branch.place children

def update (walker : Walker) (op : Text) : Node → FoldM Outcome
  | .tree .ident flags place children => do
      let node := Node.tree .ident flags place children
      match ← binding? walker node with
      | some outcome => return outcome
      | none => FoldM.fail (.updateOfConstant (Name.shown node) op) node
  | .tree .member flags place children => do
      return .same (← member walker (.updateOfProperty op) ⟨.member, flags, place, children⟩)
  | .tree .subscript flags place children => do
      return .same (← member walker (.updateOfProperty op) ⟨.subscript, flags, place, children⟩)
  | .tree .paren flags place (⟨seat, inner⟩ :: rest) => do
      let outcome ← update walker op inner
      return .same (.tree .paren flags place (outcome.inSeat seat :: rest))
  | .tree .paren _ _ [] => throw (.fault .missingItem)
  | node => FoldM.fail (.invalidUpdateTarget op) node

def delete (walker : Walker) : Node → FoldM Node
  | .tree .ident flags place children => do
      let node := Node.tree .ident flags place children
      match ← binding? walker node with
      | some _ => return node
      | none => FoldM.fail (.deleteOfConstant (Name.shown node)) node
  | .tree .member flags place children =>
      member walker .deleteOfProperty ⟨.member, flags, place, children⟩
  | .tree .subscript flags place children =>
      member walker .deleteOfProperty ⟨.subscript, flags, place, children⟩
  | .tree .paren flags place (⟨seat, inner⟩ :: rest) => do
      return .tree .paren flags place (⟨seat, ← delete walker inner⟩ :: rest)
  | .tree .paren _ _ [] => throw (.fault .missingItem)
  | node => FoldM.fail (.deleteOf node.kind?) node

mutual

/-- Refuse a pattern that writes to something known. -/
def refuseKnown (context : Context) : Node → FoldM Unit
  | .tree .binding flags place children => do
      let node := Node.tree .binding flags place children
      match Name.of? node with
      | some name =>
          if context.values.binds name || context.fragments.binds name then
            FoldM.fail (.assignToConstant name) node
      | none => pure ()
  | .tree .arrayPattern _ _ elements => refuseAll context elements
  | .tree .objectPattern _ _ properties => refuseAll context properties
  | .tree .patternProperty _ _ (_ :: ⟨_, target⟩ :: _) => refuseKnown context target
  | .tree .rest _ _ (⟨_, target⟩ :: _) => refuseKnown context target
  | .tree .assignPattern _ _ (⟨_, target⟩ :: _) => refuseKnown context target
  | node =>
      if node.isOneOf [.patternProperty, .rest, .assignPattern] then throw (.fault .missingItem)
      else pure ()

/-- Refuse patterns that write to something known. -/
def refuseAll (context : Context) : List (Child Node) → FoldM Unit
  | [] => pure ()
  | ⟨_, node⟩ :: rest => do
      refuseKnown context node
      refuseAll context rest

end

def pattern (walker : Walker) (node : Node) : FoldM Outcome := do
  refuseKnown walker.context node
  match ← walker.walk node with
  | .same folded => return .same folded
  | .instead folded => return .instead folded
  | .removed => return .instead .absent
  | .statements _ => throw (.fault .wrongChild)

def assign (walker : Walker) : Node → FoldM Outcome
  | .tree .ident flags place children => do
      let node := Node.tree .ident flags place children
      match ← binding? walker node with
      | some outcome => return outcome
      | none => FoldM.fail (.assignToConstant (Name.shown node)) node
  | .tree .member flags place children => do
      return .same (← member walker .assignToProperty ⟨.member, flags, place, children⟩)
  | .tree .subscript flags place children => do
      return .same (← member walker .assignToProperty ⟨.subscript, flags, place, children⟩)
  | .tree .paren flags place (⟨seat, inner⟩ :: rest) => do
      let outcome ← assign walker inner
      return .same (.tree .paren flags place (outcome.inSeat seat :: rest))
  | .tree .paren _ _ [] => throw (.fault .missingItem)
  | node =>
      if node.isOneOf [.objectPattern, .arrayPattern, .assignPattern, .rest, .binding] then
        pattern walker node
      else
        FoldM.fail .invalidTarget node

def foldAssign (walker : Walker) (branch : Branch) : FoldM Folded := do
  match branch.children with
  | [target, op, value] =>
      let outcome ← assign walker target.node
      let value ← Slot.expression walker value
      return branch.keep [outcome.inSeat target.seat, op, value]
  | _ => throw (.fault .malformed)

def foldUpdate (walker : Walker) (branch : Branch) : FoldM Folded := do
  let index := if branch.kind = .prefixUpdate then 1 else 0
  let target ← branch.child index
  let op ← Operation.operatorOf branch.kind branch.children
  let outcome ← update walker op target.node
  return branch.keep (branch.children.set index (outcome.inSeat target.seat))

/-- Fold a unary expression; `delete` has a target and not an operand. -/
def foldUnary (walker : Walker) (branch : Branch) : FoldM Folded := do
  let op ← Operation.operatorOf branch.kind branch.children
  if op.isString "delete" then
    let target ← branch.child 1
    let node ← delete walker target.node
    return branch.keep (branch.children.set 1 ⟨target.seat, node⟩)
  Operation.foldUnary walker branch op

end Target

end ScriptFold
