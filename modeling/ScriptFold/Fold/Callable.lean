import ScriptFold.Fold.Aggregate

/-!
# Functions, classes and declarations

Bodies, defaults and initial values are folded; declared names are not looked up.
-/

namespace ScriptFold

namespace Callable

/-- Fold a function, class or class member. -/
def fold (walker : Walker) (branch : Branch) : FoldM Folded := do
  match branch.kind, branch.children with
  | .functionDecl, [name, params, body] | .functionExpr, [name, params, body] =>
      let params ← Slot.anyNode walker params
      let body ← Slot.anyNode walker body
      return branch.keep [name, params, body]
  | .arrow, [params, body] =>
      let params ← Slot.anyNode walker params
      let body ←
        if body.node.isKind .block then Slot.anyNode walker body
        else Slot.expression walker body
      return branch.keep [params, body]
  | .classDecl, [name, superclass, body] | .classExpr, [name, superclass, body] =>
      let superclass ← Slot.expression walker superclass
      let body ← Slot.anyNode walker body
      return branch.keep [name, superclass, body]
  | .classBody, members => return branch.keep (← members.mapM (Slot.anyNode walker))
  | .method, children =>
      let first ← Aggregate.key walker (← branch.child 0)
      let params ← Slot.anyNode walker (← branch.child 1)
      let body ← Slot.anyNode walker (← branch.child 2)
      return branch.keep (((children.set 0 first).set 1 params).set 2 body)
  | .classField, children =>
      let first ← Aggregate.key walker (← branch.child 0)
      let value ← Slot.expression walker (← branch.child 1)
      return branch.keep ((children.set 0 first).set 1 value)
  | .staticBlock, children =>
      let body ← Slot.anyNode walker (← branch.child 0)
      return branch.keep (children.set 0 body)
  | _, _ => throw (.fault .malformed)

mutual

/-- Fold a declaration, or a declarator: its target and its initial value. -/
def declared (walker : Walker) : Node → FoldM Node
  | .tree .varDecl flags place [] => pure (.tree .varDecl flags place [])
  | .tree .varDecl flags place (word :: declarators) => do
      return .tree .varDecl flags place (word :: (← declaredAll walker declarators))
  | .tree kind flags place [target, initial] => do
      let target ← Slot.anyNode walker target
      let initial ← Slot.expression walker initial
      return .tree kind flags place [target, initial]
  | .tree _ _ _ _ => throw (.fault .malformed)
  | _ => throw (.fault .wrongChild)

def declaredAll (walker : Walker) : List (Child Node) → FoldM (List (Child Node))
  | [] => pure []
  | ⟨seat, node⟩ :: rest => do
      let first ← declared walker node
      return ⟨seat, first⟩ :: (← declaredAll walker rest)

end

def declaration (walker : Walker) (branch : Branch) : FoldM Folded := do
  return .same (← declared walker branch.toNode)

end Callable

end ScriptFold
