import ScriptFold.Fold.Operation

/-!
# Switch statements

A switch over a known value is replaced by the statements it runs, if the case it
enters is known and no `break` inside them would leave it early.
-/

namespace ScriptFold

namespace Switch

/-- Constructs that a `break` inside them does not leave. -/
def catchesBreak : Kind → Bool
  | .whileStmt | .doWhileStmt | .forStmt | .forInStmt | .forOfStmt | .switchStmt
  | .functionDecl | .functionExpr | .arrow | .classDecl | .classExpr => true
  | _ => false

mutual

/-- Whether a node holds a `break` that would leave the switch around it. -/
def leaves : Node → Bool
  | .absent => false
  | .leaf _ => false
  | .tree kind _ _ children =>
      kind == .breakStmt || (!catchesBreak kind && anyLeaves children)

/-- Whether one of some nodes holds a `break` that would leave the switch around them. -/
def anyLeaves : List (Child Node) → Bool
  | [] => false
  | ⟨_, node⟩ :: rest => leaves node || anyLeaves rest

end

/-- Which case a switch enters. -/
inductive Entry where
  | case (index : Nat)
  | nothing
  | unknown
  deriving DecidableEq, Repr

/-- The case that a value enters, looking from a case on, with the default case met so far. -/
def entryFrom (value : Value) (default : Option Nat) :
    (index : Nat) → List (Child Node) → FoldM Entry
  | _, [] => return (default.map Entry.case).getD .nothing
  | index, ⟨_, case⟩ :: rest => do
      let test := case.child 0
      if test.isAbsent then
        entryFrom value (some index) (index + 1) rest
      else
        match ← Slot.valueOf test with
        | none => return .unknown
        | some known =>
            if Value.strictEquals value known then return .case index
            entryFrom value default (index + 1) rest

/-- The statements that run from a case on up to a plain `break`, or none if a
`break` stands where it cannot be followed. -/
def plan : List Node → Except Fault (Option (List Node))
  | [] => .ok (some [])
  | node :: rest => do
      if node.isKind .breakStmt then
        return if (← node.childAt 0).isAbsent then some [] else none
      else if leaves node then return none
      else return (← plan rest).map (node :: ·)

def foldTest (walker : Walker) (child : Child Node) : FoldM (Child Node) := do
  match child.node with
  | .tree kind flags place (test :: body) =>
      let test ← Slot.expression walker test
      return ⟨child.seat, .tree kind flags place (test :: body)⟩
  | .tree _ _ _ [] => throw (.fault .missingItem)
  | _ => throw (.fault .wrongChild)

/-- Fold the statements of a case whose test is folded. -/
def foldBody (walker : Walker) (child : Child Node) : FoldM (Child Node) := do
  match child.node with
  | .tree kind flags place (test :: body) =>
      let body ← Slot.statements walker body
      return ⟨child.seat, .tree kind flags place (test :: body)⟩
  | _ => throw (.fault .missingItem)

/-- The statements of a switch in place of it. -/
def chosen (nodes : List Node) : Except Fault Folded := do
  if nodes.isEmpty then return .removed
  if ← nodes.anyM Slot.declaresInBlock then return .instead (.made .block nodes)
  return .statements nodes

/-- Fold a `switch` statement. -/
def fold (walker : Walker) (branch : Branch) : FoldM Folded := do
  match branch.children with
  | [] => throw (.fault .missingItem)
  | discriminant :: cases =>
      let discriminant ← Slot.expression walker discriminant
      let cases ← cases.mapM (foldTest walker)
      let kept : FoldM Folded := do
        return branch.keep (discriminant :: (← cases.mapM (foldBody walker)))
      match ← Slot.valueOf discriminant.node with
      | none => kept
      | some value =>
          match ← entryFrom value none 0 cases with
          | .unknown => kept
          | .nothing => return .removed
          | .case index =>
              let body := (cases.drop index).flatMap fun case => case.node.children.drop 1
              match ← FoldM.calculate (plan body) with
              | none => kept
              | some nodes =>
                  let statements ← Slot.statements walker (Node.unseated nodes)
                  FoldM.calculate (chosen (statements.map Child.node))

end Switch

end ScriptFold
