import ScriptFold.Fold.Target

/-!
# Branches and loops

A branch whose test is known is replaced by the branch taken, and a loop that
never runs is removed.
-/

namespace ScriptFold

namespace Control

/-- Fold a branch of an `if`; an empty statement stays. -/
def branchOf (walker : Walker) (child : Child Node) : FoldM (Child Node) :=
  if child.node.isKind .emptyStmt then pure child else Slot.statement walker child

/-- Fold an `if` statement. -/
def ifStatement (walker : Walker) (branch : Branch) : FoldM Folded := do
  match branch.children with
  | [test, consequent, alternate] =>
      let test ← Operation.test walker test
      let consequent ← branchOf walker consequent
      let alternate ← branchOf walker alternate
      match ← Slot.valueOf test.node with
      | some value =>
          Slot.unwrapBlock (if value.isTruthy then consequent.node else alternate.node)
      | none => return branch.keep [test, consequent, alternate]
  | _ => throw (.fault .malformed)

def conditional (walker : Walker) (branch : Branch) : FoldM Folded := do
  let test ← Operation.test walker (← branch.child 0)
  let consequent ← Slot.expression walker (← branch.child 1)
  let alternate ← Slot.expression walker (← branch.child 2)
  match ← Slot.valueOf test.node with
  | some value =>
      return .ofNode (if value.isTruthy then consequent.node else alternate.node)
  | none => return branch.keep [test, consequent, alternate]

/-- Whether a test is known to fail. -/
def neverHolds (test : Node) : FoldM Bool := do
  return (← Slot.valueOf test).any fun value => !value.isTruthy

/-- Fold a `while` loop. -/
def whileLoop (walker : Walker) (branch : Branch) : FoldM Folded := do
  let test ← Operation.test walker (← branch.child 0)
  if ← neverHolds test.node then return .removed
  let body ← Slot.statement walker (← branch.child 1)
  return branch.keep ((branch.children.set 0 test).set 1 body)

/-- Fold a `do` loop, whose body runs at least once. -/
def doWhileLoop (walker : Walker) (branch : Branch) : FoldM Folded := do
  let body ← Slot.statement walker (← branch.child 0)
  let test ← Operation.test walker (← branch.child 1)
  return branch.keep ((branch.children.set 0 body).set 1 test)

/-- The statement that is left of a `for` loop whose body never runs. -/
def initialOnly (initial : Node) : Folded :=
  match initial with
  | .absent => .removed
  | node =>
      if node.isKind .varDecl then .instead (.made .varDecl node.children)
      else .instead (.made .exprStmt [node])

/-- Fold the first part of the head of a `for` loop. -/
def initialPart (walker : Walker) (child : Child Node) : FoldM (Child Node) :=
  if child.node.isKind .varDecl then Slot.anyNode walker child else Slot.expression walker child

/-- Fold a `for` loop with three parts. -/
def forLoop (walker : Walker) (branch : Branch) : FoldM Folded := do
  match branch.children with
  | [initial, test, update, body] =>
      let initial ← initialPart walker initial
      let test ← if test.node.isAbsent then pure test else Operation.test walker test
      if !test.node.isAbsent && (← neverHolds test.node) then return initialOnly initial.node
      let update ← Slot.expression walker update
      let body ← Slot.statement walker body
      return branch.keep [initial, test, update, body]
  | _ => throw (.fault .malformed)

/-- Whether iterating over a known value runs no step. -/
def iteratesNothing (kind : Kind) : Value → Bool
  | .list items | .tuple items => items.isEmpty
  | .str text => text.isEmpty
  | .record entries => kind == .forInStmt && entries.isEmpty
  | _ => false

/-- Fold a `for` loop over keys or items. -/
def forEachLoop (walker : Walker) (branch : Branch) : FoldM Folded := do
  match branch.children with
  | [left, right, body] =>
      let left ←
        if left.node.isKind .varDecl then Slot.anyNode walker left
        else (·.inSeat left.seat) <$> Target.assign walker left.node
      let right ← Slot.expression walker right
      if (← Slot.valueOf right.node).any (iteratesNothing branch.kind) then return .removed
      let body ← Slot.statement walker body
      return branch.keep [left, right, body]
  | _ => throw (.fault .malformed)

def loop (walker : Walker) (branch : Branch) : FoldM Folded :=
  match branch.kind with
  | .whileStmt => whileLoop walker branch
  | .doWhileStmt => doWhileLoop walker branch
  | .forStmt => forLoop walker branch
  | .forInStmt | .forOfStmt => forEachLoop walker branch
  | _ => pure (.same branch.toNode)

end Control

end ScriptFold
