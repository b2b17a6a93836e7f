import ScriptFold.Fold.Context
import ScriptFold.Tree.Literal

/-!
# Positions in a tree

Folding a node gives the node itself, another node, several statements or nothing.
What becomes of that depends on the position: an expression, a single statement,
or a list of statements.
-/

namespace ScriptFold

inductive Folded where
  /-- The same node, whose children may be new. -/
  | same (node : Node)
  /-- Another node in its place. -/
  | instead (node : Node)
  /-- Statements in its place. -/
  | statements (nodes : List Node)
  /-- Nothing in its place. -/
  | removed

/-- A node in the place of another; an absent one leaves nothing there. -/
def Folded.ofNode : Node → Folded
  | .absent => .removed
  | node => .instead node

/-- What a step that always gives a node makes of one. -/
inductive Outcome where
  | same (node : Node)
  | instead (node : Node)

namespace Outcome

def node : Outcome → Node
  | .same node => node
  | .instead node => node

def toFolded : Outcome → Folded
  | .same node => .same node
  | .instead node => .instead node

/-- The child that an outcome leaves; only the same node keeps its seat. -/
def inSeat (seat : Option Nat) : Outcome → Child Node
  | .same node => ⟨seat, node⟩
  | .instead node => ⟨none, node⟩

end Outcome

/-- A tree node in its parts. -/
structure Branch where
  kind : Kind
  flags : Flags
  place : Option Place
  children : List (Child Node)

namespace Branch

def toNode (branch : Branch) : Node :=
  .tree branch.kind branch.flags branch.place branch.children

/-- The same node with these children. -/
def keep (branch : Branch) (children : List (Child Node)) : Folded :=
  .same (.tree branch.kind branch.flags branch.place children)

def child (branch : Branch) (index : Nat) : FoldM (Child Node) :=
  match branch.children[index]? with
  | some child => pure child
  | none => throw (.fault .missingItem)

end Branch

/-- A step of folding: how a node is folded, with what is bound. -/
structure Walker where
  context : Context
  /-- Expand a call of a macro. -/
  expand : (call : Branch) → (name : Text) → FoldM Folded
  /-- Fold a node that stands below the present one. -/
  walk : Node → FoldM Folded

namespace Slot

/-- A folded node in the position of an expression. -/
def expressionOf (former : Node) (seat : Option Nat) (outcome : Outcome) :
    FoldM (Child Node) := do
  match outcome.node.kind? with
  | some kind =>
      if kind.isStatement then
        if kind = .exprStmt then
          return ⟨none, ← FoldM.calculate (outcome.node.childAt 0)⟩
        FoldM.fail (.statementAsExpression kind) former
      return outcome.inSeat seat
  | none => return outcome.inSeat seat

/-- Fold the child in the position of an expression. -/
def expression (walker : Walker) (child : Child Node) : FoldM (Child Node) := do
  if child.node.isAbsent then return child
  match ← walker.walk child.node with
  | .removed | .statements [] => return ⟨none, Literal.voidZero⟩
  | .statements _ => FoldM.fail .statementsAsExpression child.node
  | .same node => expressionOf child.node child.seat (.same node)
  | .instead node => expressionOf child.node child.seat (.instead node)

/-- Whether a node joins a list of statements as it is. -/
def staysWhole : Node → Bool
  | .absent => false
  | .leaf _ => true
  | .tree .emptyStmt _ _ _ => false
  | .tree .program _ _ _ => false
  | .tree .block _ _ [] => false
  | .tree kind _ _ _ => kind.isStatement

mutual

/-- The statements that a node adds to a list of statements. -/
def splice : Node → List Node
  | .absent => []
  | .leaf token => [.leaf token]
  | .tree .emptyStmt _ _ _ => []
  | .tree .program _ _ children => spliceAll children
  | .tree .block _ _ [] => []
  | .tree kind flags place children =>
      let node := Node.tree kind flags place children
      if kind.isStatement then [node] else [.made .exprStmt [node]]

/-- The statements that some nodes add to a list of statements. -/
def spliceAll : List (Child Node) → List Node
  | [] => []
  | ⟨_, node⟩ :: rest => splice node ++ spliceAll rest

end

/-- What a folded child adds to a list of statements. -/
def spliceFolded (seat : Option Nat) : Folded → List (Child Node)
  | .removed => []
  | .statements nodes => Node.unseated (nodes.flatMap splice)
  | .instead node => Node.unseated (splice node)
  | .same node => if staysWhole node then [⟨seat, node⟩] else Node.unseated (splice node)

def statements (walker : Walker) : List (Child Node) → FoldM (List (Child Node))
  | [] => pure []
  | child :: rest => do
      let first := spliceFolded child.seat (← walker.walk child.node)
      return first ++ (← statements walker rest)

/-- Several statements in the position of one. -/
def single : List Node → Node
  | [] => .made .emptyStmt []
  | [node] => node
  | nodes => .made .block nodes

/-- A folded node in the position of a statement. -/
def statementOf (seat : Option Nat) (outcome : Outcome) : Child Node :=
  match outcome.node.kind? with
  | some .program => ⟨none, .made .block outcome.node.children⟩
  | some kind =>
      if kind.isStatement then outcome.inSeat seat else ⟨none, .made .exprStmt [outcome.node]⟩
  | none =>
      if outcome.node.isAbsent then ⟨none, .made .emptyStmt []⟩ else outcome.inSeat seat

/-- Fold the child in the position of a single statement. -/
def statement (walker : Walker) (child : Child Node) : FoldM (Child Node) := do
  if child.node.isAbsent then return child
  match ← walker.walk child.node with
  | .removed => return ⟨none, .made .emptyStmt []⟩
  | .statements nodes => return ⟨none, single (nodes.flatMap splice)⟩
  | .same node => return statementOf child.seat (.same node)
  | .instead node => return statementOf child.seat (.instead node)

/-- Fold a child in a position that takes whatever node it becomes. -/
def anyNode (walker : Walker) (child : Child Node) : FoldM (Child Node) := do
  match ← walker.walk child.node with
  | .same node => return ⟨child.seat, node⟩
  | .instead node => return ⟨none, node⟩
  | .removed => return ⟨none, .absent⟩
  | .statements _ => throw (.fault .wrongChild)

/-- Fold every child, statements as statements and the others as expressions. -/
def everyChild (walker : Walker) (branch : Branch) : FoldM Folded := do
  let children ← branch.children.mapM fun child =>
    match child.node.kind? with
    | none => pure child
    | some kind => if kind.isStatement then statement walker child else expression walker child
  return branch.keep children

/-- Fold the statements of a program, block or case; the test of a case comes first. -/
def statementList (walker : Walker) (branch : Branch) : FoldM Folded := do
  if branch.kind = .switchCase then
    match branch.children with
    | test :: rest =>
        let test ← expression walker test
        return branch.keep (test :: (← statements walker rest))
    | [] => throw (.fault .missingItem)
  else
    return branch.keep (← statements walker branch.children)

/-- Whether a statement declares a name of its block. -/
def declaresInBlock (node : Node) : Except Fault Bool := do
  match node.kind? with
  | some .varDecl => return (← node.childAt 0).description.isOneOf ["let", "const"]
  | some .classDecl | some .functionDecl => return true
  | _ => return false

/-- What a chosen branch adds to the statements around it. -/
def unwrapBlock (node : Node) : FoldM Folded := do
  match node.kind? with
  | none | some .emptyStmt => return .removed
  | some .block =>
      let declares ← FoldM.calculate (node.children.anyM declaresInBlock)
      return if declares then .instead node else .statements node.children
  | some _ => return .instead node

def valueOf (node : Node) : FoldM (Option Value) :=
  FoldM.calculate (Literal.value? node)

def nodeOf (value : Value) : FoldM (Option Node) :=
  FoldM.calculate (Literal.ofValue? value)

end Slot

end ScriptFold
