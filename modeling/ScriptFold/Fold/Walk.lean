import ScriptFold.Fold.Callable
import ScriptFold.Fold.Chain
import ScriptFold.Fold.Control
import ScriptFold.Fold.Switch

/-!
# Folding trees

Every kind of node has its own step.  A step folds only nodes below its own, so
the height of a tree bounds the folding, and every expansion of a macro takes one
level of the depth that is left, so folding always ends.
-/

namespace ScriptFold

namespace Fold

/-- Fold an expression statement.  Statements that its expression becomes take its
place; an expression statement among them lends only its expression. -/
def expressionStatement (walker : Walker) (branch : Branch) : FoldM Folded := do
  let child ← branch.child 0
  let put (child : Child Node) : Folded := branch.keep (branch.children.set 0 child)
  let place (outcome : Outcome) : FoldM Folded := do
    match outcome.node.kind? with
    | some .exprStmt => return put ⟨none, ← FoldM.calculate (outcome.node.childAt 0)⟩
    | some kind =>
        if kind.isStatement then return .instead outcome.node
        return put (outcome.inSeat child.seat)
    | none => return put (outcome.inSeat child.seat)
  match ← walker.walk child.node with
  | .removed => return .removed
  | .statements nodes => return .statements nodes
  | .same node => if node.isAbsent then return .removed else place (.same node)
  | .instead node => place (.instead node)

/-- Fold an export of a value, function or class. -/
def exportDefault (walker : Walker) (branch : Branch) : FoldM Folded := do
  let exported ← branch.child 0
  let exported ←
    if exported.node.isOneOf [.functionDecl, .classDecl] then Slot.anyNode walker exported
    else Slot.expression walker exported
  return branch.keep (branch.children.set 0 exported)

/-- Fold a node that mostly passes on to its children. -/
def passthrough (walker : Walker) (branch : Branch) : FoldM Folded := do
  match branch.kind with
  | .exprStmt => expressionStatement walker branch
  | .paren => Operation.foldParen walker branch
  | .template => Operation.foldTemplate walker branch
  | .taggedTemplate => Operation.foldTagged walker branch
  | .exportDefault => exportDefault walker branch
  | .exportDecl =>
      let exported ← Slot.anyNode walker (← branch.child 0)
      return branch.keep (branch.children.set 0 exported)
  | .labeledStmt =>
      let body ← Slot.statement walker (← branch.child 1)
      return branch.keep (branch.children.set 1 body)
  | _ => Slot.everyChild walker branch

/-- Fold every child that is there. -/
def compound (walker : Walker) (branch : Branch) : FoldM Folded := do
  let children ← branch.children.mapM fun child =>
    if child.node.isAbsent then pure child else Slot.anyNode walker child
  return branch.keep children

/-- Fold one node. -/
def step (walker : Walker) (branch : Branch) : FoldM Folded :=
  match branch.kind.category? with
  | none => do
      FoldM.report (.unknownKind branch.kind) branch.toNode
      return .same branch.toNode
  | some .leaf => pure (.same branch.toNode)
  | some .passthrough => passthrough walker branch
  | some .statementList => Slot.statementList walker branch
  | some .binary => Operation.foldBinary walker branch
  | some .unary => Target.foldUnary walker branch
  | some .logical => Operation.foldLogical walker branch
  | some .conditional =>
      if branch.kind = .ifStmt then Control.ifStatement walker branch
      else Control.conditional walker branch
  | some .loop => Control.loop walker branch
  | some .switch => Switch.fold walker branch
  | some .identifier => Name.fold walker branch
  | some .call => Chain.call walker branch
  | some .member => Chain.member walker branch
  | some .mutation =>
      if branch.kind = .assign then Target.foldAssign walker branch
      else Target.foldUpdate walker branch
  | some .declaration => Callable.declaration walker branch
  | some .function => Callable.fold walker branch
  | some .aggregate => Aggregate.fold walker branch
  | some .pattern => do
      return (← Aggregate.pattern walker branch.toNode).toFolded
  | some .compound => compound walker branch

abbrev Expander := Context → (call : Branch) → (name : Text) → FoldM Folded

/-- Fold a node with this many levels below it. -/
def walkAt (context : Context) (expand : Expander) : (levels : Nat) → Node → FoldM Folded
  | levels + 1, .tree kind flags place children =>
      let node := Node.tree kind flags place children
      let walker : Walker := ⟨context, expand context, walkAt context expand levels⟩
      FoldM.locating node (step walker ⟨kind, flags, place, children⟩)
  | _, node => pure (.same node)

/-- Fold a node with all its levels. -/
def walk (context : Context) (expand : Expander) (node : Node) : FoldM Folded :=
  walkAt context expand node.height node

/-- The arguments of a call, as copies; a `new` may have none. -/
def argumentsOf (call : Branch) : FoldM (List Node) := do
  match (← call.child 1).node with
  | .tree _ _ _ children => return children.map fun child => child.node.copy
  | .absent => return []
  | .leaf _ => throw (.fault .wrongChild)

/-- A program as statements for the position of a call. -/
def asStatements (program : Node) : Folded :=
  match program.children with
  | [] => .removed
  | [single] =>
      match single.kind? with
      | some kind => if kind.isStatement then .instead single else .statements [single]
      | none => .statements [single]
  | nodes => .statements nodes

/-- The names of the arguments in a template. -/
def numbered (index : Nat) : List Node → List (Text × Node)
  | [] => []
  | node :: rest => (.char '$' :: Text.ofString (digitsOf index), node) :: numbered (index + 1) rest

/-- The node of a fold that keeps its root. -/
def rootOf (root : Node) : Folded → Node
  | .same node | .instead node => node
  | _ => root

/-- Expand a template.  The arguments are first put in as they are, and the result
is then folded with the bindings of the call. -/
def expandTemplate (fold : Context → Node → FoldM Folded) (context : Context) (name : Text)
    (template : Text) (args : List Node) : FoldM Folded := do
  let sourceName := Text.ofString "<macro " ++ name ++ Text.ofString ">"
  let program ← FoldM.parse ⟨template, some sourceName, .fragment⟩
  let bound := { context with fragments := context.fragments.insertAll (numbered 0 args) }
  let program := rootOf program (← fold bound program)
  let program := rootOf program (← fold context program)
  return asStatements program

/-- What a fold adds to the result of a macro. -/
def nodesOf : Folded → List Node
  | .removed => []
  | .statements nodes => nodes
  | .same node | .instead node => if node.isAbsent then [] else [node]

mutual

/-- Fold what a macro of the host gives. -/
def foldExpansion (fold : Node → FoldM Folded) (name : Text) (call : Node) :
    Expansion → FoldM Folded
  | .nothing => pure .removed
  | .many items => do return .statements (← foldExpansions fold name call items)
  | .other typeName => FoldM.fail (.expansionNotTree name typeName) call
  | .node .absent => pure .removed
  | .node (.leaf _) => FoldM.fail (.expansionNotTree name "Token") call
  | .node (.tree kind flags place children) => do
      match ← fold (Node.tree kind flags place children).copy with
      | .same node | .instead node =>
          return if node.isKind .program then asStatements node else .instead node
      | folded => return folded

/-- Fold the items that a macro of the host gives. -/
def foldExpansions (fold : Node → FoldM Folded) (name : Text) (call : Node) :
    List Expansion → FoldM (List Node)
  | [] => pure []
  | item :: rest => do
      let first := nodesOf (← foldExpansion fold name call item)
      return first ++ (← foldExpansions fold name call rest)

end

/-- Expand a call of a macro, given how the result is folded. -/
def expandWith (fold : Context → Node → FoldM Folded) : Expander := fun context call name => do
  match context.macros.lookup name with
  | none => return .same call.toNode
  | some (.template text) => expandTemplate fold context name text (← argumentsOf call)
  | some (.host hostName) =>
      let expansion ← FoldM.attempt (context.host.expand hostName (← argumentsOf call))
      foldExpansion (fold context) name call.toNode expansion

/-- Fold a node with a number of expansions left. -/
def foldWithin : (depth : Nat) → Context → Node → FoldM Folded
  | 0, context, node =>
      walk context (fun context call name =>
        FoldM.fail (.expansionTooDeep name context.depthLimit) call.toNode) node
  | depth + 1, context, node => walk context (expandWith (foldWithin depth)) node

/-- The greatest depth limit.  A thousand levels are set aside for the script and forty
for every expansion, and levels are counted in 31 bits. -/
def greatestDepthLimit : Int := (0x7FFFFFFF - 1000) / 40

/-- Fold a program, which stays the same node. -/
def program (context : Context) (node : Node) : FoldM Node := do
  if greatestDepthLimit < context.depthLimit then throw (.fault .tooLarge)
  match ← foldWithin context.depthLimit.toNat context node with
  | .same folded => return folded
  | _ => throw (.fault .rootReplaced)

/-! ### The stack that folding takes -/

/-- The frames that folding a tree takes.  Every level takes the walk, the step behind it, the
fold of a kind and the call that folds a child. -/
def frames (node : Node) : Nat :=
  4 * node.height

/-- The frames of the stack while a program is folded, which is made higher for the expansions. -/
def headroom (depthLimit : Int) : Nat :=
  Stack.limit + 40 * depthLimit.toNat

/-- Fold a program on the stack that is set aside for it. -/
def programOnStack (context : Context) (node : Node) : FoldM Node :=
  if frames node ≤ headroom context.depthLimit then program context node
  else throw (.fault .stackExhausted)

end Fold

end ScriptFold
