import ScriptFold.Fold.Name
import ScriptFold.Value.Method
import ScriptFold.Value.Property

/-!
# Calls and members

Functions of the host are called when all arguments are known; methods of known
values are evaluated, and properties of known values are read.
-/

namespace ScriptFold

namespace Chain

/-- Fold one argument.  Gives the argument and its value if it is known. -/
def argument (walker : Walker) (child : Child Node) : FoldM (Child Node × Option Value) := do
  match child.node with
  | .tree .spread flags place (inner :: rest) =>
      let inner ← Slot.expression walker inner
      return (⟨child.seat, .tree .spread flags place (inner :: rest)⟩, none)
  | .tree .spread _ _ [] => throw (.fault .missingItem)
  | _ =>
      let folded ← Slot.expression walker child
      return (folded, ← Slot.valueOf folded.node)

def arguments (walker : Walker) :
    List (Child Node) → FoldM (List (Child Node) × List (Option Value))
  | [] => pure ([], [])
  | child :: rest => do
      let (first, value) ← argument walker child
      let (others, values) ← arguments walker rest
      return (first :: others, value :: values)

/-- Fold the arguments of a call, its second child; a `new` may have none. -/
def callArguments (walker : Walker) (branch : Branch) :
    FoldM (Child Node × List (Option Value)) := do
  let args ← branch.child 1
  match args.node with
  | .tree kind flags place children =>
      let (children, values) ← arguments walker children
      return (⟨args.seat, .tree kind flags place children⟩, values)
  | .absent => return (args, [])
  | .leaf _ => throw (.fault .wrongChild)

/-- All values, if all are known. -/
def allKnown (values : List (Option Value)) : Option (List Value) :=
  values.mapM id

def callFunction (walker : Walker) (branch : Branch) (name : Text) (hostName : String) :
    FoldM Folded := do
  let (_, values) ← callArguments walker branch
  match allKnown values with
  | none => FoldM.fail (.argumentsNotStatic name) branch.toNode
  | some known =>
      let result ← FoldM.attempt (walker.context.host.call hostName known)
      match ← Slot.nodeOf result with
      | some node => return .instead node
      | none => FoldM.fail (.functionResult name) branch.toNode

/-- Call a method of a known value, if that can be done. -/
def callMethod (walker : Walker) (node : Node) (receiver : Value) (name : Text)
    (values : List (Option Value)) : FoldM (Option Value) := do
  let own :=
    match receiver with
    | .record entries => Value.lookup name entries
    | _ => none
  match own with
  | some (.function hostName) =>
      match allKnown values with
      | none => FoldM.fail (.argumentsNotStatic name) node
      | some known => return some (← FoldM.attempt (walker.context.host.call hostName known))
  | some _ => return none
  | none =>
      match Method.find? receiver name with
      | some method =>
          match allKnown values with
          | none => return none
          | some known =>
              match method known with
              | .ok value => return some value
              | .error (.declined _) => return none
              | .error (.fault fault) => throw (.fault fault)
      | none =>
          match receiver with
          | .record _ =>
              if name.isOneOf Property.ofObjects then return none
              FoldM.fail (.unknownProperty name) node
          | _ => return none

/-- Fold the key of a member or subscript.  Gives the key and the name it reads if
that is known. -/
def memberKey (walker : Walker) (branch : Branch) : FoldM (Child Node × Option Text) := do
  let key ← branch.child 1
  if branch.kind = .member then
    return match key.node with
      | .leaf ⟨.name, text, _⟩ => (key, some text)
      | _ => (key, none)
  let key ← Slot.expression walker key
  match ← Slot.valueOf key.node with
  | none => return (key, none)
  | some value => return (key, ← FoldM.calculate value.propertyKey)

/-- An object that is read, with its value if it is known.  A name bound to a value
is folded only when the read cannot be done. -/
structure Receiver where
  object : Child Node
  value : Option Value
  isFolded : Bool

/-- Look at the object of a member or subscript. -/
def receiver (walker : Walker) (object : Child Node) : FoldM Receiver := do
  match ← Name.value? walker.context object.node with
  | some value => return ⟨object, some value, false⟩
  | none =>
      let folded ← Slot.expression walker object
      return ⟨folded, ← Slot.valueOf folded.node, true⟩

/-- The object of a read that is kept. -/
def Receiver.settle (walker : Walker) (read : Receiver) : FoldM (Child Node) :=
  if read.isFolded then pure read.object else Slot.expression walker read.object

def methodCall (walker : Walker) (branch : Branch) (callee : Child Node) (link : Branch) :
    FoldM Folded := do
  let read ← receiver walker (← link.child 0)
  let (key, name) ← memberKey walker link
  let (args, values) ← callArguments walker branch
  let result ←
    match read.value, name with
    | some value, some name =>
        match ← callMethod walker branch.toNode value name values with
        | some result => pure (some (name, result))
        | none => pure none
    | _, _ => pure none
  match result with
  | some (name, value) =>
      match ← Slot.nodeOf value with
      | some node => return .instead node
      | none => FoldM.fail (.methodResult name) branch.toNode
  | none =>
      let object ← read.settle walker
      let link := Node.tree link.kind link.flags link.place ((link.children.set 0 object).set 1 key)
      return branch.keep ((branch.children.set 0 ⟨callee.seat, link⟩).set 1 args)

def call (walker : Walker) (branch : Branch) : FoldM Folded := do
  let callee ← branch.child 0
  match Name.callee walker.context callee.node with
  | .function name hostName => callFunction walker branch name hostName
  | .expansion name => walker.expand branch name
  | .other =>
      match branch.kind, callee.node with
      | .call, .tree .member flags place children =>
          methodCall walker branch callee ⟨.member, flags, place, children⟩
      | .call, .tree .subscript flags place children =>
          methodCall walker branch callee ⟨.subscript, flags, place, children⟩
      | _, node => do
          let callee ← if node.isKind .ident then pure callee else Slot.expression walker callee
          let (args, _) ← callArguments walker branch
          return branch.keep ((branch.children.set 0 callee).set 1 args)

/-- What reading a property of a known value leaves in place of a member. -/
def readProperty (branch : Branch) (value : Value) (name : Text) : FoldM (Option Node) := do
  if branch.flags.optional && value.isNullish then return some Literal.voidZero
  match ← FoldM.calculate (Property.read value name) with
  | .missing => FoldM.fail (.unknownProperty name) branch.toNode
  | .unknownValue => return none
  | .found property =>
      match ← Slot.nodeOf property with
      | some node => return some node
      | none =>
          FoldM.report (.propertyWithoutLiteral name) branch.toNode
          return none

def member (walker : Walker) (branch : Branch) : FoldM Folded := do
  let read ← receiver walker (← branch.child 0)
  let (key, name) ← memberKey walker branch
  let found ←
    match read.value, name with
    | some value, some name => readProperty branch value name
    | _, _ => pure none
  match found with
  | some node => return .instead node
  | none =>
      let object ← read.settle walker
      return branch.keep ((branch.children.set 0 object).set 1 key)

end Chain

end ScriptFold
