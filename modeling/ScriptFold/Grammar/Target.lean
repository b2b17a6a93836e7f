import ScriptFold.Grammar.Reading

/-!
# Assignment targets

An expression that turns out to stand before an assignment is read again as a
target: object and array literals become patterns.
-/

namespace ScriptFold

namespace Grammar

/-- The shorthand property of a pattern: the name is both key and target. -/
def shorthandTarget (property ident name : Node) : Node :=
  let target := reshape ident .binding [name]
  match reshape property .patternProperty [name, target] with
  | .tree kind flags place children => .tree kind { flags with shorthand := true } place children
  | node => node

mutual

/-- An expression as a target.  A name inside a pattern becomes a binding, and an
assignment inside a pattern a default. -/
def toTarget (nested : Bool) : Node → Except ParseError Node
  | .tree .object flags place members => do
      let members' ← toProperties members
      return reshape (.tree .object flags place members) .objectPattern members'
  | .tree .array flags place elements => do
      let elements' ← toElements elements
      return reshape (.tree .array flags place elements) .arrayPattern elements'
  | .tree .assign flags place [⟨s, target⟩, ⟨t, op⟩, ⟨u, value⟩] => do
      let node := Node.tree .assign flags place [⟨s, target⟩, ⟨t, op⟩, ⟨u, value⟩]
      if nested && (op.leafText?.any fun text => text.isString "=") then
        return reshape node .assignPattern [← toTarget true target, value]
      return node
  | .tree .ident flags place children =>
      let node := Node.tree .ident flags place children
      .ok (if nested then reshape node .binding node.children else node)
  | node => .ok node

/-- The members of an object literal as the properties of a pattern. -/
def toProperties : List (Child Node) → Except ParseError (List Node)
  | [] => .ok []
  | ⟨_, .tree .property flags place [⟨s, key⟩, ⟨t, value⟩]⟩ :: rest => do
      let property := Node.tree .property flags place [⟨s, key⟩, ⟨t, value⟩]
      let first := reshape property .patternProperty [key, ← toTarget true value]
      return first :: (← toProperties rest)
  | ⟨_, .tree .shorthandProperty flags place [⟨s, ident⟩]⟩ :: rest => do
      let property := Node.tree .shorthandProperty flags place [⟨s, ident⟩]
      let first := shorthandTarget property ident (ident.child 0)
      return first :: (← toProperties rest)
  | ⟨_, .tree .spread flags place [⟨s, value⟩]⟩ :: rest => do
      let spread := Node.tree .spread flags place [⟨s, value⟩]
      let first := reshape spread .rest [← toTarget true value]
      return first :: (← toProperties rest)
  | _ :: _ => .error .invalidDestructuring

/-- The elements of an array literal as the elements of a pattern. -/
def toElements : List (Child Node) → Except ParseError (List Node)
  | [] => .ok []
  | ⟨_, .tree .spread flags place [⟨s, value⟩]⟩ :: rest => do
      let spread := Node.tree .spread flags place [⟨s, value⟩]
      let first := reshape spread .rest [← toTarget true value]
      return first :: (← toElements rest)
  | ⟨_, node⟩ :: rest => do
      let first ← toTarget true node
      return first :: (← toElements rest)

end

/-- Take an expression that was read as a target. -/
def asTarget (node : Node) : Reader Node := do
  match toTarget false node with
  | .ok target => return target
  | .error cause => failAt cause (← current)

end Grammar

end ScriptFold
