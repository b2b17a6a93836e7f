import ScriptFold.Tree.Basic

/-!
# Editing trees

Access to a node by the path of child indices that leads to it.
-/

namespace ScriptFold

namespace Node

def atPath (node : Node) : List Nat → Except Fault Node
  | [] => .ok node
  | index :: rest => do atPath (← node.childAt index) rest

/-- Change the node at the end of a path; the nodes on the way keep their seats. -/
def modifyAt (change : Node → Node) : List Nat → Node → Node
  | [], node => change node
  | index :: rest, .tree kind flags place children =>
      .tree kind flags place
        (children.modify index fun child => ⟨child.seat, modifyAt change rest child.node⟩)
  | _, node => node

/-- Put a node at an index of the children. -/
def putChild (index : Nat) (new : Node) : Node → Node
  | .tree kind flags place children => .tree kind flags place (children.set index ⟨none, new⟩)
  | node => node

/-- Put a node at the end of a path, which must lead to a child. -/
def putAt (node : Node) (path : List Nat) (new : Node) : Except Fault Node := do
  match path.getLast? with
  | some index =>
      let _ ← node.atPath path
      return modifyAt (putChild index new) path.dropLast node
  | none => throw .missingItem

/-- Take the present children as the ones read, for the parent of the end of a path. -/
def settleAt (node : Node) (path : List Nat) : Node :=
  modifyAt settle path.dropLast node

end Node

end ScriptFold
