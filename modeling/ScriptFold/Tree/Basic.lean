import ScriptFold.Fault
import ScriptFold.Text.Quoted
import ScriptFold.Tree.Kind

/-!
# Script trees

A tree node has a kind, flags and children; a leaf holds one token.  A node that
was read from a text also knows its place: the text, the stretch it covers and
where its children stood when it was read.

Each child carries a *seat*.  A seat says that this child is still the very node
that stood at that position when the parent was read, so a node all of whose
children sit in their own seats, all the way down, reads exactly as its stretch
of the text.  A node that is put in a new position has no seat there.
-/

namespace ScriptFold

inductive LeafType where
  | name | privateName | op | assignOp | declKind | templateChunk | raw
  | number | bigint | string | trueWord | falseWord | nullWord | regex
  | other (name : String)
  deriving DecidableEq, Repr, Inhabited

namespace LeafType

/-- The leaf types that have a meaning of their own, with their names. -/
def named : List (LeafType × String) := [
  (.name, "NAME"), (.privateName, "PRIVATE_NAME"), (.op, "OP"), (.assignOp, "ASSIGN_OP"),
  (.declKind, "KIND"), (.templateChunk, "TEMPLATE_CHUNK"), (.raw, "RAW"), (.number, "NUMBER"),
  (.bigint, "BIGINT"), (.string, "STRING"), (.trueWord, "TRUE"), (.falseWord, "FALSE"),
  (.nullWord, "NULL"), (.regex, "REGEX")]

def toName : LeafType → String
  | .other label => label
  | type => (named.lookup type).getD ""

def ofName (label : String) : LeafType :=
  match named.find? fun entry => entry.2 == label with
  | some entry => entry.1
  | none => .other label

end LeafType

/-- Where a leaf stands in its text.  The end may be left out. -/
structure LeafPlace where
  start : Nat
  line : Nat
  column : Nat
  stop : Option Nat
  endLine : Option Nat
  endColumn : Option Nat
  deriving DecidableEq, Repr, Inhabited

/-- One token of a tree. -/
structure Leaf where
  type : LeafType
  text : Text
  place : Option LeafPlace
  deriving DecidableEq, Inhabited

/-- Properties of a node that its children do not show. -/
structure Flags where
  isAsync : Bool := false
  isGenerator : Bool := false
  isStatic : Bool := false
  isAwait : Bool := false
  delegate : Bool := false
  optional : Bool := false
  shorthand : Bool := false
  methodKind : Option String := none
  deriving DecidableEq, Repr, Inhabited

/-- Which text a source is: the script, or a fragment that bindings bring in. -/
inductive SourceRole where
  | script
  | fragment
  deriving DecidableEq, Repr, Inhabited

/-- A text that trees are read from. -/
structure Source where
  text : Text
  name : Option Text
  role : SourceRole
  deriving DecidableEq, Inhabited

/-- A stretch of a text: offsets, and the line and column of both ends. -/
structure Span where
  start : Nat
  stop : Nat
  line : Nat
  column : Nat
  endLine : Nat
  endColumn : Nat
  deriving DecidableEq, Repr, Inhabited

/-- A child as it stood when its parent was read. -/
inductive FormerChild where
  | absent
  | present (start stop : Option Nat)
  deriving DecidableEq, Repr, Inhabited

/-- Where a node was read. -/
structure Place where
  source : Source
  span : Span
  former : List FormerChild
  deriving DecidableEq, Inhabited

/-- A child in its parent, with the seat it keeps. -/
structure Child (α : Type) where
  seat : Option Nat
  node : α
  deriving Inhabited

/-- A node of a script tree, or the absence of one. -/
inductive Node where
  | absent
  | leaf (token : Leaf)
  | tree (kind : Kind) (flags : Flags) (place : Option Place) (children : List (Child Node))
  deriving Inhabited

namespace Node

def kind? : Node → Option Kind
  | .tree kind _ _ _ => some kind
  | _ => none

def isKind (node : Node) (kind : Kind) : Bool :=
  node.kind? == some kind

/-- Whether a node is a tree of one of these kinds. -/
def isOneOf (node : Node) (kinds : List Kind) : Bool :=
  kinds.any node.isKind

/-- Whether there is no node. -/
def isAbsent : Node → Bool
  | .absent => true
  | _ => false

def isTree : Node → Bool
  | .tree _ _ _ _ => true
  | _ => false

/-- The children of a node with their seats. -/
def seated : Node → List (Child Node)
  | .tree _ _ _ children => children
  | _ => []

def children (node : Node) : List Node :=
  node.seated.map Child.node

/-- The child at an index, absent if there is none. -/
def child (node : Node) (index : Nat) : Node :=
  node.children.getD index .absent

/-- The child at an index of a tree, which must be there. -/
def childAt (node : Node) (index : Nat) : Except Fault Node :=
  match node with
  | .tree _ _ _ children =>
      match children[index]? with
      | some child => .ok child.node
      | none => .error .missingItem
  | _ => .error .wrongChild

def flags : Node → Flags
  | .tree _ flags _ _ => flags
  | _ => {}

/-- Where a tree node was read. -/
def place? : Node → Option Place
  | .tree _ _ place _ => place
  | _ => none

def leafText? : Node → Option Text
  | .leaf token => some token.text
  | _ => none

mutual

/-- A node as it is shown inside the description of another. -/
def listing : Node → String
  | .absent => "None"
  | .leaf token =>
      "Token(" ++ (Text.ofString token.type.toName).quoted ++ ", " ++ token.text.quoted ++ ")"
  | .tree kind _ _ children =>
      "Tree(" ++ (Text.ofString kind.name).quoted ++ ", ["
        ++ String.intercalate ", " (listings children) ++ "])"

/-- Some nodes as they are shown inside the description of another. -/
def listings : List (Child Node) → List String
  | [] => []
  | ⟨_, node⟩ :: rest => listing node :: listings rest

end

/-- What a node is called where a word is wanted: the text of a leaf, and for any other
node a listing of all that is in it. -/
def description : Node → Text
  | .leaf token => token.text
  | node => node.listing

/-- Children without seats. -/
def unseated (nodes : List Node) : List (Child Node) :=
  nodes.map fun node => ⟨none, node⟩

/-- Children that sit where they are, counted from `index`. -/
def seatFrom (index : Nat) : List Node → List (Child Node)
  | [] => []
  | node :: rest => ⟨some index, node⟩ :: seatFrom (index + 1) rest

/-- A leaf without a place. -/
def word (type : LeafType) (text : Text) : Node :=
  .leaf ⟨type, text, none⟩

/-- A node without a place. -/
def made (kind : Kind) (children : List Node) : Node :=
  .tree kind {} none (unseated children)

/-- The offsets at which a node starts and stops, as far as it has them. -/
def extent : Node → Option Nat × Option Nat
  | .leaf token => (token.place.map LeafPlace.start, token.place.bind LeafPlace.stop)
  | .tree _ _ (some place) _ => (some place.span.start, some place.span.stop)
  | _ => (none, none)

/-- The record of a child as it stands now. -/
def toFormer (node : Node) : FormerChild :=
  match node with
  | .absent => .absent
  | node => .present node.extent.1 node.extent.2

/-- A node read from a text, its children in their seats. -/
def read (kind : Kind) (flags : Flags) (source : Source) (span : Span) (children : List Node) :
    Node :=
  .tree kind flags (some ⟨source, span, children.map toFormer⟩) (seatFrom 0 children)

/-- Take the present children of a node as the ones that were read. -/
def settle : Node → Node
  | .tree kind flags (some place) children =>
      let nodes := children.map Child.node
      .read kind flags place.source place.span nodes
  | node => node

/-- The line and column of a node, as far as it has a place. -/
def position? : Node → Option (Nat × Nat)
  | .leaf token => token.place.map fun place => (place.line, place.column)
  | .tree _ _ (some place) _ => some (place.span.line, place.span.column)
  | _ => none

mutual

/-- Whether a node is just as it was read, all the way down. -/
def isClean : Node → Bool
  | .absent => true
  | .leaf _ => true
  | .tree _ _ none _ => false
  | .tree _ _ (some place) children =>
      place.former.length == children.length && areClean 0 place.former children

/-- Whether children sit in their own seats, counted from `index`, and are clean. -/
def areClean (index : Nat) : List FormerChild → List (Child Node) → Bool
  | former :: formers, ⟨seat, node⟩ :: children =>
      (match former, node with
        | .absent, .absent => true
        | _, _ => seat == some index)
        && isClean node && areClean (index + 1) formers children
  | _, _ => true

end

/-- Expressions whose first child stands leftmost in their text. -/
def isLeftHeavy : Kind → Bool
  | .binary | .logical | .conditional | .assign | .sequence | .member | .subscript | .call
  | .postfixUpdate | .taggedTemplate => true
  | _ => false

/-- The innermost node that begins the text of an expression. -/
def leftmost : Node → Node
  | .absent => .absent
  | .leaf token => .leaf token
  | .tree kind flags place [] => .tree kind flags place []
  | .tree kind flags place (⟨seat, first⟩ :: rest) =>
      if isLeftHeavy kind && !first.isAbsent then leftmost first
      else .tree kind flags place (⟨seat, first⟩ :: rest)

mutual

/-- A copy of a node.  A node without a place does not hand its flags on. -/
def copy : Node → Node
  | .absent => .absent
  | .leaf token => .leaf token
  | .tree kind _ none children => .tree kind {} none (copyAll children)
  | .tree kind flags (some place) children => .tree kind flags (some place) (copyAll children)

/-- Copies of children, each in its seat. -/
def copyAll : List (Child Node) → List (Child Node)
  | [] => []
  | ⟨seat, node⟩ :: rest => ⟨seat, copy node⟩ :: copyAll rest

end

mutual

/-- The number of levels of a tree. -/
def height : Node → Nat
  | .absent => 0
  | .leaf _ => 0
  | .tree _ _ _ children => heightAll children + 1

/-- The greatest height of some children. -/
def heightAll : List (Child Node) → Nat
  | [] => 0
  | ⟨_, node⟩ :: rest => max (height node) (heightAll rest)

end

end Node

/-! ### Heights -/

theorem height_le_heightAll {child : Child Node} {children : List (Child Node)}
    (there : child ∈ children) : child.node.height ≤ Node.heightAll children := by
  induction children with
  | nil => cases there
  | cons first rest induction =>
      rw [Node.heightAll]
      cases there with
      | head => exact Nat.le_max_left _ _
      | tail _ there => exact Nat.le_trans (induction there) (Nat.le_max_right _ _)

theorem height_lt_of_mem {kind : Kind} {flags : Flags} {place : Option Place}
    {child : Child Node} {children : List (Child Node)} (there : child ∈ children) :
    child.node.height < (Node.tree kind flags place children).height := by
  rw [Node.height]
  exact Nat.lt_succ_of_le (height_le_heightAll there)

theorem height_lt_of_mem_inner {kind innerKind : Kind} {flags innerFlags : Flags}
    {place innerPlace : Option Place} {seat : Option Nat} {child : Child Node}
    {inner children : List (Child Node)} (there : child ∈ inner)
    (innerThere : ⟨seat, .tree innerKind innerFlags innerPlace inner⟩ ∈ children) :
    child.node.height < (Node.tree kind flags place children).height :=
  Nat.lt_trans (height_lt_of_mem there) (height_lt_of_mem innerThere)

theorem height_lt_of_mem_unseated {kind : Kind} {flags : Flags} {place : Option Place}
    {node : Node} {nodes : List Node} (there : node ∈ nodes) :
    node.height < (Node.tree kind flags place (Node.unseated nodes)).height := by
  have seated : ⟨none, node⟩ ∈ Node.unseated nodes := List.mem_map_of_mem there
  exact height_lt_of_mem seated

end ScriptFold
