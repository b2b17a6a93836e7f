import ScriptFold.Fold.Name
import ScriptFold.Tree.Basic
import ScriptFold.Tree.Literal

/-!
# The core of a tree

What a tree says apart from where it was read and which parentheses its expressions were
written with; and expressions of one word, calls of a name with one argument and scripts of one
expression, wherever they stand in a text and whatever flags they have.
-/

namespace ScriptFold

namespace Node

/-- Whether parentheses can stand around a node: it is neither a statement nor the member of an
object. -/
def isExpression (node : Node) : Bool :=
  node.kind?.any fun kind => !kind.isStatement && kind != .property

mutual

/-- A node without places, and without parentheses around expressions. -/
def core : Node → Node
  | .absent => .absent
  | .leaf token => .leaf { token with place := none }
  | .tree .paren flags _ (⟨_, inner⟩ :: rest) =>
      let bare := core inner
      if bare.isExpression then bare else .tree .paren flags none (⟨none, bare⟩ :: coreAll rest)
  | .tree kind flags _ children => .tree kind flags none (coreAll children)

/-- Children without places, and without parentheses around expressions. -/
def coreAll : List (Child Node) → List (Child Node)
  | [] => []
  | ⟨_, node⟩ :: rest => ⟨none, core node⟩ :: coreAll rest

end

end Node

/-! ### Expressions of one word -/

/-- An expression of one word. -/
inductive Atom where
  | name (text : Text)
  | literal (type : LeafType) (text : Text)
  | regex (text : Text)

namespace Atom

/-- The kind of node that holds the word. -/
def kind : Atom → Kind
  | .name _ => .ident
  | .literal _ _ => .literal
  | .regex _ => .regex

def type : Atom → LeafType
  | .name _ => .name
  | .literal type _ => type
  | .regex _ => .regex

def text : Atom → Text
  | .name text => text
  | .literal _ text => text
  | .regex text => text

/-- Whether an atom means itself whatever is bound. -/
def isLiteral : Atom → Bool
  | .name _ => false
  | .literal _ _ => true
  | .regex _ => true

end Atom

namespace Node

/-- A node holds one word. -/
inductive IsAtom (atom : Atom) : Node → Prop where
  | intro {flags : Flags} {place : Option Place} {seat : Option Nat} {found : Option LeafPlace} :
      IsAtom atom (.tree atom.kind flags place [⟨seat, .leaf ⟨atom.type, atom.text, found⟩⟩])

/-- A node calls a name with one argument. -/
inductive IsCall (name : Text) (argument : Node → Prop) : Node → Prop where
  | intro {flags argsFlags : Flags} {place argsPlace : Option Place}
      {seat argsSeat argSeat : Option Nat} {callee arg : Node} :
      callee.IsAtom (.name name) → argument arg →
      IsCall name argument (.tree .call flags place
        [⟨seat, callee⟩, ⟨argsSeat, .tree .args argsFlags argsPlace [⟨argSeat, arg⟩]⟩])

inductive IsStatement (expression : Node → Prop) : Node → Prop where
  | intro {flags : Flags} {place : Option Place} {seat : Option Nat} {inner : Node} :
      expression inner → IsStatement expression (.tree .exprStmt flags place [⟨seat, inner⟩])

inductive IsScript (expression : Node → Prop) : Node → Prop where
  | intro {flags : Flags} {place : Option Place} {seat : Option Nat} {statement : Node} :
      statement.IsStatement expression →
      IsScript expression (.tree .program flags place [⟨seat, statement⟩])

theorem IsAtom.copy {atom : Atom} {node : Node} (is : node.IsAtom atom) : node.copy.IsAtom atom := by
  cases is with
  | @intro _ place _ _ => cases place <;> exact .intro

end Node

end ScriptFold

/-!
## Where the nodes of a tree were read

`Placed fits node` says that every place in a tree is as `fits` says.  Nodes that are made
have no place, and copies keep theirs, so what folding puts together is placed as its parts
are.
-/

namespace ScriptFold

/-- Every place in a tree is as wanted. -/
inductive Node.Placed (fits : Place → Prop) : Node → Prop where
  | absent : Placed fits .absent
  | leaf {token : Leaf} : Placed fits (.leaf token)
  | tree {kind : Kind} {flags : Flags} {place : Option Place} {children : List (Child Node)}
      (known : ∀ known, place = some known → fits known)
      (childrenAre : ∀ child, child ∈ children → Placed fits child.node) :
      Placed fits (.tree kind flags place children)

/-- Nodes all of whose places are as wanted. -/
def ArePlaced (fits : Place → Prop) (nodes : List Node) : Prop :=
  ∀ node, node ∈ nodes → node.Placed fits

/-- Children all of whose places are as wanted. -/
def AllPlaced (fits : Place → Prop) (children : List (Child Node)) : Prop :=
  ∀ child, child ∈ children → child.node.Placed fits

variable {fits : Place → Prop} {kind : Kind} {flags : Flags} {place : Option Place}

namespace ArePlaced

variable {node : Node} {nodes others : List Node}

theorem nil : ArePlaced fits [] := by
  simp [ArePlaced]

theorem cons (first : node.Placed fits) (rest : ArePlaced fits nodes) :
    ArePlaced fits (node :: nodes) := by
  simp only [ArePlaced, List.forall_mem_cons]
  exact ⟨first, rest⟩

theorem single (placed : node.Placed fits) : ArePlaced fits [node] :=
  .cons placed .nil

theorem append (first : ArePlaced fits nodes) (second : ArePlaced fits others) :
    ArePlaced fits (nodes ++ others) := by
  intro other there
  rcases List.mem_append.mp there with there | there
  · exact first other there
  · exact second other there

end ArePlaced

namespace AllPlaced

variable {children : List (Child Node)} {child : Child Node}

theorem nil : AllPlaced fits [] := by
  simp [AllPlaced]

theorem cons (first : child.node.Placed fits) (rest : AllPlaced fits children) :
    AllPlaced fits (child :: children) := by
  simp only [AllPlaced, List.forall_mem_cons]
  exact ⟨first, rest⟩

theorem head (all : AllPlaced fits (child :: children)) : child.node.Placed fits :=
  all child List.mem_cons_self

theorem tail (all : AllPlaced fits (child :: children)) : AllPlaced fits children :=
  fun other there => all other (List.mem_cons_of_mem _ there)

theorem append {others : List (Child Node)} (first : AllPlaced fits children)
    (second : AllPlaced fits others) : AllPlaced fits (children ++ others) := by
  intro other there
  rcases List.mem_append.mp there with there | there
  · exact first other there
  · exact second other there

theorem set {index : Nat} (all : AllPlaced fits children) (new : child.node.Placed fits) :
    AllPlaced fits (children.set index child) := by
  intro other there
  rcases List.mem_or_eq_of_mem_set there with there | rfl
  · exact all other there
  · exact new

theorem unseated {nodes : List Node} (all : ArePlaced fits nodes) :
    AllPlaced fits (Node.unseated nodes) := by
  intro child there
  obtain ⟨node, isNode, rfl⟩ := List.mem_map.mp there
  exact all node isNode

theorem nodes (all : AllPlaced fits children) : ArePlaced fits (children.map Child.node) := by
  intro node there
  obtain ⟨child, isChild, rfl⟩ := List.mem_map.mp there
  exact all child isChild

end AllPlaced

namespace Node.Placed

variable {node : Node} {inner others : List (Child Node)}

theorem all (placed : (Node.tree kind flags place inner).Placed fits) :
    AllPlaced fits inner := by
  cases placed with
  | tree _ childrenAre => exact childrenAre

theorem known (placed : (Node.tree kind flags place inner).Placed fits) :
    ∀ known, place = some known → fits known := by
  cases placed with
  | tree known _ => exact known

/-- A tree at the same place with other children. -/
theorem keep {otherKind : Kind} {otherFlags : Flags}
    (placed : (Node.tree kind flags place inner).Placed fits) (all : AllPlaced fits others) :
    (Node.tree otherKind otherFlags place others).Placed fits :=
  .tree placed.known all

/-- A tree without a place. -/
theorem bare (all : AllPlaced fits inner) : (Node.tree kind flags none inner).Placed fits := by
  apply Node.Placed.tree _ all
  intro known isKnown
  cases isKnown

theorem made {nodes : List Node} (all : ArePlaced fits nodes) :
    (Node.made kind nodes).Placed fits :=
  .bare (.unseated all)

theorem children (placed : node.Placed fits) : ArePlaced fits node.children := by
  cases placed with
  | absent | leaf => simp [ArePlaced, Node.children, Node.seated]
  | tree _ childrenAre => exact AllPlaced.nodes childrenAre

theorem child (placed : node.Placed fits) (index : Nat) : (node.child index).Placed fits := by
  rw [Node.child, List.getD_eq_getElem?_getD]
  cases found : node.children[index]? with
  | none => exact .absent
  | some inner => exact placed.children inner (List.mem_of_getElem? found)

theorem childAt {index : Nat} {inner : Node} (placed : node.Placed fits)
    (found : node.childAt index = .ok inner) : inner.Placed fits := by
  cases node with
  | absent | leaf => cases found
  | tree kind flags place children =>
      rw [Node.childAt] at found
      split at found
      case h_1 child isChild =>
        cases found
        exact placed.all child (List.mem_of_getElem? isChild)
      case h_2 => cases found

theorem copy (placed : node.Placed fits) : node.copy.Placed fits := by
  refine Node.copy.induct (fun node => node.Placed fits → node.copy.Placed fits)
    (fun children => AllPlaced fits children → AllPlaced fits (Node.copyAll children))
    ?absent ?leaf ?bare ?tree ?nil ?cons node placed
  case absent | leaf => simp [Node.copy]
  case bare =>
    intro kind flags children induction placed
    exact .bare (induction placed.all)
  case tree =>
    intro kind flags place children induction placed
    exact placed.keep (induction placed.all)
  case nil => simp [Node.copyAll]
  case cons =>
    intro seat node rest nodeIs restAre all
    exact .cons (nodeIs all.head) (restAre all.tail)

/-- Places that are as wanted are also as less is wanted. -/
theorem mono {other : Place → Prop} (placed : node.Placed fits)
    (is : ∀ known, fits known → other known) : node.Placed other := by
  induction placed with
  | absent => exact .absent
  | leaf => exact .leaf
  | tree known _ induction =>
      exact .tree (fun place isPlace => is place (known place isPlace)) induction

end Node.Placed

/-- Nothing is asked of a place. -/
theorem Node.placed_anywhere (node : Node) : node.Placed fun _ => True := by
  refine Node.copy.induct (fun node => node.Placed fun _ => True)
    (AllPlaced fun _ => True) ?absent ?leaf ?bare ?tree ?nil ?cons node
  case absent => exact .absent
  case leaf => exact fun _ => .leaf
  case bare => exact fun _ _ _ all => .bare all
  case tree => exact fun _ _ _ _ all => .tree (fun _ _ => trivial) all
  case nil => exact .nil
  case cons => exact fun _ _ _ nodeIs restAre => .cons nodeIs restAre

theorem ofWord_placed (type : LeafType) (text : Text) : (Literal.ofWord type text).Placed fits :=
  .made (.single .leaf)

theorem voidZero_placed : Literal.voidZero.Placed fits :=
  .made (.cons .leaf (.single (ofWord_placed _ _)))

theorem makesLiterals_placed : MakesLiterals (Node.Placed fits) := by
  refine ⟨ofWord_placed, voidZero_placed, fun _ => .made, fun members membersAre => .made ?_⟩
  intro member there
  obtain ⟨key, value, rfl, placed⟩ := membersAre member there
  exact .made (.cons (ofWord_placed _ _) (.single placed))

end ScriptFold
