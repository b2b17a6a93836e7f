import ScriptFold.Fault
import ScriptFold.Fold.Name
import ScriptFold.Tree.Basic
import ScriptFold.Value.Operator

/-!
# Positions and what may stand in them

Every position among the children of a node has a role: a word, an operand, a statement
of a list and so on.  `Kind.role` is the table of all positions of all kinds.
-/

namespace ScriptFold

/-- What a position among the children of a node is for. -/
inductive Role where
  /-- A word, or nothing. -/
  | word
  /-- The operator of a logical expression. -/
  | logicalOp
  /-- A node that is never folded. -/
  | inert
  /-- A property key. -/
  | key
  /-- An expression or a part of a pattern.  Some positions may be left empty, and some may
  hold a tree of one of a few other kinds instead. -/
  | operand (optional : Bool) (also : List Kind)
  /-- What is called or constructed. -/
  | callee
  /-- A name that is both key and value. -/
  | name
  /-- The template behind a tag. -/
  | quasi
  /-- One of a list of statements. -/
  | listed
  /-- A tree of one kind, or nothing. -/
  | only (kind : Kind)
  | any
  /-- There is no such position. -/
  | nothing
  deriving DecidableEq, Repr

namespace Role

/-- An operand that is always there. -/
abbrev required : Role := .operand false []

/-- An operand that may be left out. -/
abbrev optional : Role := .operand true []

/-- Roles by position: those of the first positions, and the one of all further ones. -/
def row (first : List Role) (rest : Role) (index : Nat) : Role :=
  first.getD index rest

/-- Roles of positions that hold an expression or a part of a pattern. -/
def isOperand : Role → Bool
  | .operand _ _ | .callee => true
  | _ => false

/-- Roles of positions whose node folding leaves as it is. -/
def isFixed : Role → Bool
  | .word | .logicalOp | .inert | .nothing => true
  | _ => false

end Role

/-- The role of a position among the children of a node of some kind. -/
def Kind.role : Kind → Nat → Role
  | .literal | .regex | .thisExpr | .superExpr | .metaProperty | .binding | .emptyStmt
  | .breakStmt | .continueStmt | .debuggerStmt | .importDecl | .exportNamed | .exportAll =>
      Role.row [] .word
  | .ident => Role.row [.word] .nothing
  | .paren | .exprStmt | .throwStmt | .awaitExpr | .spread | .computedKey | .importCall
  | .rest => Role.row [.required] .nothing
  | .shorthandProperty => Role.row [.name] .nothing
  | .returnStmt | .yieldExpr => Role.row [.optional] .nothing
  | .sequence | .args | .params | .objectPattern => Role.row [] .required
  | .array | .arrayPattern => Role.row [] .optional
  | .template => fun index => if index % 2 = 0 then .word else .required
  | .taggedTemplate => Role.row [.required, .quasi] .nothing
  | .exportDefault => Role.row [.operand false [.functionDecl, .classDecl]] .nothing
  | .exportDecl | .staticBlock => Role.row [.any] .nothing
  | .labeledStmt => Role.row [.word, .any] .nothing
  | .withStmt | .whileStmt => Role.row [.required, .any] .nothing
  | .program | .block => Role.row [] .listed
  | .switchCase => Role.row [.optional] .listed
  | .switchStmt => Role.row [.required] (.only .switchCase)
  | .binary | .assign => Role.row [.required, .word, .required] .nothing
  | .logical => Role.row [.required, .logicalOp, .required] .nothing
  | .unary | .prefixUpdate => Role.row [.word, .required] .nothing
  | .postfixUpdate | .member => Role.row [.required, .word] .nothing
  | .conditional => Role.row [.required, .required, .required] .nothing
  | .ifStmt => Role.row [.required, .any, .any] .nothing
  | .doWhileStmt => Role.row [.any, .required] .nothing
  | .forStmt => Role.row [.operand true [.varDecl], .optional, .optional, .any] .nothing
  | .forInStmt | .forOfStmt =>
      Role.row [.operand true [.varDecl], .required, .any] .nothing
  | .call | .newExpr => Role.row [.callee, .only .args] .nothing
  | .subscript | .assignPattern => Role.row [.required, .required] .nothing
  | .varDecl => Role.row [.word] (.only .declarator)
  | .declarator => Role.row [.any, .optional] .nothing
  | .functionDecl | .functionExpr => Role.row [.inert, .any, .any] .nothing
  | .arrow => Role.row [.any, .operand false [.block]] .nothing
  | .classDecl | .classExpr => Role.row [.inert, .optional, .any] .nothing
  | .classBody | .object | .tryStmt | .catchClause => Role.row [] .any
  | .method => Role.row [.key, .any, .any] .nothing
  | .classField => Role.row [.key, .optional] .nothing
  | .property | .patternProperty => Role.row [.key, .required] .nothing
  | .other _ => Role.row [] .nothing

namespace Node

/-- Whether a node is a tree that is no statement. -/
def isOperand (node : Node) : Bool :=
  node.kind?.any fun kind => !kind.isStatement

/-- Whether a node is a tree of a statement kind. -/
def isStatement (node : Node) : Bool :=
  node.kind?.any Kind.isStatement

/-- Whether a node is one that is never folded. -/
def isInert (node : Node) : Bool :=
  node.kind?.all fun kind => kind.category? == some .leaf

end Node

def logicalSpellings : List Text :=
  ["&&", "||", "??"].map Text.ofString

namespace Role

/-- What readers put in a position of this role. -/
def admits : Role → Node → Prop
  | .word, node => node.isTree = false
  | .logicalOp, node => ∃ token, node = .leaf token ∧ token.text ∈ logicalSpellings
  | .inert, node => node.isInert = true
  | .key, node => node.isInert = true ∨ node.kind? = some .computedKey
  | .operand optional also, node =>
      node.isOperand = true ∨ (optional = true ∧ node = .absent) ∨
        ∃ kind, kind ∈ also ∧ node.kind? = some kind
  | .callee, node => node.isOperand = true
  | .name, node => node.kind? = some .ident
  | .quasi, node => node.kind? = some .template
  | .listed, node => node.isStatement = true ∧ node.kind? ≠ some .program
  | .only kind, node => node.kind? = some kind ∨ node = .absent
  | .any, _ => True
  | .nothing, _ => False

/-- Nodes that stay in a position of this role although they could be folded elsewhere: a
name that is called, and a template behind a tag. -/
def exempts : Role → Node → Bool
  | .callee, node => node.isKind .ident
  | .quasi, node => node.isKind .template
  | _, _ => false

end Role

/-- A child that is as it was read: nothing where nothing was, or the very node that stood
there. -/
def Child.IsKept (place : Option Place) (index : Nat) (child : Child Node) : Prop :=
  match child.node with
  | .absent => place.bind (fun known => known.former[index]?) = some .absent
  | _ => child.seat = some index

end ScriptFold

/-!
## Well-formed trees

A tree is formed if every child fits its position.  How much fitting asks for is a law:
the loosest one asks for what readers build, and stricter ones also that lists of
statements are tidy and that nothing is left that folding would have folded.
-/

namespace ScriptFold

/-- A node that is a literal all the way down. -/
def IsConstant (node : Node) : Prop :=
  ∃ value, Literal.value? node = .ok (some value)

def IsFalsy (node : Node) : Prop :=
  ∃ value, Literal.value? node = .ok (some value) ∧ value.isTruthy = false

/-- A node that could still be folded, if some names are bound to values with a literal. -/
inductive Residue (bound : Text → Prop) : Node → Prop where
  | binary {flags : Flags} {place : Option Place} {left op right : Child Node} {known : BinaryOp}
      (isKnown : BinaryOp.ofText? op.node.description = some known)
      (leftIs : IsConstant left.node) (rightIs : IsConstant right.node) :
      Residue bound (.tree .binary flags place [left, op, right])
  | unary {flags : Flags} {place : Option Place} {op operand : Child Node} {known : UnaryOp}
      (isKnown : UnaryOp.ofText? op.node.description = some known)
      (operandIs : IsConstant operand.node) :
      Residue bound (.tree .unary flags place [op, operand])
  | logical {flags : Flags} {place : Option Place} {left op right : Child Node}
      (leftIs : IsConstant left.node) :
      Residue bound (.tree .logical flags place [left, op, right])
  | conditional {flags : Flags} {place : Option Place} {test : Child Node}
      {branches : List (Child Node)} (testIs : IsConstant test.node) :
      Residue bound (.tree .conditional flags place (test :: branches))
  | ifStatement {flags : Flags} {place : Option Place} {test : Child Node}
      {branches : List (Child Node)} (testIs : IsConstant test.node) :
      Residue bound (.tree .ifStmt flags place (test :: branches))
  | whileLoop {flags : Flags} {place : Option Place} {test : Child Node}
      {body : List (Child Node)} (testIs : IsFalsy test.node) :
      Residue bound (.tree .whileStmt flags place (test :: body))
  | forLoop {flags : Flags} {place : Option Place} {initial test : Child Node}
      {rest : List (Child Node)} (testIs : IsFalsy test.node) :
      Residue bound (.tree .forStmt flags place (initial :: test :: rest))
  | template {flags : Flags} {place : Option Place} {parts : List (Child Node)}
      (substituted : 1 < parts.length)
      (partsAre : ∀ index part, parts[index]? = some part → index % 2 = 1 → IsConstant part.node) :
      Residue bound (.tree .template flags place parts)
  | name {flags : Flags} {place : Option Place} {children : List (Child Node)} {name : Text}
      (named : Name.of? (.tree .ident flags place children) = some name)
      (isBound : bound name) :
      Residue bound (.tree .ident flags place children)

/-- The kinds of nodes that can be folded to something else. -/
def Kind.isFoldable : Kind → Bool
  | .binary | .unary | .logical | .conditional | .ifStmt | .whileStmt | .forStmt | .template
  | .ident => true
  | _ => false

theorem Residue.isFoldable {bound : Text → Prop} {node : Node} (residue : Residue bound node) :
    node.kind?.any Kind.isFoldable = true := by
  cases residue <;> rfl

/-- What a tree is held to beyond the shape that readers build. -/
structure Law where
  /-- Lists of statements hold no empty statement, no empty block and no program. -/
  tidy : Prop
  /-- Nothing is left that could be folded. -/
  folded : Prop
  /-- The names that are bound to values with a literal. -/
  bound : Text → Prop
  /-- What is known where the law is kept. -/
  premise : Prop

namespace Law

/-- The law that asks for nothing. -/
def loose : Law := ⟨False, False, fun _ => False, True⟩

/-- What a law does not allow to be left. -/
def forbids (law : Law) (node : Node) : Prop :=
  law.folded ∧ Residue law.bound node

theorem not_forbids_of_kind {law : Law} {node : Node}
    (notFoldable : node.kind?.any Kind.isFoldable = false) : ¬ law.forbids node := by
  rintro ⟨_, residue⟩
  rw [residue.isFoldable] at notFoldable
  cases notFoldable

theorem not_loose_forbids {node : Node} : ¬ loose.forbids node :=
  fun forbidden => forbidden.1

end Law

structure Fits (law : Law) (role : Role) (place : Option Place) (index : Nat)
    (child : Child Node) : Prop where
  admitted : role.admits child.node
  /-- Where an operand stands, anything else is still what was read there. -/
  kept : role.isOperand = true → child.node.isOperand = true ∨ child.IsKept place index
  tidy : law.tidy → role = .listed → Slot.staysWhole child.node = true
  folded : law.forbids child.node → role.exempts child.node = true

/-- A tree all of whose children fit their positions, all the way down. -/
inductive Formed (law : Law) : Node → Prop where
  | absent : Formed law .absent
  | leaf {token : Leaf} : Formed law (.leaf token)
  | tree {kind : Kind} {flags : Flags} {place : Option Place} {children : List (Child Node)}
      (fit : ∀ index child, children[index]? = some child →
        Fits law (kind.role index) place index child)
      (formed : ∀ child, child ∈ children → Formed law child.node) :
      Formed law (.tree kind flags place children)

/-- A formed child that fits its position in a node of some kind. -/
structure Slotted (law : Law) (kind : Kind) (place : Option Place) (index : Nat)
    (child : Child Node) : Prop where
  fits : Fits law (kind.role index) place index child
  formed : Formed law child.node

variable {law : Law} {kind : Kind} {flags : Flags} {place : Option Place}

theorem Formed.slotted {children : List (Child Node)} {index : Nat} {child : Child Node}
    (formed : Formed law (.tree kind flags place children))
    (found : children[index]? = some child) : Slotted law kind place index child := by
  cases formed with
  | tree fit formed => exact ⟨fit index child found, formed child (List.mem_of_getElem? found)⟩

/-- Children that fit the positions from `start` on. -/
def SlottedFrom (law : Law) (kind : Kind) (place : Option Place) (start : Nat)
    (children : List (Child Node)) : Prop :=
  ∀ index child, children[index]? = some child → Slotted law kind place (start + index) child

theorem SlottedFrom.nil {start : Nat} : SlottedFrom law kind place start [] := by
  intro index child found
  cases found

theorem SlottedFrom.cons {start : Nat} {child : Child Node} {rest : List (Child Node)}
    (childIs : Slotted law kind place start child)
    (restAre : SlottedFrom law kind place (start + 1) rest) :
    SlottedFrom law kind place start (child :: rest) := by
  intro index other found
  cases index with
  | zero =>
      cases found
      exact childIs
  | succ index =>
      rw [List.getElem?_cons_succ] at found
      have slotted := restAre index other found
      rwa [Nat.add_right_comm, Nat.add_assoc] at slotted

theorem SlottedFrom.head {start : Nat} {child : Child Node} {rest : List (Child Node)}
    (slotted : SlottedFrom law kind place start (child :: rest)) :
    Slotted law kind place start child :=
  slotted 0 child rfl

theorem SlottedFrom.tail {start : Nat} {child : Child Node} {rest : List (Child Node)}
    (slotted : SlottedFrom law kind place start (child :: rest)) :
    SlottedFrom law kind place (start + 1) rest := by
  intro index other found
  have there := slotted (index + 1) other (by rwa [List.getElem?_cons_succ])
  rwa [Nat.add_right_comm, Nat.add_assoc]

theorem formed_iff_slotted {children : List (Child Node)} :
    Formed law (.tree kind flags place children) ↔ SlottedFrom law kind place 0 children := by
  constructor
  · intro formed index child found
    rw [Nat.zero_add]
    exact formed.slotted found
  · intro slotted
    refine .tree (fun index child found => ?_) fun child there => ?_
    · have there := slotted index child found
      rw [Nat.zero_add] at there
      exact there.fits
    · obtain ⟨index, found⟩ := List.mem_iff_getElem?.mp there
      exact (slotted index child found).formed

theorem Formed.children {children : List (Child Node)} {child : Child Node}
    (formed : Formed law (.tree kind flags place children)) (there : child ∈ children) :
    Formed law child.node := by
  cases formed with
  | tree fit formed => exact formed child there

theorem Formed.of_flags {other : Flags} {children : List (Child Node)}
    (formed : Formed law (.tree kind flags place children)) :
    Formed law (.tree kind other place children) :=
  formed_iff_slotted.mpr (formed_iff_slotted.mp formed)

/-- A formed node that has nothing left to fold. -/
structure Good (law : Law) (node : Node) : Prop where
  formed : Formed law node
  folded : ¬ law.forbids node

theorem Good.absent : Good law .absent :=
  ⟨.absent, Law.not_forbids_of_kind rfl⟩

theorem Formed.good {node : Node} (formed : Formed law node)
    (notFoldable : node.kind?.any Kind.isFoldable = false) : Good law node :=
  ⟨formed, Law.not_forbids_of_kind notFoldable⟩

theorem Slotted.good {index : Nat} {child : Child Node}
    (slotted : Slotted law kind place index child)
    (notExempt : (kind.role index).exempts child.node = false) : Good law child.node := by
  refine ⟨slotted.formed, fun forbidden => ?_⟩
  rw [slotted.fits.folded forbidden] at notExempt
  cases notExempt

/-! ### Looser laws -/

/-- A tree that keeps a law keeps every law that asks for less. -/
theorem Formed.mono {other : Law} {node : Node} (tidy : other.tidy → law.tidy)
    (forbids : ∀ node, other.forbids node → law.forbids node) (formed : Formed law node) :
    Formed other node := by
  induction formed with
  | absent => exact .absent
  | leaf => exact .leaf
  | tree fit formed induction =>
      refine .tree (fun index child found => ?_) induction
      have fits := fit index child found
      exact ⟨fits.admitted, fits.kept, fun isTidy => fits.tidy (tidy isTidy),
        fun forbidden => fits.folded (forbids child.node forbidden)⟩

theorem Formed.loosen {node : Node} (formed : Formed law node) : Formed .loose node :=
  formed.mono nofun fun _ forbidden => absurd forbidden Law.not_loose_forbids

/-! ### What folding leaves as it is -/

theorem formed_of_not_isTree {node : Node} (notTree : node.isTree = false) : Formed law node := by
  cases node with
  | absent => exact .absent
  | leaf => exact .leaf
  | tree => cases notTree

theorem kind?_of_not_isTree {node : Node} (notTree : node.isTree = false) : node.kind? = none := by
  cases node with
  | absent | leaf => rfl
  | tree => cases notTree

theorem isInert_of_not_isTree {node : Node} (notTree : node.isTree = false) :
    node.isInert = true := by
  rw [Node.isInert, kind?_of_not_isTree notTree]
  rfl

theorem not_isFoldable_of_isInert {node : Node} (inert : node.isInert = true) :
    node.kind?.any Kind.isFoldable = false := by
  rw [Node.isInert] at inert
  cases isKind : node.kind? with
  | none => rfl
  | some kind =>
      rw [isKind] at inert
      cases kind <;> first | rfl | cases inert

/-- The positions of a node that is never folded hold words. -/
theorem role_of_leaf {kind : Kind} (isLeaf : kind.category? = some .leaf) (index : Nat) :
    kind.role index = .word := by
  cases kind <;> first | rfl | cases isLeaf

/-- A child in a position that folding leaves alone fits it under every law. -/
theorem Slotted.fixed_word {index : Nat} {child : Child Node}
    (slotted : Slotted .loose kind place index child) (isWord : kind.role index = .word) :
    Slotted law kind place index child := by
  have admitted := slotted.fits.admitted
  rw [isWord] at admitted
  refine ⟨⟨?_, ?_, ?_, ?_⟩, formed_of_not_isTree admitted⟩
  · rw [isWord]
    exact admitted
  · rw [isWord]
    nofun
  · rw [isWord]
    nofun
  · exact fun forbidden => absurd forbidden (Law.not_forbids_of_kind
      (not_isFoldable_of_isInert (isInert_of_not_isTree admitted)))

theorem Formed.of_inert {node : Node} (formed : Formed .loose node) (inert : node.isInert = true) :
    Formed law node := by
  cases node with
  | absent => exact .absent
  | leaf => exact .leaf
  | tree kind flags place children =>
      have isLeaf : kind.category? = some .leaf := by simpa [Node.isInert, Node.kind?] using inert
      refine formed_iff_slotted.mpr fun index child found => ?_
      exact (formed_iff_slotted.mp formed index child found).fixed_word (role_of_leaf isLeaf _)

private theorem isInert_of_isFixed {role : Role} (fixed : role.isFixed = true) {node : Node}
    (admitted : role.admits node) : node.isInert = true := by
  cases role with
  | word => exact isInert_of_not_isTree admitted
  | logicalOp =>
      obtain ⟨token, rfl, _⟩ := admitted
      rfl
  | inert => exact admitted
  | nothing => cases admitted
  | key | operand | callee | name | quasi | listed | only | any => cases fixed

theorem Slotted.fixed {index : Nat} {child : Child Node}
    (slotted : Slotted .loose kind place index child)
    (fixed : (kind.role index).isFixed = true) : Slotted law kind place index child := by
  have inert := isInert_of_isFixed fixed slotted.fits.admitted
  refine ⟨⟨slotted.fits.admitted, slotted.fits.kept, fun _ isListed => ?_, fun forbidden => ?_⟩,
    slotted.formed.of_inert inert⟩
  · rw [isListed] at fixed
    cases fixed
  · exact absurd forbidden (Law.not_forbids_of_kind (not_isFoldable_of_isInert inert))

/-! ### Putting children in place -/

/-- Whether all positions but some of the first four are ones that folding leaves alone. -/
def Kind.fixesAllBut (kind : Kind) (touched : List Nat) : Bool :=
  kind != .template && touched.all (· < 4) &&
    (List.range 5).all fun index => touched.contains index || (kind.role index).isFixed

private theorem role_far {kind : Kind} (notTemplate : kind ≠ .template) (index : Nat) :
    kind.role (index + 4) = kind.role 4 := by
  cases kind <;> first | rfl | exact absurd rfl notTemplate

theorem isFixed_of_fixesAllBut {touched : List Nat} (fixes : kind.fixesAllBut touched = true)
    {index : Nat} (untouched : index ∉ touched) : (kind.role index).isFixed = true := by
  simp only [Kind.fixesAllBut, Bool.and_eq_true, bne_iff_ne, List.all_eq_true,
    decide_eq_true_eq] at fixes
  obtain ⟨⟨notTemplate, few⟩, fixed⟩ := fixes
  have near : ∀ other, other < 5 → other ∉ touched → (kind.role other).isFixed = true := by
    intro other isNear notThere
    have is := fixed other (List.mem_range.mpr isNear)
    simpa [notThere] using is
  rcases Nat.lt_or_ge index 4 with isNear | isFar
  · exact near index (by omega) untouched
  · obtain ⟨more, rfl⟩ := Nat.exists_eq_add_of_le' isFar
    rw [role_far notTemplate]
    exact near 4 (by omega) fun there => absurd (few 4 there) (by omega)

/-- Children of which some were put in place and the others are the former ones. -/
def Patched (law : Law) (kind : Kind) (place : Option Place) (former : List (Child Node))
    (touched : List Nat) (children : List (Child Node)) : Prop :=
  ∀ index child, children[index]? = some child →
    index ∈ touched ∧ Slotted law kind place index child ∨
      index ∉ touched ∧ former[index]? = some child

theorem Patched.refl {former : List (Child Node)} : Patched law kind place former [] former :=
  fun _ _ found => .inr ⟨List.not_mem_nil, found⟩

theorem Patched.set {former children : List (Child Node)} {touched : List Nat}
    {child : Child Node} (patched : Patched law kind place former touched children) (index : Nat)
    (slotted : Slotted law kind place index child) :
    Patched law kind place former (index :: touched) (children.set index child) := by
  intro other there found
  rw [List.getElem?_set] at found
  split at found
  case isTrue same =>
    subst same
    split at found
    · cases found
      exact .inl ⟨List.mem_cons_self, slotted⟩
    · cases found
  case isFalse different =>
    rcases patched other there found with ⟨isTouched, is⟩ | ⟨untouched, is⟩
    · exact .inl ⟨List.mem_cons_of_mem _ isTouched, is⟩
    · exact .inr ⟨fun isTouched => (List.mem_cons.mp isTouched).elim
        (fun same => different same.symm) untouched, is⟩

theorem Patched.formed {former children : List (Child Node)} {touched : List Nat}
    (patched : Patched law kind place former touched children)
    (formed : Formed .loose (.tree kind flags place former))
    (fixes : kind.fixesAllBut touched = true) :
    Formed law (.tree kind flags place children) := by
  refine formed_iff_slotted.mpr fun index child found => ?_
  rw [Nat.zero_add]
  rcases patched index child found with ⟨_, slotted⟩ | ⟨untouched, found⟩
  · exact slotted
  · exact (formed.slotted found).fixed (isFixed_of_fixesAllBut fixes untouched)

end ScriptFold
