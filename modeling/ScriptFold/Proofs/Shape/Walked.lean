import ScriptFold.Proofs.Fold.Meets
import ScriptFold.Proofs.Shape.Parts
import ScriptFold.Tree.Basic

/-!
# Folded nodes in their positions

A walker is sound for a law if what it makes of a node below is good under that law.  Then
so is what a position makes of it: an operand in the position of an expression, finished
statements in a list of statements.
-/

namespace ScriptFold

open FoldM (Meets EachFrom)

/-- Kinds whose nodes are never replaced by others. -/
def Kind.isStable (kind : Kind) : Bool :=
  match kind.category? with
  | some .leaf | some .statementList | some .declaration | some .function | some .pattern => true
  | _ => false

/-- Whether a node is a tree that is never replaced by another. -/
def Node.isStable (node : Node) : Bool :=
  node.kind?.any Kind.isStable

/-- What folding may make of a node. -/
inductive Walked (law : Law) (former : Node) : Folded → Prop where
  | same {node : Node} (good : Good law node) (sameKind : node.kind? = former.kind?) :
      Walked law former (.same node)
  | instead {node : Node} (good : Good law node) (isTree : node.isTree = true)
      (unstable : former.isStable = false) : Walked law former (.instead node)
  | statements {nodes : List Node}
      (nodesAre : ∀ node, node ∈ nodes → Good law node ∧ node.isTree = true)
      (unstable : former.isStable = false) : Walked law former (.statements nodes)
  | removed (unstable : former.isStable = false) : Walked law former .removed

/-- What the bindings of a fold have to be for a law. -/
structure Enforces (context : Context) (law : Law) : Prop where
  /-- Every name that must not be left is bound to a value with a literal. -/
  bound : law.folded → ∀ name, law.bound name → ∃ value literal,
    context.values.lookup name = some value ∧ Literal.ofValue? value = .ok (some literal)
  /-- A law on what is left can only be kept without fragments. -/
  plain : law.folded → context.fragments = []
  fragments : law.premise → ∀ entry, entry ∈ context.fragments →
    Formed law entry.2 ∧ entry.2.isTree = true
  templates : ∀ entry, entry ∈ context.macros → ∃ text, entry.2 = .template text

/-- A tree as readers build it, of at most so many levels. -/
structure Below (law : Law) (levels : Nat) (node : Node) : Prop where
  premise : law.premise
  formed : Formed .loose node
  height : node.height ≤ levels

/-- A walker that keeps a law for all nodes of at most so many levels. -/
structure Sound (law : Law) (levels : Nat) (walker : Walker) : Prop where
  enforces : Enforces walker.context law
  walk : ∀ node, Meets (Below law levels node) (walker.walk node) (Walked law node)
  expand : ∀ call name, call.kind = .call ∨ call.kind = .newExpr →
    walker.context.macros.binds name = true →
    Meets (law.premise ∧ Formed .loose call.toNode) (walker.expand call name)
      (Walked law call.toNode)

variable {law : Law} {levels : Nat} {walker : Walker} {given : Prop}
variable {kind : Kind} {flags : Flags} {place : Option Place} {index : Nat}

theorem Below.child {children : List (Child Node)} {child : Child Node}
    (below : Below law (levels + 1) (.tree kind flags place children)) (there : child ∈ children) :
    Below law levels child.node :=
  ⟨below.premise, below.formed.children there,
    Nat.le_of_lt_succ (Nat.lt_of_lt_of_le (height_lt_of_mem there) below.height)⟩

theorem Below.slotted {children : List (Child Node)} {child : Child Node}
    (below : Below law (levels + 1) (.tree kind flags place children))
    (found : children[index]? = some child) :
    Slotted .loose kind place index child ∧ Below law levels child.node :=
  ⟨below.formed.slotted found, below.child (List.mem_of_getElem? found)⟩

/-! ### Operands -/

/-- What becomes of the child in the position of an expression.  Only a node that is still
the same one keeps its seat. -/
inductive Filled (law : Law) (child : Child Node) : Child Node → Prop where
  | empty (isAbsent : child.node = .absent) : Filled law child child
  | full {result : Child Node} (operand : Operand law result.node)
      (same : result.seat.isSome = true → result.node.kind? = child.node.kind?) :
      Filled law child result

theorem Slotted.of_not_isTree {child : Child Node}
    (slotted : Slotted .loose kind place index child) (notTree : child.node.isTree = false) :
    Slotted law kind place index child := by
  refine ⟨⟨slotted.fits.admitted, slotted.fits.kept, fun _ isListed => ?_,
    fun forbidden => absurd forbidden (Law.not_forbids_of_kind ?_)⟩, formed_of_not_isTree notTree⟩
  · have admitted := slotted.fits.admitted
    rw [isListed] at admitted
    rw [isTree_of_isStatement admitted.1] at notTree
    cases notTree
  · rw [kind?_of_not_isTree notTree]
    rfl

theorem Filled.slotted {child result : Child Node} (filled : Filled law child result)
    (slotted : Slotted .loose kind place index child)
    (isOperand : (kind.role index).isOperand = true) : Slotted law kind place index result := by
  cases filled with
  | empty isAbsent => exact slotted.of_not_isTree (by rw [isAbsent]; rfl)
  | full operand _ => exact .of_operand operand isOperand

theorem Slotted.isTree_or_absent {child : Child Node} (slotted : Slotted law kind place index child)
    (isOperand : (kind.role index).isOperand = true) :
    child.node.isTree = true ∨ child.node = .absent := by
  have admitted := slotted.fits.admitted
  revert isOperand admitted
  cases kind.role index with
  | operand optional also =>
      rintro _ (isOperand | ⟨_, isAbsent⟩ | ⟨inner, _, isKind⟩)
      · exact .inl (isTree_of_isOperand isOperand)
      · exact .inr isAbsent
      · exact .inl (isTree_of_kind isKind)
  | callee => exact fun _ isOperand => .inl (isTree_of_isOperand isOperand)
  | word | logicalOp | inert | key | name | quasi | listed | only | any | nothing => nofun

/-- A required operand is there. -/
theorem Slotted.operand {child : Child Node} (slotted : Slotted law kind place index child)
    (isRequired : kind.role index = .required) : Operand law child.node := by
  have admitted := slotted.fits.admitted
  refine ⟨slotted.good (by rw [isRequired]; rfl), ?_⟩
  rw [isRequired] at admitted
  rcases admitted with isOperand | ⟨isOptional, _⟩ | ⟨_, isAlso, _⟩
  · exact isOperand
  · cases isOptional
  · cases isAlso

/-- The expression of a finished expression statement. -/
theorem exprStmt_operand {node inner : Node} (formed : Formed law node)
    (isStatement : node.kind? = some .exprStmt) (found : node.childAt 0 = .ok inner) :
    Operand law inner := by
  cases node with
  | absent | leaf => cases isStatement
  | tree kind flags place children =>
      cases isStatement
      rw [Node.childAt] at found
      split at found
      case h_1 child isChild =>
        cases found
        exact (formed.slotted isChild).operand rfl
      case h_2 => cases found

theorem expressionOf_meets (law : Law) {former : Node} {seat : Option Nat} {outcome : Outcome} :
    Meets (Good law outcome.node ∧ outcome.node.isTree = true)
      (Slot.expressionOf former seat outcome) fun result => Operand law result.node ∧
        (result.seat.isSome = true → ∃ node, outcome = .same node ∧ result.node = node) := by
  have kept : (outcome.inSeat seat).seat.isSome = true →
      ∃ node, outcome = .same node ∧ (outcome.inSeat seat).node = node := by
    intro isSome
    cases outcome with
    | same node => exact ⟨node, rfl, rfl⟩
    | instead => cases isSome
  unfold Slot.expressionOf
  split
  case h_1 kind isKind =>
    split
    case isTrue =>
      split
      case isTrue isExprStmt =>
        refine Meets.of_calculate.bind fun inner => .of_pure ?_
        rintro ⟨⟨good, _⟩, isInner⟩
        subst isExprStmt
        exact ⟨exprStmt_operand good.formed isKind isInner, nofun⟩
      case isFalse => exact .of_fail
    case isFalse notStatement =>
      refine .of_pure fun is => ⟨?_, kept⟩
      rw [node_inSeat]
      refine ⟨is.1, ?_⟩
      rw [Node.isOperand, isKind]
      simpa using notStatement
  case h_2 isKind =>
    refine .of_pure fun is => ?_
    cases isNode : outcome.node with
    | absent | leaf =>
        rw [isNode] at is
        cases is.2
    | tree =>
        rw [isNode] at isKind
        cases isKind

/-- A child in the position of an expression. -/
theorem expression_meets (sound : Sound law levels walker) (child : Child Node) :
    Meets (Below law levels child.node ∧ (child.node.isTree = true ∨ child.node = .absent))
      (Slot.expression walker child) (Filled law child) := by
  unfold Slot.expression
  split
  case isTrue isAbsent =>
    refine .of_pure fun _ => .empty ?_
    cases isNode : child.node with
    | absent => rfl
    | leaf | tree =>
        rw [isNode] at isAbsent
        cases isAbsent
  case isFalse notAbsent =>
    refine ((sound.walk child.node).weaken And.left).bind fun folded => ?_
    have isTree : child.node.isTree = true ∨ child.node = .absent → child.node.isTree = true := by
      rintro (isTree | isAbsent)
      · exact isTree
      · rw [isAbsent] at notAbsent
        exact absurd rfl notAbsent
    cases folded with
    | removed => exact .of_pure fun _ => .full voidZero_operand nofun
    | statements nodes =>
        cases nodes with
        | nil => exact .of_pure fun _ => .full voidZero_operand nofun
        | cons => exact .of_fail
    | same node =>
        refine ((expressionOf_meets law).weaken ?_).mono fun result known is => ?_
        · rintro ⟨⟨_, is⟩, walked⟩
          cases walked with
          | same good sameKind => exact ⟨good, isTree_of_same_kind sameKind (isTree is)⟩
        · refine .full is.1 fun isSome => ?_
          obtain ⟨_, isSame, isNode⟩ := is.2 isSome
          cases isSame
          cases known.2 with
          | same _ sameKind => exact isNode ▸ sameKind
    | instead node =>
        refine ((expressionOf_meets law).weaken ?_).mono fun result known is => ?_
        · rintro ⟨_, walked⟩
          cases walked with
          | instead good isTree _ => exact ⟨good, isTree⟩
        · refine .full is.1 fun isSome => ?_
          obtain ⟨_, isSame, _⟩ := is.2 isSome
          cases isSame

/-- The child at a position of a node to fold. -/
def FoundAt (law : Law) (levels : Nat) (kind : Kind) (flags : Flags) (place : Option Place)
    (children : List (Child Node)) (index : Nat) (child : Child Node) : Prop :=
  Below law (levels + 1) (.tree kind flags place children) ∧ children[index]? = some child

/-- The child in one of the positions for operands. -/
theorem operand_meets (sound : Sound law levels walker) {children : List (Child Node)}
    {child : Child Node} (index : Nat) (isOperand : (kind.role index).isOperand = true)
    (found : given → FoundAt law levels kind flags place children index child) :
    Meets given (Slot.expression walker child) (Slotted law kind place index) := by
  refine ((expression_meets sound child).weaken fun known => ?_).mono fun result known filled => ?_
  · obtain ⟨slotted, inner⟩ := (found known).1.slotted (found known).2
    exact ⟨inner, slotted.isTree_or_absent isOperand⟩
  · exact filled.slotted ((found known).1.slotted (found known).2).1 isOperand

/-! ### Statements -/

theorem Slotted.listed {child : Child Node} (slotted : Slotted law kind place index child)
    (isListed : kind.role index = .listed) :
    Good law child.node ∧ child.node.isTree = true := by
  have admitted := slotted.fits.admitted
  rw [isListed] at admitted
  exact ⟨slotted.good (by rw [isListed]; rfl), isTree_of_isStatement admitted.1⟩

/-- The statements of a program or block as a block of their own. -/
theorem block_of_listed {children : List (Child Node)}
    (formed : Formed law (.tree kind flags place children))
    (areListed : ∀ index, kind.role index = .listed) :
    Good law (.made .block (children.map Child.node)) := by
  refine .mk (formed_made fun index node found => ?_) (Law.not_forbids_of_kind rfl)
  rw [List.getElem?_map] at found
  obtain ⟨child, isChild, rfl⟩ := Option.map_eq_some_iff.mp found
  have slotted := formed.slotted isChild
  have fits := slotted.fits
  rw [areListed index] at fits
  exact ⟨⟨fits.admitted, nofun, fun tidy _ => fits.tidy tidy rfl, fits.folded⟩, slotted.formed⟩

theorem statementOf_good {seat : Option Nat} {outcome : Outcome} (good : Good law outcome.node) :
    Good law (Slot.statementOf seat outcome).node := by
  unfold Slot.statementOf
  split
  case h_1 isProgram =>
    cases isNode : outcome.node with
    | absent | leaf =>
        rw [isNode] at isProgram
        cases isProgram
    | tree kind flags place children =>
        rw [isNode] at isProgram good
        cases isProgram
        exact block_of_listed good.formed fun _ => rfl
  case h_2 kind _ isKind =>
    split
    · rw [node_inSeat]
      exact good
    · rename_i notStatement
      refine exprStmt_good ⟨good, ?_⟩
      rw [Node.isOperand, isKind]
      simpa using notStatement
  case h_3 =>
    split
    · exact emptyStatement_good
    · rw [node_inSeat]
      exact good

private theorem single_good {nodes : List Node} (nodesAre
    : ∀ node, node ∈ nodes → Listed law node) :
    Good law (Slot.single nodes) := by
  unfold Slot.single
  split
  case h_1 => exact emptyStatement_good
  case h_2 node => exact (nodesAre node List.mem_cons_self).good
  case h_3 => exact block_good nodesAre

/-- A child in the position of a single statement. -/
theorem statement_meets (sound : Sound law levels walker) (child : Child Node) :
    Meets (Below law levels child.node) (Slot.statement walker child)
      fun result => Good law result.node := by
  unfold Slot.statement
  split
  case isTrue isAbsent =>
    refine .of_pure fun _ => ?_
    cases isNode : child.node with
    | absent => exact .absent
    | leaf | tree =>
        rw [isNode] at isAbsent
        cases isAbsent
  case isFalse =>
    refine (sound.walk child.node).bind fun folded => ?_
    cases folded with
    | removed => exact .of_pure fun _ => emptyStatement_good
    | statements nodes =>
        refine .of_pure ?_
        rintro ⟨_, walked⟩
        cases walked with
        | statements nodesAre _ => exact single_good (splices_listed nodesAre)
    | same node =>
        refine .of_pure ?_
        rintro ⟨_, walked⟩
        cases walked with
        | same good _ => exact statementOf_good good
    | instead node =>
        refine .of_pure ?_
        rintro ⟨_, walked⟩
        cases walked with
        | instead good _ _ => exact statementOf_good good

theorem mem_unseated {nodes : List Node} {child : Child Node}
    (there : child ∈ Node.unseated nodes) :
    child.node ∈ nodes := by
  obtain ⟨node, isNode, rfl⟩ := List.mem_map.mp there
  exact isNode

private theorem spliceFolded_listed {former : Node} {seat : Option Nat} {folded : Folded}
    (walked : Walked law former folded) (isTree : former.isTree = true) :
    ∀ child, child ∈ Slot.spliceFolded seat folded → Listed law child.node := by
  cases walked with
  | removed => nofun
  | statements nodesAre _ =>
      exact fun child there => splices_listed nodesAre _ (mem_unseated there)
  | instead good isTree _ =>
      exact fun child there => splice_listed good isTree _ (mem_unseated there)
  | @same node good sameKind =>
      have stillTree := isTree_of_same_kind sameKind isTree
      intro child there
      rw [Slot.spliceFolded] at there
      split at there
      case isTrue whole =>
        rcases List.mem_singleton.mp there with rfl
        exact ⟨good, stillTree, whole⟩
      case isFalse => exact splice_listed good stillTree _ (mem_unseated there)

/-- A list of statements. -/
theorem statements_meets (sound : Sound law levels walker) (children : List (Child Node)) :
    Meets (∀ child, child ∈ children → Below law levels child.node ∧ child.node.isTree = true)
      (Slot.statements walker children)
      fun results => ∀ result, result ∈ results → Listed law result.node := by
  induction children with
  | nil =>
      rw [Slot.statements]
      exact .of_pure fun _ => nofun
  | cons child rest induction =>
      rw [Slot.statements]
      refine ((sound.walk child.node).weaken fun are => (are child List.mem_cons_self).1).bind
        fun folded => ?_
      refine (induction.weaken fun known other there =>
        known.1 other (List.mem_cons_of_mem _ there)).bind fun others => .of_pure ?_
      rintro ⟨⟨are, walked⟩, othersAre⟩ result there
      exact (List.mem_append.mp there).elim
        (spliceFolded_listed walked (are child List.mem_cons_self).2 result) (othersAre result)

/-- Children that may stand in a list of statements. -/
theorem Below.listed {children : List (Child Node)}
    (below : Below law (levels + 1) (.tree kind flags place children))
    (areListed : ∀ index, kind.role index = .listed) {child : Child Node}
    (there : child ∈ children) : Below law levels child.node ∧ child.node.isTree = true := by
  obtain ⟨index, found⟩ := List.mem_iff_getElem?.mp there
  obtain ⟨slotted, inner⟩ := below.slotted found
  exact ⟨inner, (slotted.listed (areListed index)).2⟩

theorem slottedFrom_of_listed {start : Nat} {children : List (Child Node)}
    (childrenAre : ∀ child, child ∈ children → Listed law child.node)
    (areListed : ∀ index, kind.role (start + index) = .listed) :
    SlottedFrom law kind place start children :=
  fun index child found =>
    .of_listed (childrenAre child (List.mem_of_getElem? found)) (areListed index)

/-- The statements of a program or block stay a program or block. -/
theorem listing_meets (sound : Sound law levels walker) {children : List (Child Node)}
    (areListed : ∀ index, kind.role index = .listed) (notFoldable : kind.isFoldable = false)
    (notCase : kind ≠ .switchCase) :
    Meets (Below law (levels + 1) (.tree kind flags place children))
      (Slot.statementList walker ⟨kind, flags, place, children⟩)
      (Walked law (.tree kind flags place children)) := by
  rw [Slot.statementList, if_neg notCase]
  refine ((statements_meets sound children).weaken fun below child there =>
    below.listed areListed there).bind fun results => .of_pure fun known => ?_
  refine .same (.mk (formed_iff_slotted.mpr ?_) (Law.not_forbids_of_kind notFoldable)) rfl
  exact slottedFrom_of_listed known.2 fun index => areListed _

/-- The statements of a case, behind its test. -/
theorem Below.caseBody {test : Child Node} {body : List (Child Node)}
    (below : Below law (levels + 1) (.tree .switchCase flags place (test :: body)))
    {child : Child Node} (there : child ∈ body) :
    Below law levels child.node ∧ child.node.isTree = true := by
  obtain ⟨index, found⟩ := List.mem_iff_getElem?.mp there
  have isChild : (test :: body)[index + 1]? = some child := by rwa [List.getElem?_cons_succ]
  obtain ⟨slotted, inner⟩ := below.slotted isChild
  exact ⟨inner, (slotted.listed rfl).2⟩

theorem case_meets (sound : Sound law levels walker) {children : List (Child Node)} :
    Meets (Below law (levels + 1) (.tree .switchCase flags place children))
      (Slot.statementList walker ⟨.switchCase, flags, place, children⟩)
      (Walked law (.tree .switchCase flags place children)) := by
  rw [Slot.statementList, if_pos rfl]
  cases children with
  | nil => exact .of_throw
  | cons test body =>
      refine (operand_meets sound 0 rfl fun below => ⟨below, rfl⟩).bind fun test' => ?_
      refine ((statements_meets sound body).weaken fun known child there =>
        known.1.caseBody there).bind fun results => .of_pure fun known => ?_
      refine .same (.mk (formed_iff_slotted.mpr ?_) (Law.not_forbids_of_kind rfl)) rfl
      exact .cons known.1.2 (slottedFrom_of_listed known.2 fun index => by rw [Nat.add_comm]; rfl)

/-! ### Other positions -/

/-- A child in a position that takes whatever node it becomes. -/
theorem anyNode_meets (sound : Sound law levels walker) (child : Child Node) :
    Meets (Below law levels child.node) (Slot.anyNode walker child) fun result =>
      Good law result.node ∧ (child.node.isStable = true →
        result.seat = child.seat ∧ result.node.kind? = child.node.kind?) := by
  refine (sound.walk child.node).bind fun folded => ?_
  have unstable : ∀ {goal : Prop}, child.node.isStable = false → child.node.isStable = true →
      goal := by
    intro goal unstable isStable
    rw [unstable] at isStable
    cases isStable
  cases folded with
  | same node =>
      refine .of_pure ?_
      rintro ⟨_, walked⟩
      cases walked with
      | same good sameKind => exact ⟨good, fun _ => ⟨rfl, sameKind⟩⟩
  | instead node =>
      refine .of_pure ?_
      rintro ⟨_, walked⟩
      cases walked with
      | instead good _ is => exact ⟨good, unstable is⟩
  | removed =>
      refine .of_pure ?_
      rintro ⟨_, walked⟩
      cases walked with
      | removed is => exact ⟨.absent, unstable is⟩
  | statements => exact .of_throw

theorem any_meets (sound : Sound law levels walker) {children : List (Child Node)}
    {child : Child Node} (index : Nat) (isAny : kind.role index = .any)
    (found : given → FoundAt law levels kind flags place children index child) :
    Meets given (Slot.anyNode walker child) (Slotted law kind place index) :=
  ((anyNode_meets sound child).weaken fun known => ((found known).1.slotted (found known).2).2).mono
    fun _ _ is => .of_any is.1 isAny

theorem statementAt_meets (sound : Sound law levels walker) {children : List (Child Node)}
    {child : Child Node} (index : Nat) (isAny : kind.role index = .any)
    (found : given → FoundAt law levels kind flags place children index child) :
    Meets given (Slot.statement walker child) (Slotted law kind place index) :=
  ((statement_meets sound child).weaken
    fun known => ((found known).1.slotted (found known).2).2).mono fun _ _ is => .of_any is isAny

theorem isKept_iff_of_isTree {child : Child Node} (isTree : child.node.isTree = true) :
    child.IsKept place index ↔ child.seat = some index := by
  obtain ⟨seat, node⟩ := child
  cases node with
  | absent | leaf => cases isTree
  | tree => exact .rfl

/-- A declaration, function or block that stands where an operand may stand stays there. -/
theorem stable_meets (sound : Sound law levels walker) {children : List (Child Node)}
    {child : Child Node} (index : Nat) {optional : Bool} {also : List Kind} {inner : Kind}
    (isRole : kind.role index = .operand optional also) (isAlso : inner ∈ also)
    (isKind : child.node.isKind inner = true) (stable : inner.isStable = true)
    (notOperand : inner.isStatement = true)
    (found : given → FoundAt law levels kind flags place children index child) :
    Meets given (Slot.anyNode walker child) (Slotted law kind place index) := by
  have isKind : child.node.kind? = some inner := by simpa [Node.isKind] using isKind
  refine ((anyNode_meets sound child).weaken
    fun known => ((found known).1.slotted (found known).2).2).mono ?_
  rintro result known ⟨good, same⟩
  obtain ⟨sameSeat, sameKind⟩ := same (by rw [Node.isStable, isKind]; exact stable)
  rw [isKind] at sameKind
  obtain ⟨slotted, _⟩ := (found known).1.slotted (found known).2
  have wasKept : child.IsKept place index := by
    refine (slotted.fits.kept (by rw [isRole]; rfl)).resolve_left fun isOperand => ?_
    rw [Node.isOperand, isKind, Option.any_some, notOperand] at isOperand
    cases isOperand
  refine ⟨⟨?_, fun _ => .inr ?_, ?_, fun forbidden => absurd forbidden good.folded⟩, good.formed⟩
  · rw [isRole]
    exact .inr (.inr ⟨inner, isAlso, sameKind⟩)
  · exact (isKept_iff_of_isTree (isTree_of_kind sameKind)).mpr
      (sameSeat.trans ((isKept_iff_of_isTree (isTree_of_kind isKind)).mp wasKept))
  · rw [isRole]
    intro _ isListed
    cases isListed

end ScriptFold
