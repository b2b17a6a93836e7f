import ScriptFold.Proofs.Shape.Formed
import ScriptFold.Tree.Literal

/-!
# Nodes that folding builds

The literals of values, the statements that a node adds to a list, and copies of fragments
are formed, each fit for the position it goes to.
-/

namespace ScriptFold

variable {law : Law} {kind : Kind} {place : Option Place} {index : Nat}

/-! ### Nodes in positions -/

/-- A finished expression or part of a pattern. -/
structure Operand (law : Law) (node : Node) : Prop where
  good : Good law node
  isOperand : node.isOperand = true

theorem admits_of_isOperand {role : Role} {node : Node} (isRole : role.isOperand = true)
    (isNode : node.isOperand = true) : role.admits node := by
  cases role with
  | operand => exact .inl isNode
  | callee => exact isNode
  | word | logicalOp | inert | key | name | quasi | listed | only | any | nothing => cases isRole

theorem Slotted.of_operand {child : Child Node} (operand : Operand law child.node)
    (isOperand : (kind.role index).isOperand = true) : Slotted law kind place index child := by
  refine ⟨⟨admits_of_isOperand isOperand operand.isOperand, fun _ => .inl operand.isOperand,
    fun _ isListed => ?_, fun forbidden => absurd forbidden operand.good.folded⟩,
    operand.good.formed⟩
  rw [isListed] at isOperand
  cases isOperand

theorem Slotted.of_any {child : Child Node} (good : Good law child.node)
    (isAny : kind.role index = .any) : Slotted law kind place index child := by
  refine ⟨⟨?_, ?_, ?_, fun forbidden => absurd forbidden good.folded⟩, good.formed⟩
  · rw [isAny]
    trivial
  · rw [isAny]
    nofun
  · rw [isAny]
    nofun

theorem Slotted.of_name {child : Child Node} (good : Good law child.node)
    (isIdent : child.node.kind? = some .ident) (isName : kind.role index = .name) :
    Slotted law kind place index child := by
  refine ⟨⟨?_, ?_, ?_, fun forbidden => absurd forbidden good.folded⟩, good.formed⟩
  · rw [isName]
    exact isIdent
  · rw [isName]
    nofun
  · rw [isName]
    nofun

theorem Slotted.of_only {child : Child Node} {inner : Kind} (formed : Formed law child.node)
    (isKind : child.node.kind? = some inner) (isOnly : kind.role index = .only inner)
    (notFoldable : inner.isFoldable = false) : Slotted law kind place index child := by
  refine ⟨⟨?_, ?_, ?_, fun forbidden => absurd forbidden (Law.not_forbids_of_kind ?_)⟩, formed⟩
  · rw [isOnly]
    exact .inl isKind
  · rw [isOnly]
    nofun
  · rw [isOnly]
    nofun
  · rw [isKind]
    exact notFoldable

/-- A finished statement that joins a list of statements as it is. -/
structure Listed (law : Law) (node : Node) : Prop where
  good : Good law node
  isTree : node.isTree = true
  whole : Slot.staysWhole node = true

private theorem isStatement_of_staysWhole {node : Node} (isTree : node.isTree = true)
    (whole : Slot.staysWhole node = true) : node.isStatement = true := by
  cases node with
  | absent | leaf => cases isTree
  | tree kind flags place children =>
      show kind.isStatement = true
      unfold Slot.staysWhole at whole
      split at whole
      case h_6 isNode =>
        cases isNode
        exact whole
      case h_2 isNode => cases isNode
      all_goals cases whole

private theorem notProgram_of_staysWhole {node : Node} (whole : Slot.staysWhole node = true) :
    node.kind? ≠ some .program := by
  intro isProgram
  cases node with
  | absent | leaf => cases isProgram
  | tree =>
      cases isProgram
      cases whole

theorem Slotted.of_listed {child : Child Node} (listed : Listed law child.node)
    (isListed : kind.role index = .listed) : Slotted law kind place index child := by
  refine ⟨⟨?_, ?_, fun _ _ => listed.whole, fun forbidden => absurd forbidden listed.good.folded⟩,
    listed.good.formed⟩
  · rw [isListed]
    exact ⟨isStatement_of_staysWhole listed.isTree listed.whole,
      notProgram_of_staysWhole listed.whole⟩
  · rw [isListed]
    nofun

theorem isTree_of_kind {node : Node} (isKind : node.kind? = some kind) : node.isTree = true := by
  cases node with
  | absent | leaf => cases isKind
  | tree => rfl

theorem isTree_of_same_kind {node former : Node} (sameKind : node.kind? = former.kind?)
    (isTree : former.isTree = true) : node.isTree = true := by
  cases former with
  | absent | leaf => cases isTree
  | tree => exact isTree_of_kind sameKind

theorem isTree_of_isOperand {node : Node} (isOperand : node.isOperand = true) :
    node.isTree = true := by
  cases node with
  | absent | leaf => cases isOperand
  | tree => rfl

theorem isTree_of_isStatement {node : Node} (isStatement : node.isStatement = true) :
    node.isTree = true := by
  cases node with
  | absent | leaf => cases isStatement
  | tree => rfl

/-- A made node whose children all suit one sort of position. -/
theorem formed_made {nodes : List Node}
    (slotted : ∀ index node, nodes[index]? = some node →
      Slotted law kind none index ⟨none, node⟩) : Formed law (.made kind nodes) := by
  refine formed_iff_slotted.mpr fun index child found => ?_
  rw [Node.unseated, List.getElem?_map] at found
  obtain ⟨node, isNode, rfl⟩ := Option.map_eq_some_iff.mp found
  rw [Nat.zero_add]
  exact slotted index node isNode

/-! ### Literals -/

theorem ofWord_operand (type : LeafType) (text : Text) :
    Operand law (Literal.ofWord type text) := by
  refine ⟨.mk (formed_made fun index node found => ?_) (Law.not_forbids_of_kind rfl), rfl⟩
  cases index with
  | zero =>
      cases found
      exact ⟨⟨rfl, nofun, nofun,
        fun forbidden => absurd forbidden (Law.not_forbids_of_kind rfl)⟩, .leaf⟩
  | succ => cases found

private theorem unaryOp_of_residue {bound : Text → Prop} {op : Text} {operand : Node}
    (isResidue : Residue bound (.made .unary [.word .op op, operand])) :
    ∃ known, UnaryOp.ofText? op = some known := by
  cases isResidue with
  | @unary _ _ _ _ known isKnown => exact ⟨known, isKnown⟩

theorem voidZero_operand : Operand law Literal.voidZero := by
  refine ⟨.mk (formed_made fun index node found => ?_) ?_, rfl⟩
  · match index with
    | 0 =>
        cases found
        exact ⟨⟨rfl, nofun, nofun,
          fun forbidden => absurd forbidden (Law.not_forbids_of_kind rfl)⟩, .leaf⟩
    | 1 =>
        cases found
        exact .of_operand (ofWord_operand _ _) rfl
    | _ + 2 => cases found
  · rintro ⟨_, residue⟩
    obtain ⟨known, isKnown⟩ := unaryOp_of_residue residue
    have notKnown : UnaryOp.ofText? (Text.ofString "void") = none := by decide
    rw [notKnown] at isKnown
    cases isKnown

theorem property_good {key value : Node} (keyIs : key.isInert = true) (keyFormed : Formed law key)
    (valueIs : Operand law value) : Good law (.made .property [key, value]) := by
  refine .mk (formed_made fun index node found => ?_) (Law.not_forbids_of_kind rfl)
  match index with
  | 0 =>
      cases found
      refine ⟨⟨.inl keyIs, nofun, nofun, fun forbidden => ?_⟩, keyFormed⟩
      exact absurd forbidden (Law.not_forbids_of_kind (not_isFoldable_of_isInert keyIs))
  | 1 =>
      cases found
      exact .of_operand valueIs rfl
  | _ + 2 => cases found

private theorem array_operand {nodes : List Node} (nodesAre
    : ∀ node, node ∈ nodes → Operand law node) :
    Operand law (.made .array nodes) :=
  ⟨⟨formed_made fun _ node found => .of_operand (nodesAre node (List.mem_of_getElem? found)) rfl,
    Law.not_forbids_of_kind rfl⟩, rfl⟩

private theorem object_operand {nodes : List Node} (nodesAre
    : ∀ node, node ∈ nodes → Good law node) :
    Operand law (.made .object nodes) :=
  ⟨⟨formed_made fun _ node found => .of_any (nodesAre node (List.mem_of_getElem? found)) rfl,
    Law.not_forbids_of_kind rfl⟩, rfl⟩

private theorem makesLiterals_operand : MakesLiterals (Operand law) := by
  refine ⟨ofWord_operand, voidZero_operand, fun _ => array_operand, fun members membersAre => ?_⟩
  apply object_operand
  intro member there
  obtain ⟨key, value, rfl, operand⟩ := membersAre member there
  exact property_good rfl (ofWord_operand _ _).good.formed operand

/-- The literal of a value is a finished expression. -/
theorem ofValue?_operand {value : Value} {node : Node}
    (written : Literal.ofValue? value = .ok (some node)) : Operand law node :=
  makesLiterals_operand.ofValue? written

/-! ### Statements of a list -/

theorem exprStmt_good {child : Child Node} {flags : Flags} (operand : Operand law child.node) :
    Good law (.tree .exprStmt flags place [child]) :=
  ⟨formed_iff_slotted.mpr (.cons (.of_operand operand rfl) .nil), Law.not_forbids_of_kind rfl⟩

/-- What a finished tree adds to a list of statements. -/
theorem splice_listed {node : Node} (good : Good law node) (isTree : node.isTree = true) :
    ∀ statement, statement ∈ Slot.splice node → Listed law statement := by
  revert good isTree
  refine Slot.splice.induct
    (fun node => Good law node → node.isTree = true →
      ∀ statement, statement ∈ Slot.splice node → Listed law statement)
    (fun children => (∀ child, child ∈ children →
        Good law child.node ∧ child.node.isTree = true) →
      ∀ statement, statement ∈ Slot.spliceAll children → Listed law statement)
    nofun nofun ?empty ?program ?emptyBlock ?statement ?expression ?none ?cons node
  case empty | emptyBlock | none =>
    intros
    rename_i there
    cases there
  case program =>
    intro flags place children induction good _ statement there
    refine induction (fun child isChild => ?_) statement there
    obtain ⟨index, found⟩ := List.mem_iff_getElem?.mp isChild
    have slotted := good.formed.slotted found
    exact ⟨slotted.good rfl, isTree_of_isStatement slotted.fits.admitted.1⟩
  case statement =>
    intro kind flags place children notEmpty notProgram notBlock isStatement good isTree
      statement there
    have isWhole : Slot.staysWhole (.tree kind flags place children) = true := by
      rw [Slot.staysWhole]
      · exact isStatement
      all_goals assumption
    rw [Slot.splice] at there
    · simp only [isStatement, if_true] at there
      rcases List.mem_singleton.mp there with rfl
      exact ⟨good, rfl, isWhole⟩
    all_goals assumption
  case expression =>
    intro kind flags place children notEmpty notProgram notBlock notStatement good isTree
      statement there
    rw [Slot.splice] at there
    · simp only [notStatement] at there
      rcases List.mem_singleton.mp there with rfl
      refine ⟨exprStmt_good ⟨good, ?_⟩, rfl, rfl⟩
      simp only [Bool.not_eq_true] at notStatement
      show (!kind.isStatement) = true
      rw [notStatement]
      rfl
    all_goals assumption
  case cons =>
    intro seat node rest nodeIs restAre all statement there
    rw [Slot.spliceAll, List.mem_append] at there
    have isFirst := all ⟨seat, node⟩ List.mem_cons_self
    exact there.elim (nodeIs isFirst.1 isFirst.2 statement)
      (restAre (fun child isChild => all child (List.mem_cons_of_mem _ isChild)) statement)

theorem splices_listed {nodes : List Node}
    (nodesAre : ∀ node, node ∈ nodes → Good law node ∧ node.isTree = true) :
    ∀ statement, statement ∈ nodes.flatMap Slot.splice → Listed law statement := by
  intro statement there
  obtain ⟨node, isNode, there⟩ := List.mem_flatMap.mp there
  exact splice_listed (nodesAre node isNode).1 (nodesAre node isNode).2 statement there

theorem block_good {nodes : List Node} (nodesAre : ∀ node, node ∈ nodes → Listed law node) :
    Good law (.made .block nodes) :=
  ⟨formed_made fun _ node found => .of_listed (nodesAre node (List.mem_of_getElem? found)) rfl,
    Law.not_forbids_of_kind rfl⟩

theorem emptyStatement_good : Good law (.made .emptyStmt []) :=
  ⟨formed_made nofun, Law.not_forbids_of_kind rfl⟩

/-! ### Copies -/

theorem kind?_copy (node : Node) : node.copy.kind? = node.kind? := by
  cases node with
  | absent | leaf => rw [Node.copy]
  | tree kind flags place children => cases place <;> rfl

theorem isTree_copy (node : Node) : node.copy.isTree = node.isTree := by
  cases node with
  | absent | leaf => rw [Node.copy]
  | tree kind flags place children => cases place <;> rfl

theorem copyAll_eq_map (children : List (Child Node)) :
    Node.copyAll children = children.map fun child => ⟨child.seat, child.node.copy⟩ := by
  induction children with
  | nil => rfl
  | cons child rest induction => rw [Node.copyAll, induction, List.map_cons]

theorem staysWhole_copy (node : Node) : Slot.staysWhole node.copy = Slot.staysWhole node := by
  cases node with
  | absent | leaf => rw [Node.copy]
  | tree kind flags place children =>
      cases place <;> rw [Node.copy] <;> cases kind <;>
        first | rfl | (cases children <;> rfl)

theorem admits_copy {role : Role} {node : Node} (admitted : role.admits node) :
    role.admits node.copy := by
  have isKind := kind?_copy node
  have isAbsent : node = .absent → node.copy = .absent := by
    rintro rfl
    rfl
  cases role with
  | word =>
      show node.copy.isTree = false
      rw [isTree_copy]
      exact admitted
  | logicalOp =>
      obtain ⟨token, rfl, spelled⟩ := admitted
      exact ⟨token, rfl, spelled⟩
  | inert | quasi | callee | name | listed =>
      simpa only [Role.admits, Node.isInert, Node.isOperand, Node.isStatement, isKind]
        using admitted
  | key => simpa only [Role.admits, Node.isInert, isKind] using admitted
  | operand optional also =>
      simp only [Role.admits, Node.isOperand, isKind] at admitted ⊢
      exact admitted.imp_right (Or.imp_left (And.imp_right isAbsent))
  | only inner =>
      simp only [Role.admits, isKind] at admitted ⊢
      exact admitted.imp_right isAbsent
  | any => trivial
  | nothing => exact admitted

private theorem isKept_copy {seat : Option Nat} {node : Node}
    (isKept : Child.IsKept place index ⟨seat, node⟩) :
    Child.IsKept place index ⟨seat, node.copy⟩ := by
  cases node with
  | absent | leaf => exact isKept
  | tree kind flags place children => cases place <;> exact isKept

/-- A copy is formed under a law that allows names to be left. -/
theorem copy_formed (unfolded : ¬ law.folded) {node : Node} (formed : Formed law node) :
    Formed law node.copy := by
  induction formed with
  | absent => exact .absent
  | leaf => exact .leaf
  | @tree kind flags place children fit formed induction =>
      have copied : Formed law (.tree kind flags place (Node.copyAll children)) := by
        rw [copyAll_eq_map]
        refine formed_iff_slotted.mpr fun index child found => ?_
        rw [List.getElem?_map] at found
        obtain ⟨former, isFormer, rfl⟩ := Option.map_eq_some_iff.mp found
        have fits := fit index former isFormer
        rw [Nat.zero_add]
        refine ⟨⟨admits_copy fits.admitted, fun isOperand => ?_, fun tidy isListed => ?_,
          fun forbidden => absurd forbidden.1 unfolded⟩,
          induction former (List.mem_of_getElem? isFormer)⟩
        · refine (fits.kept isOperand).imp (fun is => ?_) isKept_copy
          simpa only [Node.isOperand, kind?_copy] using is
        · rw [staysWhole_copy]
          exact fits.tidy tidy isListed
      cases place with
      | none => exact copied.of_flags
      | some known => exact copied

end ScriptFold
