import ScriptFold.Proofs.Reading.AsRead
import ScriptFold.Proofs.Reading.Provides
import ScriptFold.Proofs.Shape.Target

/-!
# Trees that readers build

A node that is read from nodes which fit its positions is formed.  An expression that is
taken for a target after all is formed again.
-/

namespace ScriptFold

variable {kind : Kind} {flags : Flags} {index : Nat}

/-- A node that fits a position of a node to be read. -/
structure ReadAt (kind : Kind) (index : Nat) (node : Node) : Prop where
  admitted : (kind.role index).admits node
  formed : Formed .loose node

/-- Nodes that fit the positions from `start` on. -/
def ReadFrom (kind : Kind) (start : Nat) (nodes : List Node) : Prop :=
  ∀ index node, nodes[index]? = some node → ReadAt kind (start + index) node

theorem ReadFrom.nil {start : Nat} : ReadFrom kind start [] := by
  intro index node found
  cases found

theorem ReadFrom.cons {start : Nat} {node : Node} {rest : List Node}
    (nodeIs : ReadAt kind start node) (restAre : ReadFrom kind (start + 1) rest) :
    ReadFrom kind start (node :: rest) := by
  intro index other found
  cases index with
  | zero =>
      cases found
      exact nodeIs
  | succ index =>
      rw [List.getElem?_cons_succ] at found
      have readAt := restAre index other found
      rwa [Nat.add_right_comm, Nat.add_assoc] at readAt

/-- Nodes that all fit positions of one sort. -/
theorem ReadFrom.of_all {start : Nat} {nodes : List Node} {holds : Node → Prop}
    (all : Grammar.All holds nodes)
    (fit : ∀ index node, holds node → ReadAt kind (start + index) node) :
    ReadFrom kind start nodes :=
  fun index node found => fit index node (all node (List.mem_of_getElem? found))

/-! ### Nodes for positions -/

/-- A formed tree of some kind. -/
structure Shaped (kind : Kind) (node : Node) : Prop where
  formed : Formed .loose node
  isKind : node.kind? = some kind

/-- Whether nodes of this kind are read as statements. -/
def Kind.isReadStatement (kind : Kind) : Bool :=
  kind.isStatement && kind != .program

/-- A formed statement, which is no program. -/
structure IsStatement (node : Node) : Prop where
  formed : Formed .loose node
  isStatement : node.isStatement = true
  notProgram : node.kind? ≠ some .program

structure IsKey (node : Node) : Prop where
  formed : Formed .loose node
  isKey : Role.key.admits node

/-- An expression, or nothing. -/
def IsOptional (node : Node) : Prop :=
  Operand .loose node ∨ node = .absent

theorem Shaped.operand {node : Node} (shaped : Shaped kind node)
    (notStatement : kind.isStatement = false) : Operand .loose node :=
  ⟨⟨shaped.formed, Law.not_loose_forbids⟩, isOperand_of_kind shaped.isKind notStatement⟩

theorem Shaped.statement {node : Node} (shaped : Shaped kind node)
    (isRead : kind.isReadStatement = true) : IsStatement node := by
  obtain ⟨isStatement, notProgram⟩ := Bool.and_eq_true_iff.mp isRead
  constructor
  · exact shaped.formed
  · rw [Node.isStatement, shaped.isKind]
    exact isStatement
  · rw [shaped.isKind]
    simpa using notProgram

theorem ReadAt.operand {node : Node} (operand : Operand .loose node)
    (isOperand : (kind.role index).isOperand = true) : ReadAt kind index node :=
  ⟨admits_of_isOperand isOperand operand.isOperand, operand.good.formed⟩

theorem ReadAt.optional {node : Node} {also : List Kind} (is : IsOptional node)
    (isRole : kind.role index = .operand true also) : ReadAt kind index node := by
  rcases is with operand | rfl
  · exact .operand operand (by rw [isRole]; rfl)
  · refine ⟨?_, .absent⟩
    rw [isRole]
    exact .inr (.inl ⟨rfl, rfl⟩)

/-- A tree of one of the other kinds that may stand where an operand does. -/
theorem ReadAt.also {node : Node} {inner : Kind} {optional : Bool} {also : List Kind}
    (shaped : Shaped inner node) (isRole : kind.role index = .operand optional also)
    (isAlso : inner ∈ also) : ReadAt kind index node := by
  refine ⟨?_, shaped.formed⟩
  rw [isRole]
  exact .inr (.inr ⟨inner, isAlso, shaped.isKind⟩)

theorem ReadAt.word {node : Node} (notTree : node.isTree = false)
    (isWord : kind.role index = .word) : ReadAt kind index node := by
  refine ⟨?_, formed_of_not_isTree notTree⟩
  rw [isWord]
  exact notTree

theorem ReadAt.any {node : Node} (formed : Formed .loose node) (isAny : kind.role index = .any) :
    ReadAt kind index node := by
  refine ⟨?_, formed⟩
  rw [isAny]
  trivial

theorem ReadAt.inert {node : Node} (formed : Formed .loose node) (inert : node.isInert = true)
    (isInert : kind.role index = .inert) : ReadAt kind index node := by
  refine ⟨?_, formed⟩
  rw [isInert]
  exact inert

theorem ReadAt.key {node : Node} (key : IsKey node) (isKey : kind.role index = .key) :
    ReadAt kind index node := by
  refine ⟨?_, key.formed⟩
  rw [isKey]
  exact key.isKey

theorem ReadAt.only {node : Node} {inner : Kind} (shaped : Shaped inner node)
    (isOnly : kind.role index = .only inner) : ReadAt kind index node := by
  refine ⟨?_, shaped.formed⟩
  rw [isOnly]
  exact .inl shaped.isKind

theorem ReadAt.listed {node : Node} (statement : IsStatement node)
    (isListed : kind.role index = .listed) : ReadAt kind index node := by
  refine ⟨?_, statement.formed⟩
  rw [isListed]
  exact ⟨statement.isStatement, statement.notProgram⟩

/-! ### Trees that are read -/

/-- What is read stands where it was read. -/
theorem isKept_read {source : Source} {span : Span} {nodes : List Node} {node : Node}
    (found : nodes[index]? = some node) :
    Child.IsKept (some ⟨source, span, nodes.map Node.toFormer⟩) index ⟨some index, node⟩ := by
  cases node with
  | absent =>
      show (nodes.map Node.toFormer)[index]? = some .absent
      rw [List.getElem?_map, found]
      rfl
  | leaf | tree => rfl

theorem read_shaped {source : Source} {span : Span} {nodes : List Node}
    (nodesAre : ReadFrom kind 0 nodes) : Shaped kind (.read kind flags source span nodes) := by
  refine ⟨formed_iff_slotted.mpr fun index child found => ?_, rfl⟩
  rw [Grammar.getElem?_seatFrom] at found
  obtain ⟨node, isNode, rfl⟩ := Option.map_eq_some_iff.mp found
  have readAt := nodesAre index node isNode
  rw [Nat.zero_add] at readAt ⊢
  exact ⟨⟨readAt.admitted, fun _ => .inr (isKept_read isNode), nofun,
    fun forbidden => absurd forbidden Law.not_loose_forbids⟩, readAt.formed⟩

/-- The children of a formed tree fit a node of the same kind. -/
theorem Formed.readFrom {node : Node} (formed : Formed .loose node)
    (isKind : node.kind? = some kind) : ReadFrom kind 0 node.children := by
  cases node with
  | absent | leaf => cases isKind
  | tree kind flags place children =>
      cases isKind
      intro index inner found
      rw [Node.children, List.getElem?_map] at found
      obtain ⟨child, isChild, rfl⟩ := Option.map_eq_some_iff.mp found
      have slotted := formed.slotted isChild
      rw [Nat.zero_add]
      exact ⟨slotted.fits.admitted, slotted.formed⟩

namespace Grammar

theorem finishWith_shaped {nodes : List Node} {start : Token} (nodesAre : ReadFrom kind 0 nodes) :
    Provides (finishWith flags kind nodes start) (Shaped kind) :=
  .after fun _ => .of_pure (read_shaped nodesAre)

theorem finish_shaped {nodes : List Node} {start : Token} (nodesAre : ReadFrom kind 0 nodes) :
    Provides (finish kind nodes start) (Shaped kind) :=
  finishWith_shaped nodesAre

/-! ### Targets -/

theorem reshape_shaped {node : Node} {nodes : List Node} (asRead : AsRead node)
    (isTree : node.isTree = true) (nodesAre : ReadFrom kind 0 nodes) :
    Shaped kind (reshape node kind nodes) := by
  cases asRead with
  | absent | leaf => cases isTree
  | read => exact read_shaped nodesAre

/-- A node that was read and is formed. -/
structure ReadFormed (node : Node) : Prop where
  asRead : AsRead node
  formed : Formed .loose node

theorem ReadFormed.child {place : Option Place} {children : List (Child Node)}
    {child : Child Node} (node : ReadFormed (.tree kind flags place children))
    (found : children[index]? = some child) :
    ReadFormed child.node ∧ (kind.role index).admits child.node :=
  have slotted := node.formed.slotted found
  ⟨⟨node.asRead.parts.2.1 child (List.mem_of_getElem? found), slotted.formed⟩,
    slotted.fits.admitted⟩

theorem ReadFormed.operand {node : Node} (is : ReadFormed node)
    (isOperand : node.isOperand = true) :
    Operand .loose node :=
  ⟨⟨is.formed, Law.not_loose_forbids⟩, isOperand⟩

structure Targeted (node target : Node) : Prop where
  operand : node.isOperand = true → Operand .loose target
  absent : node = .absent → target = .absent

theorem Targeted.of_shaped {node target : Node} (shaped : Shaped kind target)
    (notStatement : kind.isStatement = false) (isTree : node.isTree = true) :
    Targeted node target := by
  refine ⟨fun _ => shaped.operand notStatement, ?_⟩
  rintro rfl
  cases isTree

theorem admits_required {node : Node} (admitted : Role.required.admits node) :
    node.isOperand = true := by
  rcases admitted with isOperand | ⟨isOptional, _⟩ | ⟨_, isAlso, _⟩
  · exact isOperand
  · cases isOptional
  · cases isAlso

theorem admits_optional {node : Node} (admitted : Role.optional.admits node) :
    node.isOperand = true ∨ node = .absent := by
  rcases admitted with isOperand | ⟨_, isAbsent⟩ | ⟨_, isAlso, _⟩
  · exact .inl isOperand
  · exact .inr isAbsent
  · cases isAlso

/-- A name as a target of its own. -/
theorem binding_shaped {node : Node} (is : ReadFormed node) (isIdent : node.kind? = some .ident) :
    Shaped .binding (reshape node .binding node.children) := by
  refine reshape_shaped is.asRead (isTree_of_kind isIdent) fun index inner found => ?_
  have readAt := is.formed.readFrom isIdent index inner found
  rw [Nat.zero_add] at readAt ⊢
  cases index with
  | zero => exact .word readAt.admitted rfl
  | succ => cases readAt.admitted

/-- The word of a name that is there, or nothing. -/
theorem child_ident {node : Node} (formed : Formed .loose node)
    (isIdent : node.kind? = some .ident) : (node.child 0).isTree = false := by
  rw [Node.child, List.getD_eq_getElem?_getD]
  cases found : node.children[0]? with
  | none => rfl
  | some word => exact (formed.readFrom isIdent 0 word found).admitted

theorem shorthandTarget_operand {place : Option Place} {seat : Option Nat} {ident : Node}
    (is : ReadFormed (.tree .shorthandProperty flags place [⟨seat, ident⟩])) :
    Operand .loose (shorthandTarget (.tree .shorthandProperty flags place [⟨seat, ident⟩]) ident
      (ident.child 0)) := by
  obtain ⟨⟨known, rfl⟩, _, _⟩ := is.asRead.parts
  obtain ⟨identIs, isIdent⟩ := is.child (show [_][0]? = some _ from rfl)
  have isWord := child_ident identIs.formed isIdent
  have target : Shaped .binding (reshape ident .binding [ident.child 0]) :=
    reshape_shaped identIs.asRead (isTree_of_kind isIdent) (.cons (.word isWord rfl) .nil)
  have property : Shaped .patternProperty (.read .patternProperty { flags with shorthand := true }
      known.source known.span [ident.child 0, reshape ident .binding [ident.child 0]]) :=
    read_shaped (.cons (.key ⟨formed_of_not_isTree isWord, .inl (isInert_of_not_isTree isWord)⟩ rfl)
      (.cons (.operand (target.operand rfl) rfl) .nil))
  exact property.operand rfl

/-- The children of a node that was read. -/
def AllFormed (children : List (Child Node)) (holds : Node → Prop) : Prop :=
  ∀ child, child ∈ children → ReadFormed child.node ∧ holds child.node

theorem ReadFormed.all {place : Option Place} {children : List (Child Node)}
    {holds : Node → Prop} (is : ReadFormed (.tree kind flags place children))
    (admits : ∀ index node, (kind.role index).admits node → holds node) :
    AllFormed children holds := by
  intro child there
  obtain ⟨index, found⟩ := List.mem_iff_getElem?.mp there
  obtain ⟨childIs, admitted⟩ := is.child found
  exact ⟨childIs, admits index child.node admitted⟩

theorem AllFormed.head {child : Child Node} {rest : List (Child Node)} {holds : Node → Prop}
    (all : AllFormed (child :: rest) holds) : ReadFormed child.node ∧ holds child.node :=
  all child List.mem_cons_self

theorem AllFormed.tail {child : Child Node} {rest : List (Child Node)} {holds : Node → Prop}
    (all : AllFormed (child :: rest) holds) : AllFormed rest holds :=
  fun other there => all other (List.mem_cons_of_mem _ there)

/-- The operand of a spread as the target of a rest element. -/
theorem rest_operand {place : Option Place} {seat : Option Nat} {value inner : Node}
    (is : ReadFormed (.tree .spread flags place [⟨seat, value⟩]))
    (targeted : Targeted value inner) :
    Operand .loose (reshape (.tree .spread flags place [⟨seat, value⟩]) .rest [inner]) := by
  have isOperand := admits_required (is.child (show [_][0]? = some _ from rfl)).2
  exact (reshape_shaped is.asRead rfl
    (.cons (.operand (targeted.operand isOperand) rfl) .nil)).operand rfl

/-- An expression that is taken for a target is formed. -/
theorem toTarget_targeted (nested : Bool) (node : Node) :
    ReadFormed node → ∀ target, toTarget nested node = .ok target → Targeted node target := by
  refine toTarget.induct
    (fun nested node => ReadFormed node → ∀ target, toTarget nested node = .ok target →
      Targeted node target)
    (fun elements => AllFormed elements (fun node => node.isOperand = true ∨ node = .absent) →
      ∀ nodes, toElements elements = .ok nodes → All IsOptional nodes)
    (fun members => AllFormed members (fun _ => True) →
      ∀ nodes, toProperties members = .ok nodes → All (Operand .loose) nodes)
    ?object ?array ?default ?assign ?ident ?other ?noElements ?spreadElement ?element
    ?noProperties ?property ?shorthand ?spread ?refused nested node
  case object =>
    intro nested flags place members induction is target isTarget
    rw [toTarget] at isTarget
    obtain ⟨nodes, areNodes, isTarget⟩ := Calculation.of_bind_eq_ok isTarget
    cases isTarget
    refine .of_shaped (reshape_shaped is.asRead rfl (.of_all
      (induction (is.all fun _ _ _ => trivial) nodes areNodes) fun _ _ operand => ?_)) rfl rfl
    exact .operand operand rfl
  case array =>
    intro nested flags place elements induction is target isTarget
    rw [toTarget] at isTarget
    obtain ⟨nodes, areNodes, isTarget⟩ := Calculation.of_bind_eq_ok isTarget
    cases isTarget
    have targets := induction (is.all fun _ _ => admits_optional) nodes areNodes
    refine .of_shaped (reshape_shaped is.asRead rfl (.of_all targets fun _ _ optional => ?_))
      rfl rfl
    exact .optional optional rfl
  case default =>
    intro nested flags place s target t op u value isDefault induction is result isResult
    simp only [toTarget, isDefault, if_true] at isResult
    obtain ⟨inner, isInner, isResult⟩ := Calculation.of_bind_eq_ok isResult
    cases isResult
    obtain ⟨targetIs, isTarget⟩ := is.child (show [_, _, _][0]? = some _ from rfl)
    obtain ⟨valueIs, isValue⟩ := is.child (show [_, _, _][2]? = some _ from rfl)
    have innerIs := (induction targetIs inner isInner).operand (admits_required isTarget)
    exact .of_shaped (reshape_shaped is.asRead rfl (.cons (.operand innerIs rfl)
      (.cons (.operand (valueIs.operand (admits_required isValue)) rfl) .nil))) rfl rfl
  case assign =>
    intro nested flags place s target t op u value notDefault is result isResult
    simp only [toTarget, notDefault] at isResult
    cases isResult
    exact ⟨is.operand, id⟩
  case ident =>
    intro nested flags place children is target isTarget
    rw [toTarget] at isTarget
    cases nested with
    | true =>
        cases isTarget
        exact .of_shaped (binding_shaped is rfl) rfl rfl
    | false =>
        cases isTarget
        exact ⟨is.operand, id⟩
  case other =>
    intro nested node notObject notArray notAssign notIdent is target isTarget
    rw [toTarget] at isTarget
    · cases isTarget
      exact ⟨is.operand, id⟩
    all_goals assumption
  case noElements =>
    intro all nodes areNodes
    cases areNodes
    exact .nil
  case spreadElement =>
    intro seat flags place s value rest valueInduction restInduction all nodes areNodes
    rw [toElements] at areNodes
    obtain ⟨inner, isInner, areNodes⟩ := Calculation.of_bind_eq_ok areNodes
    obtain ⟨others, areOthers, areNodes⟩ := Calculation.of_bind_eq_ok areNodes
    cases areNodes
    have isRead := (all.head.1.child (show [_][0]? = some _ from rfl)).1
    have targeted := valueInduction isRead inner isInner
    exact .cons (.inl (rest_operand all.head.1 targeted))
      (restInduction all.tail others areOthers)
  case element =>
    intro seat node rest notSpread nodeInduction restInduction all nodes areNodes
    rw [toElements] at areNodes
    · obtain ⟨first, isFirst, areNodes⟩ := Calculation.of_bind_eq_ok areNodes
      obtain ⟨others, areOthers, areNodes⟩ := Calculation.of_bind_eq_ok areNodes
      cases areNodes
      have targeted := nodeInduction all.head.1 first isFirst
      exact .cons (all.head.2.imp targeted.operand targeted.absent)
        (restInduction all.tail others areOthers)
    all_goals assumption
  case noProperties =>
    intro all nodes areNodes
    cases areNodes
    exact .nil
  case property =>
    intro seat flags place s key t value rest valueInduction restInduction all nodes areNodes
    rw [toProperties] at areNodes
    obtain ⟨inner, isInner, areNodes⟩ := Calculation.of_bind_eq_ok areNodes
    obtain ⟨others, areOthers, areNodes⟩ := Calculation.of_bind_eq_ok areNodes
    cases areNodes
    obtain ⟨keyIs, isKey⟩ := all.head.1.child (show [_, _][0]? = some _ from rfl)
    obtain ⟨valueIs, isValue⟩ := all.head.1.child (show [_, _][1]? = some _ from rfl)
    have innerIs := (valueInduction valueIs inner isInner).operand (admits_required isValue)
    refine .cons ?_ (restInduction all.tail others areOthers)
    exact (reshape_shaped all.head.1.asRead rfl (.cons (.key ⟨keyIs.formed, isKey⟩ rfl)
      (.cons (.operand innerIs rfl) .nil))).operand rfl
  case shorthand =>
    intro seat flags place s ident rest restInduction all nodes areNodes
    rw [toProperties] at areNodes
    obtain ⟨others, areOthers, areNodes⟩ := Calculation.of_bind_eq_ok areNodes
    cases areNodes
    exact .cons (shorthandTarget_operand all.head.1) (restInduction all.tail others areOthers)
  case spread =>
    intro seat flags place s value rest valueInduction restInduction all nodes areNodes
    rw [toProperties] at areNodes
    obtain ⟨inner, isInner, areNodes⟩ := Calculation.of_bind_eq_ok areNodes
    obtain ⟨others, areOthers, areNodes⟩ := Calculation.of_bind_eq_ok areNodes
    cases areNodes
    have isRead := (all.head.1.child (show [_][0]? = some _ from rfl)).1
    have targeted := valueInduction isRead inner isInner
    exact .cons (rest_operand all.head.1 targeted) (restInduction all.tail others areOthers)
  case refused =>
    intro head tail notProperty notShorthand notSpread all nodes areNodes
    rw [toProperties] at areNodes
    · cases areNodes
    all_goals assumption

theorem asTarget_targeted {node : Node} (is : ReadFormed node) :
    Provides (asTarget node) (Targeted node) := by
  unfold asTarget
  split
  case h_1 target isTarget => exact .of_pure (toTarget_targeted false node is target isTarget)
  case h_2 => exact .after fun _ => .of_failAt

end Grammar

end ScriptFold
