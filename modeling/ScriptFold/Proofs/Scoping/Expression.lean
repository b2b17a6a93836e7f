import ScriptFold.Proofs.Coupling.Walk
import ScriptFold.Proofs.Fold.Returns
import ScriptFold.Proofs.Shape.Walked

/-!
# Expressions stay expressions

Without macros and fragments, no statement ever comes out of folding an expression: what an
identifier stands for is a literal then, and every other step puts together what its operands
have become.
-/

namespace ScriptFold

open FoldM (Gives)

/-- What folding makes of a node that is no statement: the same node, another node that is no
statement either, or nothing. -/
inductive Folded.Expresses (former : Node) : Folded → Prop where
  | same {node : Node} (sameKind : node.kind? = former.kind?) : Expresses former (.same node)
  | instead {node : Node} (notStatement : node.isStatement = false) :
      Expresses former (.instead node)
  | removed : Expresses former .removed

/-- A node stays, though its children may be new. -/
def Folded.Keeps (former : Node) (folded : Folded) : Prop :=
  ∃ node, folded = .same node ∧ node.kind? = former.kind?

/-- A context with only values and functions. -/
structure Context.Plain (context : Context) : Prop where
  macros : context.macros = []
  fragments : context.fragments = []

/-- A walker without macros and fragments, under which nodes of at most so many levels that are no
statements do not become any. -/
structure Walker.Plain (walker : Walker) (levels : Nat) : Prop where
  context : walker.context.Plain
  expresses : ∀ node, Below .loose levels node → node.isStatement = false →
    Gives (walker.walk node) (Folded.Expresses node)

variable {flags : Flags} {place : Option Place} {walker : Walker} {branch : Branch} {former : Node}
variable {levels : Nat}

theorem Branch.keep_keeps {children : List (Child Node)} :
    (branch.keep children).Keeps branch.toNode :=
  ⟨_, rfl, rfl⟩

theorem Folded.Keeps.expresses {folded : Folded} (keeps : folded.Keeps former) :
    folded.Expresses former := by
  obtain ⟨node, rfl, sameKind⟩ := keeps
  exact .same sameKind

theorem Branch.keep_expresses {children : List (Child Node)} :
    (branch.keep children).Expresses branch.toNode :=
  Branch.keep_keeps.expresses

theorem Folded.expresses_ofNode {node : Node} (notStatement : node.isStatement = false) :
    (Folded.ofNode node).Expresses former := by
  cases node with
  | absent => exact .removed
  | leaf | tree => exact .instead notStatement

theorem isStatement_of_kind {node : Node} {kind : Kind} (isKind : node.kind? = some kind) :
    node.isStatement = kind.isStatement := by
  rw [Node.isStatement, isKind]
  rfl

theorem not_isStatement_of_isOperand {node : Node} (isOperand : node.isOperand = true) :
    node.isStatement = false := by
  cases node with
  | absent | leaf => rfl
  | tree => simpa [Node.isOperand, Node.isStatement, Node.kind?] using isOperand

/-- What stands where an operand is asked for is no statement. -/
theorem Role.not_isStatement_of_admits {optional : Bool} {node : Node}
    (admitted : (Role.operand optional []).admits node) : node.isStatement = false := by
  rcases admitted with isOperand | ⟨_, rfl⟩ | ⟨_, isAlso, _⟩
  · exact not_isStatement_of_isOperand isOperand
  · rfl
  · cases isAlso

/-- The operand at an index of a branch. -/
theorem Below.operand {index : Nat} {optional : Bool} {child : Child Node}
    (below : Below .loose (levels + 1) branch.toNode)
    (found : branch.children[index]? = some child)
    (isRole : branch.kind.role index = .operand optional []) :
    Below .loose levels child.node ∧ child.node.isStatement = false := by
  obtain ⟨slotted, childBelow⟩ := Below.slotted below found
  have admitted := slotted.fits.admitted
  rw [isRole] at admitted
  exact ⟨childBelow, Role.not_isStatement_of_admits admitted⟩

/-! ### Positions of expressions -/

namespace Slot

theorem nodeOf_notStatement {value : Value} :
    Gives (nodeOf value) fun made => ∀ node, made = some node → node.isStatement = false := by
  have writes : Gives (nodeOf value) fun made => Literal.ofValue? value = .ok made :=
    .of_calculate
  apply writes.mono
  rintro _ written node rfl
  have operand : Operand .loose node := ofValue?_operand written
  exact not_isStatement_of_isOperand operand.isOperand

/-- The literal of a value, or whatever is done instead if it has none. -/
theorem literal_expresses {value : Value} {otherwise : FoldM Folded}
    (expresses : Gives otherwise (Folded.Expresses former)) :
    Gives
      (do
        match ← nodeOf value with
        | some literal => return .instead literal
        | none => otherwise)
      (Folded.Expresses former) := by
  apply nodeOf_notStatement.bind
  intro made notStatement
  cases made with
  | some literal => exact .of_pure (.instead (notStatement literal rfl))
  | none => exact expresses

theorem expressionOf_notStatement {seat : Option Nat} {outcome : Outcome}
    (notStatement : outcome.node.isStatement = false) :
    Gives (expressionOf former seat outcome) fun result => result.node.isStatement = false := by
  unfold expressionOf
  cases isKind : outcome.node.kind? with
  | none =>
      apply Gives.of_pure
      rwa [node_inSeat]
  | some kind =>
      have notKind := (isStatement_of_kind isKind).symm.trans notStatement
      simp only [notKind]
      apply Gives.of_pure
      rwa [node_inSeat]

/-- An expression in its position. -/
theorem expression_notStatement (plain : walker.Plain levels) {child : Child Node}
    (operand : Below .loose levels child.node ∧ child.node.isStatement = false) :
    Gives (expression walker child) fun result => result.node.isStatement = false := by
  obtain ⟨below, notStatement⟩ := operand
  unfold expression
  split
  case isTrue => exact .of_pure notStatement
  case isFalse =>
    apply (plain.expresses child.node below notStatement).bind
    intro folded expresses
    cases expresses with
    | removed => exact .of_pure rfl
    | «instead» isOther => exact expressionOf_notStatement isOther
    | @same node sameKind =>
        apply expressionOf_notStatement
        rwa [Outcome.node, Node.isStatement, sameKind]

end Slot

/-! ### Operators -/

namespace Operation

theorem replaceBy_expresses {result : Folded} {value : Value}
    (expresses : result.Expresses former) :
    Gives (replaceBy result value) (Folded.Expresses former) := by
  apply Slot.nodeOf_notStatement.bind
  intro made notStatement
  apply Gives.of_pure
  cases made with
  | none => exact expresses
  | some node => exact .instead (notStatement node rfl)

private theorem foldBinaryValues_expresses {node : Node} {result : Folded} {op : Text}
    {left right : Value} (expresses : result.Expresses former) :
    Gives (foldBinaryValues node result op left right) (Folded.Expresses former) := by
  unfold foldBinaryValues
  split
  · apply Gives.after
    intro found
    split
    · exact replaceBy_expresses expresses
    · exact .of_pure expresses
  · split
    · exact .of_pure expresses
    · split
      · apply Gives.after
        intro value
        exact replaceBy_expresses expresses
      · apply Gives.after
        intro _
        exact .of_pure expresses

theorem foldBinary_expresses :
    Gives (foldBinary walker branch) (Folded.Expresses branch.toNode) := by
  unfold foldBinary
  split
  · apply Gives.after
    intro left
    apply Gives.after
    intro right
    apply Gives.after
    intro leftValue
    apply Gives.after
    intro rightValue
    split
    · exact foldBinaryValues_expresses Branch.keep_expresses
    · exact .of_pure Branch.keep_expresses
  · exact .of_throw

/-- What a logical expression comes down to is one of its operands. -/
theorem fromLeft_among {op : Text} {left right : Node} :
    Gives (fromLeft op left right) fun chosen =>
      ∀ node, chosen = some node → node = left ∨ node = right := by
  have chooses : ∀ (condition : Bool) (first second node : Node),
      (if condition then first else second) = node → node = first ∨ node = second := by
    intro condition first second node isNode
    cases condition
    · exact .inr isNode.symm
    · exact .inl isNode.symm
  apply Gives.after
  intro known
  cases known with
  | none => exact .of_pure nofun
  | some value =>
      dsimp only
      split
      · apply Gives.of_pure
        intro node isNode
        exact (chooses _ _ _ _ (Option.some.inj isNode)).symm
      · split
        · apply Gives.of_pure
          intro node isNode
          exact chooses _ _ _ _ (Option.some.inj isNode)
        · split
          · apply Gives.of_pure
            intro node isNode
            exact (chooses _ _ _ _ (Option.some.inj isNode)).symm
          · exact .of_pure nofun

theorem foldLogical_expresses (plain : walker.Plain levels) (isKind : branch.kind = .logical)
    (below : Below .loose (levels + 1) branch.toNode) :
    Gives (foldLogical walker branch) (Folded.Expresses branch.toNode) := by
  apply Gives.of_child.bind
  intro left isLeft
  apply (Slot.expression_notStatement plain (below.operand isLeft (by rw [isKind]; rfl))).bind
  intro left leftIs
  apply Gives.of_child.bind
  intro right isRight
  apply (Slot.expression_notStatement plain (below.operand isRight (by rw [isKind]; rfl))).bind
  intro right rightIs
  split
  · apply fromLeft_among.bind
    intro chosen among
    cases chosen with
    | none => exact .of_pure Branch.keep_expresses
    | some node =>
        apply Gives.of_pure
        apply Folded.expresses_ofNode
        rcases among node rfl with rfl | rfl
        · exact leftIs
        · exact rightIs
  · exact .of_throw

private theorem applyUnary_expresses {op : Text} {operand : Child Node} :
    Gives (applyUnary branch op operand) (Folded.Expresses branch.toNode) := by
  apply Gives.after
  intro known
  cases known with
  | none => exact .of_pure Branch.keep_expresses
  | some value =>
      dsimp only
      split
      · split
        · exact .of_pure Branch.keep_expresses
        · exact .of_pure Branch.keep_expresses
      · split
        · apply Gives.after
          intro result
          exact replaceBy_expresses Branch.keep_expresses
        · apply Gives.after
          intro _
          exact .of_pure Branch.keep_expresses

theorem foldUnary_expresses {op : Text} :
    Gives (foldUnary walker branch op) (Folded.Expresses branch.toNode) := by
  apply Gives.after
  intro operand
  apply (Gives.refl _).either
  intro folded _
  exact applyUnary_expresses

private theorem not_isStatement_of_isPrimitive {node : Node}
    (isPrimitive : Literal.isPrimitive node = .ok true) : node.isStatement = false := by
  unfold Literal.isPrimitive Literal.token? at isPrimitive
  split at isPrimitive
  case h_1 isToken =>
    split at isToken
    · rfl
    · cases isToken
  case h_2 => cases isPrimitive

theorem foldParen_expresses : Gives (foldParen walker branch) (Folded.Expresses branch.toNode) := by
  apply Gives.after
  intro child
  apply Gives.after
  intro inner
  apply Gives.of_calculate.bind
  intro isPrimitive known
  cases isPrimitive with
  | true => exact .of_pure (.instead (not_isStatement_of_isPrimitive known))
  | false => exact .of_pure Branch.keep_expresses

theorem foldTemplate_expresses :
    Gives (foldTemplate walker branch) (Folded.Expresses branch.toNode) := by
  apply Gives.after
  rintro ⟨children, text⟩
  dsimp only
  split
  · split
    · exact .of_pure Branch.keep_expresses
    · exact replaceBy_expresses Branch.keep_expresses
  · exact .of_pure Branch.keep_expresses

theorem foldTagged_keeps : Gives (foldTagged walker branch) (Folded.Keeps branch.toNode) := by
  apply Gives.after
  intro first
  apply Gives.after
  intro tag
  apply Gives.after
  intro quasi
  split
  · apply Gives.after
    intro parts
    exact .of_pure Branch.keep_keeps
  · exact .of_throw

end Operation

namespace Control

theorem conditional_expresses (plain : walker.Plain levels) (isKind : branch.kind = .conditional)
    (below : Below .loose (levels + 1) branch.toNode) :
    Gives (conditional walker branch) (Folded.Expresses branch.toNode) := by
  apply Gives.after
  intro test
  apply Gives.after
  intro test
  apply Gives.of_child.bind
  intro consequent isConsequent
  apply (Slot.expression_notStatement plain
    (below.operand isConsequent (by rw [isKind]; rfl))).bind
  intro consequent consequentIs
  apply Gives.of_child.bind
  intro alternate isAlternate
  apply (Slot.expression_notStatement plain
    (below.operand isAlternate (by rw [isKind]; rfl))).bind
  intro alternate alternateIs
  apply Gives.after
  intro known
  cases known with
  | none => exact .of_pure Branch.keep_expresses
  | some value =>
      apply Gives.of_pure
      apply Folded.expresses_ofNode
      split
      · exact consequentIs
      · exact alternateIs

end Control

/-! ### Names and calls -/

/-- Without fragments, a name stands for a literal or for itself. -/
theorem Name.fold_expresses (plain : walker.Plain levels) :
    Gives (Name.fold walker branch) (Folded.Expresses branch.toNode) := by
  unfold Name.fold
  dsimp only
  split
  · exact .of_pure (.same rfl)
  · apply Gives.after
    intro _
    rw [plain.context.fragments]
    split
    case h_1 isFragment =>
      rw [List.lookup_nil] at isFragment
      cases isFragment
    case h_2 =>
      apply Slot.literal_expresses
      apply Gives.after
      intro _
      exact .of_pure (.same rfl)
    case h_3 => exact .of_pure (.same rfl)

namespace Chain

theorem callFunction_expresses {name : Text} {hostName : String} :
    Gives (callFunction walker branch name hostName) (Folded.Expresses former) := by
  apply Gives.after
  rintro ⟨args, values⟩
  dsimp only
  split
  · exact .of_fail
  · apply Gives.after
    intro result
    exact Slot.literal_expresses .of_fail

theorem methodCall_expresses {callee : Child Node} {link : Branch} :
    Gives (methodCall walker branch callee link) (Folded.Expresses branch.toNode) := by
  apply Gives.after
  intro object
  apply Gives.after
  intro read
  apply Gives.after
  rintro ⟨key, name⟩
  apply Gives.after
  rintro ⟨args, values⟩
  have kept : Gives
      (do
        let object ← read.settle walker
        let link := Node.tree link.kind link.flags link.place
          ((link.children.set 0 object).set 1 key)
        return branch.keep ((branch.children.set 0 ⟨callee.seat, link⟩).set 1 args))
      (Folded.Expresses branch.toNode) := by
    apply Gives.after
    intro object
    exact .of_pure Branch.keep_expresses
  dsimp only
  split
  · apply Gives.after
    intro result
    split
    · exact Slot.literal_expresses .of_fail
    · exact kept
  · exact kept

/-- Without macros, no call is expanded. -/
theorem call_expresses (plain : walker.Plain levels) :
    Gives (call walker branch) (Folded.Expresses branch.toNode) := by
  apply Gives.after
  intro callee
  split
  case h_1 => exact callFunction_expresses
  case h_2 name isExpansion =>
    rw [Name.callee, plain.context.macros] at isExpansion
    split at isExpansion
    · cases isExpansion
    · split at isExpansion <;> cases isExpansion
  case h_3 =>
    split
    · exact methodCall_expresses
    · exact methodCall_expresses
    · apply (Gives.refl _).either
      intro callee _
      apply Gives.after
      rintro ⟨args, values⟩
      exact .of_pure Branch.keep_expresses

private theorem readProperty_notStatement {value : Value} {name : Text} :
    Gives (readProperty branch value name) fun found =>
      ∀ node, found = some node → node.isStatement = false := by
  unfold readProperty
  split
  · apply Gives.of_pure
    rintro node isNode
    cases isNode
    rfl
  · apply Gives.after
    intro read
    split
    · exact .of_fail
    · exact .of_pure nofun
    · apply Slot.nodeOf_notStatement.bind
      intro made notStatement
      cases made with
      | some literal => exact .of_pure notStatement
      | none =>
          apply Gives.after
          intro _
          exact .of_pure nofun

theorem member_expresses : Gives (member walker branch) (Folded.Expresses branch.toNode) := by
  apply Gives.after
  intro object
  apply Gives.after
  intro read
  apply Gives.after
  rintro ⟨key, name⟩
  have kept : Gives
      (do
        let object ← read.settle walker
        return branch.keep ((branch.children.set 0 object).set 1 key))
      (Folded.Expresses branch.toNode) := by
    apply Gives.after
    intro object
    exact .of_pure Branch.keep_expresses
  dsimp only
  split
  · apply readProperty_notStatement.bind
    intro found notStatement
    cases found with
    | some node => exact .of_pure (.instead (notStatement node rfl))
    | none => exact kept
  · exact kept

end Chain

/-! ### Assignments and aggregates -/

namespace Target

theorem foldAssign_keeps : Gives (foldAssign walker branch) (Folded.Keeps branch.toNode) := by
  unfold foldAssign
  split
  · apply Gives.after
    intro target
    apply Gives.after
    intro value
    exact .of_pure Branch.keep_keeps
  · exact .of_throw

theorem foldUpdate_keeps : Gives (foldUpdate walker branch) (Folded.Keeps branch.toNode) := by
  apply Gives.after
  intro child
  apply Gives.after
  intro op
  apply Gives.after
  intro target
  exact .of_pure Branch.keep_keeps

theorem foldUnary_expresses :
    Gives (foldUnary walker branch) (Folded.Expresses branch.toNode) := by
  apply Gives.after
  intro op
  split
  · apply Gives.after
    intro child
    apply Gives.after
    intro target
    exact .of_pure Branch.keep_expresses
  · exact Operation.foldUnary_expresses

end Target

namespace Aggregate

private theorem shorthand_expresses : Gives (shorthand walker branch)
    (Folded.Expresses branch.toNode) := by
  apply Gives.after
  intro ident
  apply Gives.after
  intro value
  split
  · exact .of_pure Branch.keep_expresses
  · apply Gives.after
    intro key
    exact .of_pure (.instead rfl)

private theorem property_keeps (isProperty : branch.kind = .property) :
    Gives (objectMember walker branch) (Folded.Keeps branch.toNode) := by
  unfold objectMember
  rw [isProperty]
  apply Gives.after
  intro children
  apply Gives.after
  intro child
  apply Gives.after
  intro value
  exact .of_pure Branch.keep_keeps

theorem fold_expresses : Gives (fold walker branch) (Folded.Expresses branch.toNode) := by
  unfold fold
  split
  case h_1 | h_2 | h_3 =>
    apply Gives.after
    intro children
    exact .of_pure Branch.keep_expresses
  case h_4 =>
    apply Gives.after
    intro child
    apply Gives.after
    intro inner
    exact .of_pure Branch.keep_expresses
  case h_5 isProperty => exact (property_keeps isProperty).mono fun _ keeps => keeps.expresses
  case h_6 isShorthand =>
    unfold objectMember
    rw [isShorthand]
    exact shorthand_expresses
  case h_7 => exact .of_pure (.same rfl)

end Aggregate

/-! ### Nodes that stay -/

namespace Aggregate

theorem pattern_keeps {kind : Kind} {children : List (Child Node)}
    (isPattern : kind.category? = some .pattern) :
    Gives (pattern walker (.tree kind flags place children)) fun outcome =>
      outcome.toFolded.Keeps (.tree kind flags place children) := by
  have stays : ∀ {others : List (Child Node)},
      (Outcome.same (.tree kind flags place others)).toFolded.Keeps
        (.tree kind flags place children) :=
    ⟨_, rfl, rfl⟩
  cases kind <;> cases isPattern
  case arrayPattern | objectPattern | params =>
    apply Gives.after
    intro elements
    exact .of_pure stays
  case patternProperty =>
    match children with
    | [] => exact .of_throw
    | [key] =>
        apply Gives.after
        intro key
        exact .of_throw
    | key :: ⟨seat, target⟩ :: rest =>
        apply Gives.after
        intro key
        apply Gives.after
        intro target
        exact .of_pure stays
  case assignPattern =>
    match children with
    | [] => exact .of_throw
    | [⟨seat, target⟩] =>
        apply Gives.after
        intro target
        exact .of_throw
    | ⟨seat, target⟩ :: default :: rest =>
        apply Gives.after
        intro target
        apply Gives.after
        intro default
        exact .of_pure stays
  case rest =>
    match children with
    | [] => exact .of_throw
    | ⟨seat, target⟩ :: rest =>
        apply Gives.after
        intro target
        exact .of_pure stays

end Aggregate

namespace Callable

/-- A declaration keeps its word, too. -/
theorem declared_keeps :
    Gives (declared walker former) fun node => node.kind? = former.kind? ∧
      (former.kind? = some .varDecl → node.child 0 = former.child 0) := by
  fun_cases declared walker former
  case case1 => exact .of_pure ⟨rfl, fun _ => rfl⟩
  case case2 word declarators =>
    apply Gives.after
    intro declarators
    exact .of_pure ⟨rfl, fun _ => rfl⟩
  case case3 target initial notDeclaration =>
    apply Gives.after
    intro target
    apply Gives.after
    intro initial
    exact .of_pure ⟨rfl, fun isDeclaration => absurd (Option.some.inj isDeclaration) notDeclaration⟩
  case case4 => exact .of_throw
  case case5 => exact .of_throw

theorem fold_keeps : Gives (fold walker branch) (Folded.Keeps branch.toNode) := by
  unfold fold
  split
  case h_1 | h_2 =>
    apply Gives.after
    intro params
    apply Gives.after
    intro body
    exact .of_pure Branch.keep_keeps
  case h_3 =>
    apply Gives.after
    intro params
    apply (Gives.refl _).either
    intro body _
    exact .of_pure Branch.keep_keeps
  case h_4 | h_5 =>
    apply Gives.after
    intro superclass
    apply Gives.after
    intro body
    exact .of_pure Branch.keep_keeps
  case h_6 =>
    apply Gives.after
    intro members
    exact .of_pure Branch.keep_keeps
  case h_7 =>
    apply Gives.after
    intro child
    apply Gives.after
    intro key
    apply Gives.after
    intro child
    apply Gives.after
    intro params
    apply Gives.after
    intro child
    apply Gives.after
    intro body
    exact .of_pure Branch.keep_keeps
  case h_8 =>
    apply Gives.after
    intro child
    apply Gives.after
    intro key
    apply Gives.after
    intro child
    apply Gives.after
    intro value
    exact .of_pure Branch.keep_keeps
  case h_9 =>
    apply Gives.after
    intro child
    apply Gives.after
    intro body
    exact .of_pure Branch.keep_keeps
  case h_10 => exact .of_throw

end Callable

theorem Slot.everyChild_keeps : Gives (everyChild walker branch) (Folded.Keeps branch.toNode) := by
  apply Gives.after
  intro children
  exact .of_pure Branch.keep_keeps

/-! ### All expressions -/

namespace Fold

theorem compound_keeps : Gives (compound walker branch) (Folded.Keeps branch.toNode) := by
  apply Gives.after
  intro children
  exact .of_pure Branch.keep_keeps

private theorem passthrough_expresses (notStatement : branch.kind.isStatement = false)
    (isPassthrough : branch.kind.category? = some .passthrough) :
    Gives (passthrough walker branch) (Folded.Expresses branch.toNode) := by
  obtain ⟨kind, flags, place, children⟩ := branch
  cases kind <;> first | (cases isPassthrough <;> cases notStatement; done) | skip
  case paren => exact Operation.foldParen_expresses
  case template => exact Operation.foldTemplate_expresses
  case taggedTemplate => exact Operation.foldTagged_keeps.mono fun _ keeps => keeps.expresses
  case importCall | yieldExpr | awaitExpr | spread | sequence =>
    exact Slot.everyChild_keeps.mono fun _ keeps => keeps.expresses

private theorem switchCase_keeps (isCase : branch.kind = .switchCase) :
    Gives (Slot.statementList walker branch) (Folded.Keeps branch.toNode) := by
  unfold Slot.statementList
  rw [if_pos isCase]
  split
  · apply Gives.after
    intro test
    apply Gives.after
    intro statements
    exact .of_pure Branch.keep_keeps
  · exact .of_throw

theorem step_expresses (plain : walker.Plain levels)
    (notStatement : branch.kind.isStatement = false)
    (below : Below .loose (levels + 1) branch.toNode) :
    Gives (step walker branch) (Folded.Expresses branch.toNode) := by
  have of_keeps : ∀ {step : FoldM Folded}, Gives step (Folded.Keeps branch.toNode) →
      Gives step (Folded.Expresses branch.toNode) :=
    fun keeps => keeps.mono fun _ keeps => keeps.expresses
  unfold step
  split
  case h_1 =>
    apply Gives.after
    intro _
    exact .of_pure (.same rfl)
  case h_2 => exact .of_pure (.same rfl)
  case h_3 isCategory => exact passthrough_expresses notStatement isCategory
  case h_4 isCategory =>
    apply of_keeps
    apply switchCase_keeps
    cases isKind : branch.kind <;> rw [isKind] at isCategory notStatement <;>
      first | rfl | (cases isCategory <;> cases notStatement)
  case h_5 => exact Operation.foldBinary_expresses
  case h_6 => exact Target.foldUnary_expresses
  case h_7 isCategory =>
    apply Operation.foldLogical_expresses plain _ below
    cases isKind : branch.kind <;> rw [isKind] at isCategory <;> first | rfl | cases isCategory
  case h_8 isCategory =>
    split
    case isTrue isIf =>
      rw [isIf] at notStatement
      cases notStatement
    case isFalse notIf =>
      apply Control.conditional_expresses plain _ below
      cases isKind : branch.kind <;> rw [isKind] at isCategory <;>
        first | rfl | exact absurd isKind notIf | cases isCategory
  case h_9 isCategory | h_10 isCategory =>
    cases isKind : branch.kind <;> rw [isKind] at isCategory notStatement <;>
      (cases isCategory <;> cases notStatement)
  case h_11 => exact Name.fold_expresses plain
  case h_12 => exact Chain.call_expresses plain
  case h_13 => exact Chain.member_expresses
  case h_14 =>
    split
    · exact of_keeps Target.foldAssign_keeps
    · exact of_keeps Target.foldUpdate_keeps
  case h_15 =>
    apply Callable.declared_keeps.bind
    intro node kept
    exact .of_pure (.same kept.1)
  case h_16 => exact of_keeps Callable.fold_keeps
  case h_17 => exact Aggregate.fold_expresses
  case h_18 isCategory =>
    apply (Aggregate.pattern_keeps isCategory).bind
    intro outcome keeps
    exact .of_pure keeps.expresses
  case h_19 => exact of_keeps compound_keeps

/-- The walker that folds all nodes below a node. -/
def walkerOf (context : Context) (expand : Expander) : Walker :=
  ⟨context, expand context, walk context expand⟩

/-- Without macros and fragments, folding a node that is no statement gives no statement. -/
theorem walkerOf_plain {context : Context} (plain : context.Plain) (expand : Expander)
    (levels : Nat) : (walkerOf context expand).Plain levels := by
  induction levels with
  | zero =>
      refine ⟨plain, fun node below notStatement => ?_⟩
      cases node with
      | absent | leaf => exact .of_pure (.same rfl)
      | tree kind flags place children => exact absurd below.height (Nat.not_succ_le_zero _)
  | succ levels induction =>
      refine ⟨plain, fun node below notStatement => ?_⟩
      cases node with
      | absent | leaf => exact .of_pure (.same rfl)
      | tree kind flags place children =>
          show Gives (walk context expand _) _
          rw [walk_tree]
          apply Gives.locating
          exact step_expresses induction notStatement below

end Fold

end ScriptFold
