import ScriptFold.Fold.Walk
import ScriptFold.Proofs.Shape.Callable
import ScriptFold.Proofs.Shape.Chain
import ScriptFold.Proofs.Shape.Control

/-!
# Folded trees

Every step keeps the law that the walker below it keeps, so folding a tree of any height
does.
-/

namespace ScriptFold

open FoldM (Meets EachFrom)

variable {law : Law} {levels : Nat} {walker : Walker} {given : Prop}
variable {kind : Kind} {flags : Flags} {place : Option Place} {former : Node}

/-! ### Nodes that pass on to their children -/

/-- What an expression statement holds then, or becomes. -/
theorem expressionStatement_placed {children : List (Child Node)} {seat : Option Nat}
    (outcome : Outcome) :
    Meets (Formed .loose (.tree .exprStmt flags place children) ∧ Good law outcome.node ∧
        outcome.node.isTree = true)
      (do
        let put (child : Child Node) : Folded :=
          .same (.tree .exprStmt flags place (children.set 0 child))
        match outcome.node.kind? with
        | some .exprStmt => return put ⟨none, ← FoldM.calculate (outcome.node.childAt 0)⟩
        | some kind =>
            if kind.isStatement then return .instead outcome.node
            return put (outcome.inSeat seat)
        | none => return put (outcome.inSeat seat))
      (Walked law (.tree .exprStmt flags place children)) := by
  have put : ∀ {child : Child Node}, Formed .loose (.tree .exprStmt flags place children) →
      Operand law child.node → Walked law (.tree .exprStmt flags place children)
        (.same (.tree .exprStmt flags place (children.set 0 child))) :=
    fun formed operand => .kept ((Patched.refl.set 0 (.of_operand operand rfl)).formed formed rfl)
      (Law.not_forbids_of_kind rfl)
  simp only
  split
  case h_1 isStatement =>
    refine Meets.of_calculate.bind fun inner => .of_pure fun known => put known.1.1 ?_
    exact exprStmt_operand known.1.2.1.formed isStatement known.2
  case h_2 kind _ isKind =>
    split
    case isTrue => exact .of_pure fun known => .instead known.2.1 known.2.2 rfl
    case isFalse notStatement =>
      refine .of_pure fun known => put known.1 ?_
      rw [node_inSeat]
      exact ⟨known.2.1, isOperand_of_kind isKind (by simpa using notStatement)⟩
  case h_3 isNone =>
    refine .of_pure fun known => ?_
    have isTree := known.2.2
    revert isNone isTree
    cases outcome.node <;> nofun

theorem expressionStatement_meets (sound : Sound law levels walker)
    {children : List (Child Node)} :
    Meets (Below law (levels + 1) (.tree .exprStmt flags place children))
      (Fold.expressionStatement walker ⟨.exprStmt, flags, place, children⟩)
      (Walked law (.tree .exprStmt flags place children)) := by
  refine Meets.of_child.bind fun child => ?_
  refine ((sound.walk child.node).weaken fun known => (known.1.slotted known.2).2).bind
    fun folded => ?_
  cases folded with
  | removed => exact .of_pure fun _ => .removed rfl
  | statements nodes =>
      refine .of_pure ?_
      rintro ⟨_, walked⟩
      cases walked with
      | statements nodesAre _ => exact .statements nodesAre rfl
  | same node =>
      show Meets _ (if _ then _ else _) _
      split
      case isTrue => exact .of_pure fun _ => .removed rfl
      case isFalse =>
        refine (expressionStatement_placed (.same node)).weaken ?_
        rintro ⟨known, walked⟩
        cases walked with
        | same good sameKind =>
            have operand := (known.1.slotted known.2).1.operand rfl
            exact ⟨known.1.formed, good,
              isTree_of_same_kind sameKind (isTree_of_isOperand operand.isOperand)⟩
  | instead node =>
      refine (expressionStatement_placed (.instead node)).weaken ?_
      rintro ⟨known, walked⟩
      cases walked with
      | instead good isTree _ => exact ⟨known.1.formed, good, isTree⟩

theorem exportDefault_meets (sound : Sound law levels walker) {children : List (Child Node)} :
    Meets (Below law (levels + 1) (.tree .exportDefault flags place children))
      (Fold.exportDefault walker ⟨.exportDefault, flags, place, children⟩)
      (Walked law (.tree .exportDefault flags place children)) := by
  refine Meets.of_child.bind fun exported => ?_
  have exportedMeets : Meets (FoundAt law levels .exportDefault flags place children 0 exported)
      (if exported.node.isOneOf [.functionDecl, .classDecl] then Slot.anyNode walker exported
        else Slot.expression walker exported) (Slotted law .exportDefault place 0) := by
    split
    case isTrue isDeclaration =>
      obtain ⟨inner, isOne, isKind⟩ := kind_of_isOneOf isDeclaration
      have stays : ∀ kind, kind ∈ [Kind.functionDecl, .classDecl] →
          kind.isStable = true ∧ kind.isStatement = true := by
        decide
      refine stable_meets sound 0 rfl isOne ?_ (stays inner isOne).1 (stays inner isOne).2 id
      rw [Node.isKind, isKind]
      exact beq_self_eq_true _
    case isFalse => exact operand_meets sound 0 rfl id
  refine Meets.either exportedMeets fun exported' => .of_pure fun known => ?_
  exact .kept ((Patched.refl.set 0 known.2).formed known.1.1.formed rfl)
    (Law.not_forbids_of_kind rfl)

/-- What becomes of a child by what it is. -/
inductive PassedOn (law : Law) (child : Child Node) : Child Node → Prop where
  | empty (notTree : child.node.isTree = false) : PassedOn law child child
  | statement {result : Child Node} (isStatement : child.node.isStatement = true)
      (good : Good law result.node) : PassedOn law child result
  | operand {result : Child Node} (filled : Filled law child result) : PassedOn law child result

theorem passedOn_meets (sound : Sound law levels walker) (child : Child Node) :
    Meets (Below law levels child.node)
      (match child.node.kind? with
        | none => pure child
        | some kind =>
            if kind.isStatement then Slot.statement walker child
            else Slot.expression walker child)
      (PassedOn law child) := by
  split
  case h_1 isNone =>
    refine .of_pure fun _ => .empty ?_
    revert isNone
    cases child.node <;> first | exact fun _ => rfl | nofun
  case h_2 inner isKind =>
    split
    case isTrue isStatement =>
      refine (statement_meets sound child).mono fun _ _ good => .statement ?_ good
      rw [Node.isStatement, isKind]
      exact isStatement
    case isFalse =>
      exact ((expression_meets sound child).weaken fun below =>
        ⟨below, .inl (isTree_of_kind isKind)⟩).mono fun _ _ filled => .operand filled

/-- Roles of positions that are filled by what stands in them. -/
def Role.passesOn : Role → Bool
  | .any | .nothing | .operand _ [] => true
  | _ => false

theorem Filled.good {child result : Child Node} (filled : Filled law child result) :
    Good law result.node := by
  cases filled with
  | empty isAbsent =>
      rw [isAbsent]
      exact .absent
  | full operand _ => exact operand.good

theorem PassedOn.slotted {child result : Child Node} {index : Nat}
    (passedOn : PassedOn law child result) (slotted : Slotted .loose kind place index child)
    (passesOn : (kind.role index).passesOn = true) : Slotted law kind place index result := by
  have admitted := slotted.fits.admitted
  cases isRole : kind.role index with
  | any =>
      cases passedOn with
      | empty notTree => exact slotted.of_not_isTree notTree
      | statement _ good => exact .of_any good isRole
      | operand filled => exact .of_any filled.good isRole
  | operand optional also =>
      rw [isRole] at passesOn admitted
      cases passedOn with
      | empty notTree => exact slotted.of_not_isTree notTree
      | operand filled => exact filled.slotted slotted (by rw [isRole]; rfl)
      | statement isStatement _ =>
          cases also with
          | cons => cases passesOn
          | nil =>
              rcases admitted with isOperand | ⟨_, isAbsent⟩ | ⟨_, isAlso, _⟩
              · revert isOperand isStatement
                cases child.node with
                | absent | leaf => nofun
                | tree kind =>
                    show kind.isStatement = true → (!kind.isStatement) = true → _
                    cases kind.isStatement <;> nofun
              · rw [isAbsent] at isStatement
                cases isStatement
              · cases isAlso
  | nothing =>
      rw [isRole] at admitted
      cases admitted
  | word | logicalOp | inert | key | callee | name | quasi | listed | only =>
      rw [isRole] at passesOn
      cases passesOn

theorem everyChild_meets (sound : Sound law levels walker) {children : List (Child Node)}
    (passesOn : ∀ index, (kind.role index).passesOn = true)
    (notFoldable : kind.isFoldable = false) :
    Meets (Below law (levels + 1) (.tree kind flags place children))
      (Slot.everyChild walker ⟨kind, flags, place, children⟩)
      (Walked law (.tree kind flags place children)) := by
  refine (Meets.mapM fun child there => (passedOn_meets sound child).weaken
    fun below => below.child there).bind fun results => .of_pure fun known => ?_
  refine .kept (formed_iff_slotted.mpr fun index result found => ?_)
    (Law.not_forbids_of_kind notFoldable)
  obtain ⟨child, isChild, passedOn⟩ := known.2 index result found
  rw [Nat.zero_add]
  exact passedOn.slotted (known.1.slotted isChild).1 (passesOn index)

theorem passthrough_meets (sound : Sound law levels walker) {children : List (Child Node)}
    (isPassthrough : kind.category? = some .passthrough) :
    Meets (Below law (levels + 1) (.tree kind flags place children))
      (Fold.passthrough walker ⟨kind, flags, place, children⟩)
      (Walked law (.tree kind flags place children)) := by
  cases kind <;> cases isPassthrough
  case exprStmt => exact expressionStatement_meets sound
  case paren => exact paren_meets sound
  case template => exact template_meets sound
  case taggedTemplate => exact tagged_meets sound
  case exportDefault => exact exportDefault_meets sound
  case exportDecl =>
    exact Meets.of_child.bind fun _ => (any_meets sound 0 rfl id).bind fun _ => .of_pure
      fun known => .kept ((Patched.refl.set 0 known.2).formed known.1.1.formed rfl)
        (Law.not_forbids_of_kind rfl)
  case labeledStmt =>
    exact Meets.of_child.bind fun _ => (statementAt_meets sound 1 rfl id).bind fun _ => .of_pure
      fun known => .kept ((Patched.refl.set 1 known.2).formed known.1.1.formed rfl)
        (Law.not_forbids_of_kind rfl)
  case importCall | returnStmt | throwStmt | yieldExpr | awaitExpr | spread =>
    exact everyChild_meets sound (fun index => by cases index <;> rfl) rfl
  case sequence => exact everyChild_meets sound (fun _ => rfl) rfl
  case withStmt =>
    exact everyChild_meets sound (fun index => by rcases index with _ | _ | _ <;> rfl) rfl

theorem compound_meets (sound : Sound law levels walker) {children : List (Child Node)}
    (isCompound : kind.category? = some .compound) :
    Meets (Below law (levels + 1) (.tree kind flags place children))
      (Fold.compound walker ⟨kind, flags, place, children⟩)
      (Walked law (.tree kind flags place children)) := by
  have is : (∀ index, kind.role index = .any) ∧ kind.isFoldable = false := by
    cases kind <;> first | exact ⟨fun _ => rfl, rfl⟩ | cases isCompound
  refine (anything_meets (fun child => ?_) is.1).bind fun _ => .of_pure fun known =>
    .kept (formed_iff_slotted.mpr known.2) (Law.not_forbids_of_kind is.2)
  split
  case isTrue isAbsent =>
    refine .of_pure fun _ => ?_
    revert isAbsent
    cases child.node <;> first | exact fun _ => .absent | nofun
  case isFalse => exact (anyNode_meets sound child).mono fun _ _ is => is.1

/-! ### All nodes -/

theorem step_meets (sound : Sound law levels walker) {children : List (Child Node)} :
    Meets (Below law (levels + 1) (.tree kind flags place children))
      (Fold.step walker ⟨kind, flags, place, children⟩)
      (Walked law (.tree kind flags place children)) := by
  unfold Fold.step
  split
  case h_1 => exact Meets.of_report.bind fun _ => .of_pure fun known => absurd rfl known.2
  case h_2 isCategory =>
    have inert : (Node.tree kind flags place children).isInert = true := by
      rw [Node.isInert]
      exact beq_iff_eq.mpr isCategory
    exact .of_pure fun below => .same ((below.formed.of_inert inert).good
      (not_isFoldable_of_isInert inert)) rfl
  case h_3 isCategory => exact passthrough_meets sound isCategory
  case h_4 isCategory =>
    cases kind <;> cases isCategory
    case program | block => exact listing_meets sound (fun _ => rfl) rfl (by decide)
    case switchCase => exact case_meets sound
  case h_5 isCategory =>
    cases kind <;> cases isCategory
    exact binary_meets sound
  case h_6 isCategory =>
    cases kind <;> cases isCategory
    exact foldUnary_meets sound
  case h_7 isCategory =>
    cases kind <;> cases isCategory
    exact logical_meets sound
  case h_8 isCategory =>
    cases kind <;> cases isCategory
    case ifStmt => exact ifStatement_meets sound
    case conditional => exact conditional_meets sound
  case h_9 isCategory => exact loop_meets sound isCategory
  case h_10 isCategory =>
    cases kind <;> cases isCategory
    exact switch_meets sound
  case h_11 isCategory =>
    cases kind <;> cases isCategory
    exact name_meets sound
  case h_12 isCategory =>
    cases kind <;> cases isCategory
    case call => exact call_meets sound (.inl rfl)
    case newExpr => exact call_meets sound (.inr rfl)
  case h_13 isCategory =>
    cases kind <;> cases isCategory
    case member => exact member_meets sound (.inl rfl)
    case subscript => exact member_meets sound (.inr rfl)
  case h_14 isCategory =>
    cases kind <;> cases isCategory
    case assign => exact foldAssign_meets sound
    case prefixUpdate => exact foldUpdate_meets sound (.inl rfl)
    case postfixUpdate => exact foldUpdate_meets sound (.inr rfl)
  case h_15 isCategory => exact declaration_meets sound isCategory
  case h_16 isCategory => exact callable_meets sound isCategory
  case h_17 isCategory => exact aggregate_meets sound isCategory
  case h_18 isCategory =>
    exact foldPattern_meets sound (by rw [Kind.isStable, show kind.category? = _ from isCategory])
  case h_19 isCategory => exact compound_meets sound isCategory

def Expands (law : Law) (context : Context) (expand : Fold.Expander) : Prop :=
  ∀ call name, call.kind = .call ∨ call.kind = .newExpr → context.macros.binds name = true →
    Meets (law.premise ∧ Formed .loose call.toNode) (expand context call name)
      (Walked law call.toNode)

private theorem walkAt_meets {context : Context} {expand : Fold.Expander}
    (enforces : Enforces context law) (expands : Expands law context expand) (levels : Nat)
    (node : Node) :
    Meets (Below law levels node) (Fold.walkAt context expand levels node) (Walked law node) := by
  induction levels generalizing node with
  | zero =>
      rw [Fold.walkAt.eq_def]
      refine .of_pure fun below => ?_
      cases node with
      | absent | leaf => exact .same ((formed_of_not_isTree rfl).good rfl) rfl
      | tree kind flags place children =>
          have height := below.height
          rw [Node.height] at height
          omega
  | succ levels induction =>
      cases node with
      | absent | leaf =>
          exact .of_pure fun _ => .same ((formed_of_not_isTree rfl).good rfl) rfl
      | tree kind flags place children =>
          have sound : Sound law levels
              ⟨context, expand context, Fold.walkAt context expand levels⟩ :=
            ⟨enforces, induction, expands⟩
          exact .of_locating (step_meets sound)

theorem walk_meets {context : Context} {expand : Fold.Expander}
    (enforces : Enforces context law) (expands : Expands law context expand) (node : Node) :
    Meets (law.premise ∧ Formed .loose node) (Fold.walk context expand node) (Walked law node) :=
  (walkAt_meets enforces expands node.height node).weaken fun known =>
    ⟨known.1, known.2, Nat.le_refl _⟩

end ScriptFold
