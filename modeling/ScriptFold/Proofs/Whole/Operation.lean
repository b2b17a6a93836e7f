import ScriptFold.Fold.Operation
import ScriptFold.Proofs.Whole.Slot

/-!
# Operators of whole trees

Folding a whole operation looks up its operator and its operands, which are there, and
calculates with known values; what it leaves is whole.
-/

namespace ScriptFold

open Calculation (Slips slips_ok)
open FoldM (Safe)

variable {walker : Walker} {node former : Node} {child : Child Node} {children : List (Child Node)}
variable {flags : Flags} {place : Option Place} {op : Text} {left right : Node}

/-- A node of a kind that is not steady may be replaced. -/
theorem isSteady_of_kind {kind : Kind} (isKind : node.kind? = some kind) :
    node.isSteady = kind.isSteady := by
  rw [Node.isSteady, isKind]
  rfl

namespace Operation

private theorem operatorIn_isSome {index : Nat} (found : children[index]? = some child)
    (isOperator : child.node.isOperator = true) : ∃ op, operatorIn children = some op := by
  induction children generalizing index with
  | nil => cases found
  | cons first rest induction =>
      obtain ⟨seat, node⟩ := first
      cases index with
      | zero =>
          cases found
          cases node with
          | absent | tree => cases isOperator
          | leaf token =>
              have isOp : token.type = .op ∨ token.type = .assignOp := by
                simpa [Node.isOperator] using isOperator
              exact ⟨token.text, by rw [operatorIn, if_pos isOp]⟩
      | succ index =>
          obtain ⟨op, isOp⟩ := induction found
          cases node with
          | absent | tree => exact ⟨op, isOp⟩
          | leaf token =>
              rw [operatorIn]
              split
              · exact ⟨token.text, rfl⟩
              · exact ⟨op, isOp⟩

/-- A node that always has an operator at an index has one. -/
theorem operatorOf_pure {kind : Kind} {flags : Flags} {place : Option Place} (index : Nat)
    (whole : (Node.tree kind flags place children).Whole) (needs : kind.needs index = true)
    (takes : ∀ node, kind.takes index node = node.isOperator) :
    ∃ op, operatorOf kind children = pure op := by
  have found := List.getElem?_eq_getElem (Kind.lt_of_needs needs whole.holds.counts)
  have isOperator := (whole.at_index _ found).2
  rw [takes] at isOperator
  obtain ⟨op, isOp⟩ := operatorIn_isSome found isOperator
  exact ⟨op, by rw [operatorOf, isOp]⟩

/-! ### Known operands -/

theorem replaceBy_safe {result : Folded} {value : Value} (folds : FoldsWhole former result)
    (notSteady : former.isSteady = false) : Safe (replaceBy result value) (FoldsWhole former) := by
  apply (Slot.nodeOf_safe value).bind
  intro literal literalIs
  apply Safe.of_pure
  cases literal with
  | none => exact folds
  | some literal => exact .of_isNew (literalIs literal rfl) notSteady

private theorem foldBinaryValues_safe {result : Folded} {a b : Value} (folds
    : FoldsWhole former result)
    (notSteady : former.isSteady = false) :
    Safe (foldBinaryValues node result op a b) (FoldsWhole former) := by
  unfold foldBinaryValues
  split
  · apply Safe.bind (Safe.of_calculate Property.contains?_slips)
    intro found _
    cases found with
    | none => exact .of_pure folds
    | some found => exact replaceBy_safe folds notSteady
  · split
    · exact .of_pure folds
    · split
      · apply Safe.bind (Safe.of_calculate BinaryOp.apply_slips)
        intro value _
        exact replaceBy_safe folds notSteady
      · apply Safe.of_report.bind
        intro _ _
        exact .of_pure folds

theorem foldBinary_safe (safe : walker.IsSafe)
    (whole : (Node.tree .binary flags place children).Whole) :
    Safe (foldBinary walker ⟨.binary, flags, place, children⟩)
      (FoldsWhole (.tree .binary flags place children)) := by
  obtain ⟨left, op, right, rfl⟩ := List.length_eq_three.mp (beq_iff_eq.mp whole.holds.counts)
  apply (Slot.expression_safe safe whole.head).bind
  intro newLeft leftIs
  apply (Slot.expression_safe safe (whole.all right (by simp))).bind
  intro newRight rightIs
  have kept : (Node.tree .binary flags place [newLeft, op, newRight]).Whole :=
    (whole.set rfl 0 leftIs.whole rfl).set rfl 2 rightIs.whole rfl
  apply (Slot.valueOf_safe leftIs.whole).bind
  intro leftValue _
  apply (Slot.valueOf_safe rightIs.whole).bind
  intro rightValue _
  split
  · exact foldBinaryValues_safe (.keep kept) rfl
  · exact .of_pure (.keep kept)

/-! ### Logical expressions -/

/-- What is left of two whole nodes is whole. -/
def LeavesWhole (result : Option Node) : Prop :=
  ∀ node, result = some node → node.Whole

theorem leavesWhole_none : LeavesWhole none :=
  nofun

theorem leavesWhole_either (leftIs : left.Whole) (rightIs : right.Whole) (condition : Bool) :
    LeavesWhole (some (if condition then left else right)) := by
  intro node is
  cases is
  cases condition
  · exact rightIs
  · exact leftIs

theorem fromLeft_safe (leftIs : left.Whole) (rightIs : right.Whole) :
    Safe (fromLeft op left right) LeavesWhole := by
  unfold fromLeft
  apply (Slot.valueOf_safe leftIs).bind
  intro value _
  split
  · exact .of_pure leavesWhole_none
  · split
    · exact .of_pure (leavesWhole_either rightIs leftIs _)
    · split
      · exact .of_pure (leavesWhole_either leftIs rightIs _)
      · split
        · exact .of_pure (leavesWhole_either rightIs leftIs _)
        · exact .of_pure leavesWhole_none

theorem foldLogical_safe (safe : walker.IsSafe)
    (whole : (Node.tree .logical flags place children).Whole) :
    Safe (foldLogical walker ⟨.logical, flags, place, children⟩)
      (FoldsWhole (.tree .logical flags place children)) := by
  obtain ⟨left, op, right, rfl⟩ := List.length_eq_three.mp (beq_iff_eq.mp whole.holds.counts)
  apply (Slot.expression_safe safe whole.head).bind
  intro newLeft leftIs
  apply (Slot.expression_safe safe (whole.all right (by simp))).bind
  intro newRight rightIs
  have kept : (Node.tree .logical flags place [newLeft, op, newRight]).Whole :=
    (whole.set rfl 0 leftIs.whole rfl).set rfl 2 rightIs.whole rfl
  apply (fromLeft_safe leftIs.whole rightIs.whole).bind
  intro result resultIs
  cases result with
  | none => exact .of_pure (.keep kept)
  | some node => exact .of_pure (.of_isNew (Folded.isNew_ofNode (resultIs node rfl)) rfl)

private theorem isPure_safe (whole : node.Whole) : Safe (isPure node) fun _ => True := by
  induction node using isPure.induct
  case case1 | case2 | case3 => exact .of_pure trivial
  case case4 induction => exact induction whole.head
  case case5 => cases whole.holds.counts
  case case6 flags place op seat operand rest induction =>
    obtain ⟨word, isWord⟩ := operatorOf_pure 0 whole rfl fun _ => rfl
    rw [isPure, isWord, pure_bind]
    split
    · exact induction whole.second
    · exact .of_pure trivial
  case case7 flags place children notTwo =>
    obtain ⟨op, ⟨seat, operand⟩, rfl⟩ :=
      List.length_eq_two.mp (beq_iff_eq.mp whole.holds.counts)
    exact (notTwo op seat operand [] rfl).elim
  case case8 =>
    rw [isPure]
    · exact .of_pure trivial
    all_goals assumption

private theorem fromRight_safe (leftIs : left.Whole) (rightIs : right.Whole) :
    Safe (fromRight op left right) LeavesWhole := by
  unfold fromRight
  apply (Slot.valueOf_safe rightIs).bind
  intro value _
  split
  · exact .of_pure leavesWhole_none
  · split
    · apply Safe.of_pure
      intro node is
      cases is
      exact leftIs
    · apply (isPure_safe leftIs).bind
      intro pure _
      apply Safe.of_pure
      intro node is
      split at is <;> cases is
      exact rightIs

theorem reduceLogical_safe {left op right : Child Node}
    (whole : (Node.tree .logical flags place [left, op, right]).Whole) :
    Safe (reduceLogical ⟨.logical, flags, place, children⟩ left op right)
      fun outcome => outcome.node.Whole := by
  have leftIs : left.node.Whole := whole.head
  have rightIs : right.node.Whole := whole.all right (by simp)
  unfold reduceLogical
  apply (fromLeft_safe leftIs rightIs).bind
  intro result resultIs
  cases result with
  | some node => exact .of_pure (resultIs node rfl)
  | none =>
      apply (fromRight_safe leftIs rightIs).bind
      intro result resultIs
      cases result with
      | some node => exact .of_pure (resultIs node rfl)
      | none => exact .of_pure whole

private theorem negated_safe {result operand : Node} (resultIs : result.Whole) (operandIs
    : operand.Whole) :
    Safe (negated result operand) fun outcome => outcome.node.Whole := by
  unfold negated
  apply (Slot.valueOf_safe operandIs).bind
  intro value _
  cases value with
  | none => exact .of_pure resultIs
  | some value =>
      apply (Slot.nodeOf_safe _).bind
      intro literal literalIs
      apply Safe.of_pure
      cases literal with
      | none => exact resultIs
      | some literal => exact literalIs literal rfl

theorem inSeat_whole {outcome : Outcome} {seat : Option Nat} (whole : outcome.node.Whole) :
    (outcome.inSeat seat).node.Whole := by
  cases outcome <;> exact whole

/-! ### Conditions -/

theorem reduce_safe (whole : node.Whole) :
    Safe (reduce node) fun outcome => outcome.node.Whole := by
  induction node using reduce.induct
  case case1 flags place seat inner rest induction =>
    apply (induction whole.head).bind
    intro outcome outcomeIs
    apply Safe.bind (Safe.of_calculate (Literal.isPrimitive_slips outcome.node))
    intro isPrimitive _
    split
    · exact .of_pure outcomeIs
    · exact .of_pure (whole.set rfl 0 (inSeat_whole outcomeIs) rfl)
  case case2 => cases whole.holds.counts
  case case3 flags place op seat operand rest induction =>
    obtain ⟨word, isWord⟩ := operatorOf_pure 0 whole rfl fun _ => rfl
    rw [reduce, isWord, pure_bind]
    split
    · exact .of_pure whole
    · apply (induction whole.second).bind
      intro outcome outcomeIs
      exact negated_safe (whole.set rfl 1 (inSeat_whole outcomeIs) rfl) outcomeIs
  case case4 flags place children notTwo =>
    obtain ⟨op, ⟨seat, operand⟩, rfl⟩ :=
      List.length_eq_two.mp (beq_iff_eq.mp whole.holds.counts)
    exact (notTwo op seat operand [] rfl).elim
  case case5 flags place leftSeat left op rightSeat right rest leftInduction rightInduction =>
    obtain ⟨word, isWord⟩ := operatorOf_pure 1 whole rfl fun _ => rfl
    obtain rfl : rest = [] := by simpa [Kind.counts] using whole.holds.counts
    rw [reduce, isWord, pure_bind]
    split
    · exact .of_pure whole
    · apply (leftInduction whole.head).bind
      intro newLeft leftIs
      apply (rightInduction (whole.all ⟨rightSeat, right⟩ (by simp))).bind
      intro newRight rightIs
      exact reduceLogical_safe
        ((whole.set rfl 0 (inSeat_whole leftIs) rfl).set rfl 2 (inSeat_whole rightIs) rfl)
  case case6 flags place seat left rest notThree _ =>
    obtain ⟨⟨leftSeat, first⟩, op, ⟨rightSeat, right⟩, isThree⟩ :=
      List.length_eq_three.mp (beq_iff_eq.mp whole.holds.counts)
    cases isThree
    exact (notThree op rightSeat right [] rfl).elim
  case case7 => cases whole.holds.counts
  case case8 =>
    rw [reduce]
    · exact .of_pure whole
    all_goals assumption

/-- A child that is read only for its truth. -/
theorem test_safe (safe : walker.IsSafe) (whole : child.node.Whole) :
    Safe (test walker child) fun result => result.node.Whole := by
  apply (Slot.expression_safe safe whole).bind
  intro folded refolds
  apply (reduce_safe refolds.whole).bind
  intro outcome outcomeIs
  exact .of_pure (inSeat_whole outcomeIs)

/-! ### Unary expressions and parentheses -/

theorem applyUnary_safe {operand : Child Node}
    (whole : (Node.tree .unary flags place children).Whole) (operandIs : operand.node.Whole) :
    Safe (applyUnary ⟨.unary, flags, place, children⟩ op operand)
      (FoldsWhole (.tree .unary flags place children)) := by
  have kept : FoldsWhole (.tree .unary flags place children)
      (Branch.keep ⟨.unary, flags, place, children⟩ (children.set 1 operand)) :=
    .keep (whole.set rfl 1 operandIs rfl)
  unfold applyUnary
  apply (Slot.valueOf_safe operandIs).bind
  intro value _
  split
  case h_1 => exact .of_pure kept
  case h_2 =>
    split
    case isTrue =>
      dsimp only
      split
      · exact .of_pure kept
      · exact .of_pure (.keep (whole.set rfl 1 (Slot.ofWord_whole _ _) rfl))
    case isFalse =>
      split
      · apply Safe.bind (Safe.of_calculate UnaryOp.apply_slips)
        intro value _
        exact replaceBy_safe kept rfl
      · apply Safe.of_report.bind
        intro _ _
        exact .of_pure kept

theorem foldUnary_safe (safe : walker.IsSafe)
    (whole : (Node.tree .unary flags place children).Whole) :
    Safe (foldUnary walker ⟨.unary, flags, place, children⟩ op)
      (FoldsWhole (.tree .unary flags place children)) := by
  obtain ⟨operand, _, isOperand, operandIs, _⟩ :=
    whole.branch (show Kind.unary.needs 1 = true from rfl)
  unfold foldUnary
  rw [isOperand, pure_bind]
  have folds : Safe (if op.isString "!"
      then test walker operand else Slot.expression walker operand)
      fun result => result.node.Whole := by
    split
    · exact test_safe safe operandIs
    · exact (Slot.expression_safe safe operandIs).mono fun _ refolds => refolds.whole
  exact folds.either fun folded foldedIs => applyUnary_safe whole foldedIs

theorem foldParen_safe (safe : walker.IsSafe)
    (whole : (Node.tree .paren flags place children).Whole) :
    Safe (foldParen walker ⟨.paren, flags, place, children⟩)
      (FoldsWhole (.tree .paren flags place children)) := by
  obtain ⟨inner, _, isInner, innerIs, _⟩ :=
    whole.branch (show Kind.paren.needs 0 = true from rfl)
  unfold foldParen
  rw [isInner, pure_bind]
  apply (Slot.expression_safe safe innerIs).bind
  intro folded refolds
  apply Safe.bind (Safe.of_calculate (Literal.isPrimitive_slips folded.node))
  intro isPrimitive _
  split
  · exact .of_pure (.of_isNew refolds.whole rfl)
  · exact .of_pure (.keep (whole.set rfl 0 refolds.whole rfl))

/-! ### Templates -/

theorem foldPieces_safe (safe : walker.IsSafe) (index : Nat) (all : AllWhole children) :
    Safe (foldPieces walker index children) fun result => AllWhole result.1 := by
  induction children generalizing index with
  | nil => exact .of_pure .nil
  | cons child rest induction =>
      rw [foldPieces]
      split
      · apply Safe.bind (Safe.of_calculate StringLiteral.unescape_slips)
        intro piece _
        apply (induction (index + 1) all.tail).bind
        intro others othersAre
        exact .of_pure (.cons all.head othersAre)
      · apply (Slot.expression_safe safe all.head).bind
        intro folded refolds
        apply (Slot.valueOf_safe refolds.whole).bind
        intro value _
        dsimp only
        split
        · apply Safe.bind (Safe.of_calculate (Value.toText_slips _))
          intro piece _
          rw [pure_bind]
          apply (induction (index + 1) all.tail).bind
          intro others othersAre
          exact .of_pure (.cons refolds.whole othersAre)
        · rw [pure_bind]
          apply (induction (index + 1) all.tail).bind
          intro others othersAre
          exact .of_pure (.cons refolds.whole othersAre)

theorem foldTemplate_safe (safe : walker.IsSafe)
    (whole : (Node.tree .template flags place children).Whole) :
    Safe (foldTemplate walker ⟨.template, flags, place, children⟩)
      (FoldsWhole (.tree .template flags place children)) := by
  apply (foldPieces_safe safe 0 whole.all).bind
  rintro ⟨parts, text⟩ partsAre
  have kept : FoldsWhole (.tree .template flags place children)
      (Branch.keep ⟨.template, flags, place, children⟩ parts) :=
    .keep (.tree (.unlisted rfl (fun _ _ _ => rfl) rfl) partsAre)
  dsimp only
  split
  · split
    · exact .of_pure kept
    · exact replaceBy_safe kept rfl
  · exact .of_pure kept

theorem foldTagged_safe (safe : walker.IsSafe)
    (whole : (Node.tree .taggedTemplate flags place children).Whole) :
    Safe (foldTagged walker ⟨.taggedTemplate, flags, place, children⟩)
      (FoldsWhole (.tree .taggedTemplate flags place children)) := by
  obtain ⟨tag, _, isTag, tagIs, _⟩ :=
    whole.branch (show Kind.taggedTemplate.needs 0 = true from rfl)
  obtain ⟨⟨seat, quasi⟩, _, isQuasi, quasiIs, isTemplate⟩ :=
    whole.branch (show Kind.taggedTemplate.needs 1 = true from rfl)
  unfold foldTagged
  rw [isTag, pure_bind]
  apply (Slot.expression_safe safe tagIs).bind
  intro tag refolds
  rw [isQuasi, pure_bind]
  have isKind : quasi.kind? = some .template := beq_iff_eq.mp isTemplate
  cases quasi with
  | absent | leaf => cases isKind
  | tree inner innerFlags innerPlace parts =>
      cases isKind
      refine Safe.bind (Safe.mapM_whole fun item there => ?_) ?_
      · obtain ⟨part, index⟩ := item
        have partIs := quasiIs.all part (List.fst_mem_of_mem_zipIdx there)
        dsimp only
        split
        · exact (Slot.expression_safe safe partIs).mono fun _ refolds => refolds.whole
        · exact .of_pure partIs
      rintro folded ⟨-, partsAre⟩
      have newQuasi : (Node.tree .template innerFlags innerPlace folded).Whole :=
        .tree (.unlisted rfl (fun _ _ _ => rfl) rfl) partsAre
      apply Safe.of_pure (FoldsWhole.keep _)
      exact (whole.set rfl 0 refolds.whole rfl).set rfl 1 newQuasi rfl

end Operation

end ScriptFold
