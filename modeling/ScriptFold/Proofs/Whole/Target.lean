import ScriptFold.Fold.Callable
import ScriptFold.Proofs.Whole.Operation

/-!
# Targets and aggregates of whole trees

The targets of assignments and updates fold safely in whole trees, and so do the members of
arrays and objects.
-/

namespace ScriptFold

open Calculation (Slips slips_ok)
open FoldM (Safe)

variable {walker : Walker} {node former : Node} {child : Child Node} {children : List (Child Node)}
variable {kind : Kind} {flags : Flags} {place : Option Place} {others : List (Child Node)}
variable {op : Text} {cause : FoldError}

/-! ### Targets -/

/-- What folding makes of a target: a whole node. -/
def Outcome.IsWhole (outcome : Outcome) : Prop :=
  outcome.node.Whole

theorem kind?_of_isOneOf {kinds : List Kind} (isOneOf : node.isOneOf kinds = true) :
    ∃ kind, kind ∈ kinds ∧ node.kind? = some kind := by
  obtain ⟨kind, there, isKind⟩ := List.any_eq_true.mp isOneOf
  exact ⟨kind, there, beq_iff_eq.mp isKind⟩

namespace Target

theorem binding?_safe (safe : walker.IsSafe) (whole : node.Whole) :
    Safe (binding? walker node) fun result =>
      ∀ outcome, result = some outcome → outcome.IsWhole := by
  unfold binding?
  apply Name.value?_safe.bind
  intro value _
  split
  · exact .of_pure nofun
  · apply (safe.walk node whole).bind
    intro folded folds
    have foldedIs := folds.whole
    cases folded with
    | removed | statements => exact .of_pure nofun
    | same resolved | «instead» resolved =>
        apply Safe.of_pure
        intro outcome is
        split at is <;> cases is
        exact foldedIs

theorem member_safe (safe : walker.IsSafe)
    (whole : (Node.tree kind flags place children).Whole)
    (isLink : kind = .member ∨ kind = .subscript) :
    Safe (member walker cause ⟨kind, flags, place, children⟩) Node.Whole := by
  have shape : kind.counts children.length = true ∧ kind.needs 0 = true ∧ kind.needs 1 = true ∧
      Printer.listHead? kind = none ∧ ∀ index node, kind.takes index node = true := by
    obtain rfl | rfl := isLink <;> exact ⟨whole.holds.counts, rfl, rfl, rfl, fun _ _ => rfl⟩
  obtain ⟨_, needsObject, needsKey, noList, free⟩ := shape
  obtain ⟨object, _, isObject, objectIs, _⟩ := whole.branch needsObject
  obtain ⟨key, _, isKey, keyIs, _⟩ := whole.branch needsKey
  unfold member
  rw [isObject, pure_bind]
  apply Name.value?_safe.bind
  intro value _
  apply Safe.refusing
  apply (Slot.expression_safe safe objectIs).bind
  intro newObject refolds
  apply (Safe.of_calculate (Literal.isConstant_slips refolds.whole)).bind
  intro isConstant _
  apply Safe.refusing
  have withObject := whole.set noList 0 refolds.whole (free 0 _)
  dsimp only
  split
  · rw [isKey, pure_bind]
    apply (Slot.expression_safe safe keyIs).bind
    intro newKey refolds
    exact .of_pure (withObject.set noList 1 refolds.whole (free 1 _))
  · exact .of_pure withObject

theorem paren_whole {first : Child Node} {rest : List (Child Node)}
    (whole : (Node.tree .paren flags place (first :: rest)).Whole) (childIs : child.node.Whole) :
    (Node.tree .paren flags place (child :: rest)).Whole :=
  whole.set rfl 0 childIs rfl

theorem update_safe (safe : walker.IsSafe) (whole : node.Whole) :
    Safe (update walker op node) Outcome.IsWhole := by
  induction node using update.induct with
  | case1 flags place children =>
      apply (binding?_safe safe whole).bind
      intro result resultIs
      cases result with
      | none => exact .of_fail
      | some outcome => exact .of_pure (resultIs outcome rfl)
  | case2 flags place children =>
      exact (member_safe safe whole (.inl rfl)).bind fun _ is => .of_pure is
  | case3 flags place children =>
      exact (member_safe safe whole (.inr rfl)).bind fun _ is => .of_pure is
  | case4 flags place seat inner rest induction =>
      apply (induction whole.head).bind
      intro outcome outcomeIs
      exact .of_pure (paren_whole whole (Operation.inSeat_whole outcomeIs))
  | case5 => cases whole.holds.counts
  | case6 =>
      rw [update]
      · exact .of_fail
      all_goals assumption

theorem delete_safe (safe : walker.IsSafe) (whole : node.Whole) :
    Safe (delete walker node) Node.Whole := by
  induction node using delete.induct with
  | case1 flags place children =>
      apply (binding?_safe safe whole).bind
      intro result _
      cases result with
      | none => exact .of_fail
      | some outcome => exact .of_pure whole
  | case2 flags place children => exact member_safe safe whole (.inl rfl)
  | case3 flags place children => exact member_safe safe whole (.inr rfl)
  | case4 flags place seat inner rest induction =>
      apply (induction whole.head).bind
      intro target targetIs
      exact .of_pure (paren_whole whole targetIs)
  | case5 => cases whole.holds.counts
  | case6 =>
      rw [delete]
      · exact .of_fail
      all_goals assumption

/-- A part of a pattern that is looked at has what it is looked at for. -/
theorem refuseKnown_safe {context : Context} (whole : node.Whole) :
    Safe (refuseKnown context node) fun _ => True := by
  revert whole
  refine refuseKnown.induct context
    (fun node => node.Whole → Safe (refuseKnown context node) fun _ => True)
    (fun children => AllWhole children → Safe (refuseAll context children) fun _ => True)
    ?known ?unknown ?unnamed ?array ?object ?property ?rest ?default ?malformed ?other ?none ?cons
    node
  case known | unknown =>
    intro flags place children node name isName isKnown _
    simp only [refuseKnown, show Name.of? (.tree .binding flags place children) = _ from isName,
      isKnown]
    first | exact .of_fail | exact .of_pure trivial
  case unnamed =>
    intro flags place children node isNone _
    simp only [refuseKnown, show Name.of? (.tree .binding flags place children) = _ from isNone]
    exact .of_pure trivial
  case array | object =>
    intro flags place children induction whole
    exact induction whole.all
  case property =>
    intro flags place first seat target rest induction whole
    exact induction whole.second
  case rest | default =>
    intro flags place seat target rest induction whole
    exact induction whole.head
  case malformed =>
    intro node _ _ _ notProperty notRest notDefault isOne whole
    obtain ⟨kind, there, isKind⟩ := kind?_of_isOneOf isOne
    cases node with
    | absent | leaf => cases isKind
    | tree inner flags place children =>
        cases isKind
        have counts := whole.holds.counts
        rcases children with _ | ⟨first, _ | ⟨second, others⟩⟩
        · exfalso
          simp only [List.mem_cons, List.not_mem_nil, or_false] at there
          obtain rfl | rfl | rfl := there <;> cases counts
        · exfalso
          simp only [List.mem_cons, List.not_mem_nil, or_false] at there
          obtain rfl | rfl | rfl := there
          · cases counts
          · exact notRest _ _ _ _ _ rfl
          · exact notDefault _ _ _ _ _ rfl
        · exfalso
          simp only [List.mem_cons, List.not_mem_nil, or_false] at there
          obtain rfl | rfl | rfl := there
          · exact notProperty _ _ _ _ _ _ rfl
          · exact notRest _ _ _ _ _ rfl
          · exact notDefault _ _ _ _ _ rfl
  case other =>
    intro node notBinding notArray notObject notProperty notRest notDefault notOne _
    rw [refuseKnown.eq_7 context node notBinding notArray notObject notProperty notRest notDefault,
      if_neg notOne]
    exact .of_pure trivial
  case none =>
    intro _
    exact .of_pure trivial
  case cons =>
    intro seat node rest nodeIs restAre all
    exact (nodeIs all.head).bind fun _ _ => restAre all.tail

theorem pattern_safe (safe : walker.IsSafe) (whole : node.Whole)
    (isPattern : node.isOneOf [.objectPattern, .arrayPattern, .assignPattern, .rest, .binding] =
      true) : Safe (pattern walker node) Outcome.IsWhole := by
  obtain ⟨kind, there, isKind⟩ := kind?_of_isOneOf isPattern
  have steady : node.isSteady = true := by
    have all : ∀ kind, kind ∈ [Kind.objectPattern, .arrayPattern, .assignPattern, .rest, .binding] →
        kind.isSteady = true := by decide
    rw [isSteady_of_kind isKind]
    exact all kind there
  apply (refuseKnown_safe whole).bind
  intro _ _
  apply (safe.walk node whole).bind
  intro folded folds
  obtain ⟨same, rfl⟩ := folds.stays steady
  exact .of_pure folds.whole

theorem assign_safe (safe : walker.IsSafe) (whole : node.Whole) :
    Safe (assign walker node) Outcome.IsWhole := by
  induction node using assign.induct with
  | case1 flags place children =>
      apply (binding?_safe safe whole).bind
      intro result resultIs
      cases result with
      | none => exact .of_fail
      | some outcome => exact .of_pure (resultIs outcome rfl)
  | case2 flags place children =>
      exact (member_safe safe whole (.inl rfl)).bind fun _ is => .of_pure is
  | case3 flags place children =>
      exact (member_safe safe whole (.inr rfl)).bind fun _ is => .of_pure is
  | case4 flags place seat inner rest induction =>
      apply (induction whole.head).bind
      intro outcome outcomeIs
      exact .of_pure (paren_whole whole (Operation.inSeat_whole outcomeIs))
  | case5 => cases whole.holds.counts
  | case6 node notIdent notMember notSubscript notParen notEmpty isPattern =>
      rw [assign, if_pos isPattern]
      · exact pattern_safe safe whole isPattern
      all_goals assumption
  | case7 node notIdent notMember notSubscript notParen notEmpty notPattern =>
      rw [assign, if_neg notPattern]
      · exact .of_fail
      all_goals assumption

theorem foldAssign_safe (safe : walker.IsSafe)
    (whole : (Node.tree .assign flags place children).Whole) :
    Safe (foldAssign walker ⟨.assign, flags, place, children⟩)
      (FoldsWhole (.tree .assign flags place children)) := by
  obtain ⟨target, op, value, rfl⟩ := List.length_eq_three.mp (beq_iff_eq.mp whole.holds.counts)
  apply (assign_safe safe whole.head).bind
  intro outcome outcomeIs
  apply (Slot.expression_safe safe (whole.all value (by simp))).bind
  intro newValue refolds
  apply Safe.of_pure (FoldsWhole.keep _)
  exact (whole.set rfl 0 (Operation.inSeat_whole outcomeIs) rfl).set rfl 2 refolds.whole rfl

theorem foldUpdate_safe (safe : walker.IsSafe)
    (whole : (Node.tree kind flags place children).Whole)
    (isUpdate : kind = .prefixUpdate ∨ kind = .postfixUpdate) :
    Safe (foldUpdate walker ⟨kind, flags, place, children⟩)
      (FoldsWhole (.tree kind flags place children)) := by
  unfold foldUpdate
  obtain rfl | rfl := isUpdate
  · obtain ⟨target, _, isTarget, targetIs, _⟩ :=
      whole.branch (show Kind.prefixUpdate.needs 1 = true from rfl)
    obtain ⟨op, isOp⟩ := Operation.operatorOf_pure 0 whole rfl fun _ => rfl
    simp only [reduceIte]
    rw [isTarget, pure_bind, isOp, pure_bind]
    apply (update_safe safe targetIs).bind
    intro outcome outcomeIs
    exact .of_pure (.keep (whole.set rfl 1 (Operation.inSeat_whole outcomeIs) rfl))
  · obtain ⟨target, _, isTarget, targetIs, _⟩ :=
      whole.branch (show Kind.postfixUpdate.needs 0 = true from rfl)
    obtain ⟨op, isOp⟩ := Operation.operatorOf_pure 1 whole rfl fun _ => rfl
    simp only [reduceCtorEq, reduceIte]
    rw [isTarget, pure_bind, isOp, pure_bind]
    apply (update_safe safe targetIs).bind
    intro outcome outcomeIs
    exact .of_pure (.keep (whole.set rfl 0 (Operation.inSeat_whole outcomeIs) rfl))

theorem foldUnary_safe (safe : walker.IsSafe)
    (whole : (Node.tree .unary flags place children).Whole) :
    Safe (foldUnary walker ⟨.unary, flags, place, children⟩)
      (FoldsWhole (.tree .unary flags place children)) := by
  obtain ⟨op, isOp⟩ := Operation.operatorOf_pure 0 whole rfl fun _ => rfl
  obtain ⟨target, _, isTarget, targetIs, _⟩ :=
    whole.branch (show Kind.unary.needs 1 = true from rfl)
  unfold foldUnary
  rw [isOp, pure_bind]
  split
  · rw [isTarget, pure_bind]
    apply (delete_safe safe targetIs).bind
    intro newTarget newTargetIs
    exact .of_pure (.keep (whole.set rfl 1 newTargetIs rfl))
  · exact Operation.foldUnary_safe safe whole

end Target

/-! ### Aggregates -/

namespace Aggregate

/-- A key keeps its seat and its kind. -/
theorem key_safe (safe : walker.IsSafe) (whole : child.node.Whole) :
    Safe (key walker child) fun result => result.node.Whole := by
  obtain ⟨seat, node⟩ := child
  unfold key
  split
  case h_1 flags place inner rest isNode =>
    cases isNode
    apply (Slot.expression_safe safe whole.head).bind
    intro newInner refolds
    exact .of_pure (whole.set rfl 0 refolds.whole rfl)
  case h_2 flags place isNode =>
    cases isNode
    cases whole.holds.counts
  case h_3 => exact .of_pure whole

theorem withKey_safe (safe : walker.IsSafe)
    (whole : (Node.tree .property flags place children).Whole) :
    Safe (withKey walker ⟨.property, flags, place, children⟩) fun results =>
      (Node.tree .property flags place results).Whole := by
  obtain ⟨first, _, isFirst, firstIs, _⟩ :=
    whole.branch (show Kind.property.needs 0 = true from rfl)
  unfold withKey
  rw [isFirst, pure_bind]
  apply (key_safe safe firstIs).bind
  intro newFirst newFirstIs
  exact .of_pure (whole.set rfl 0 newFirstIs rfl)

/-- The nodes that an object lists. -/
def entryKinds : List Kind :=
  [.property, .shorthandProperty, .method, .spread]

/-- What folding makes of a member of an object: one node, which is a member again. -/
structure Enters (former : Node) (folded : Folded) : Prop where
  folds : FoldsWhole former folded
  stands : ∃ node, (folded = .same node ∨ folded = .instead node) ∧ node.isOneOf entryKinds = true

theorem Enters.keep (whole : (Node.tree kind flags place others).Whole)
    (isEntry : kind ∈ entryKinds) :
    Enters (.tree kind flags place children)
      (Branch.keep ⟨kind, flags, place, children⟩ others) :=
  ⟨.keep whole, _, .inl rfl, List.any_eq_true.mpr ⟨_, isEntry, beq_self_eq_true _⟩⟩

private theorem shorthand_safe (safe : walker.IsSafe)
    (whole : (Node.tree .shorthandProperty flags place children).Whole) :
    Safe (shorthand walker ⟨.shorthandProperty, flags, place, children⟩)
      (Enters (.tree .shorthandProperty flags place children)) := by
  obtain ⟨ident, _, isChild, identIs, isIdent⟩ :=
    whole.branch (show Kind.shorthandProperty.needs 0 = true from rfl)
  have identKind : ident.node.kind? = some .ident := beq_iff_eq.mp isIdent
  unfold shorthand
  rw [isChild, pure_bind]
  have folds : Safe (Slot.expression walker ⟨some 0, ident.node⟩)
      (Child.Refolds ⟨some 0, ident.node⟩) := Slot.expression_safe safe identIs
  apply folds.bind
  intro value refolds
  split
  case isTrue seated =>
    have sameKind : value.node.isKind .ident = true :=
      beq_iff_eq.mpr ((refolds.sameKind seated).trans identKind)
    exact .of_pure (.keep (whole.set rfl 0 refolds.whole sameKind) (by decide))
  case isFalse =>
    apply (Safe.of_childAt identIs identKind rfl).bind
    intro word wordIs
    have property : (Node.made .property [word, value.node]).Whole :=
      Slot.made_whole rfl (fun _ _ => rfl) (by simp [wordIs, refolds.whole])
    exact .of_pure ⟨.of_isNew property rfl, _, .inr rfl, rfl⟩

theorem objectMember_safe (safe : walker.IsSafe)
    (whole : (Node.tree kind flags place children).Whole) (isEntry : kind ∈ entryKinds) :
    Safe (objectMember walker ⟨kind, flags, place, children⟩)
      (Enters (.tree kind flags place children)) := by
  simp only [entryKinds, List.mem_cons, List.not_mem_nil, or_false] at isEntry
  obtain rfl | rfl | rfl | rfl := isEntry
  · obtain ⟨value, _, isValue, valueIs, _⟩ :=
      whole.branch (show Kind.property.needs 1 = true from rfl)
    apply (withKey_safe safe whole).bind
    intro withKey withKeyIs
    rw [isValue, pure_bind]
    apply (Slot.expression_safe safe valueIs).bind
    intro newValue refolds
    exact .of_pure (.keep (withKeyIs.set rfl 1 refolds.whole rfl) (by decide))
  · exact shorthand_safe safe whole
  · apply (safe.walk _ whole).mono
    intro folded folds
    obtain ⟨node, rfl⟩ := folds.stays rfl
    refine ⟨folds, node, .inl rfl, List.any_eq_true.mpr ⟨.method, by decide, ?_⟩⟩
    exact beq_iff_eq.mpr (folds.sameKind node rfl)
  · obtain ⟨value, _, isValue, valueIs, _⟩ :=
      whole.branch (show Kind.spread.needs 0 = true from rfl)
    unfold objectMember
    dsimp only
    rw [isValue, pure_bind]
    apply (Slot.expression_safe safe valueIs).bind
    intro newValue refolds
    exact .of_pure (.keep (whole.set rfl 0 refolds.whole rfl) (by decide))

theorem memberChild_safe (safe : walker.IsSafe) (whole : child.node.Whole)
    (isEntry : child.node.isOneOf entryKinds = true) :
    Safe (memberChild walker child) fun result =>
      result.node.Whole ∧ result.node.isOneOf entryKinds = true := by
  obtain ⟨kind, there, isKind⟩ := kind?_of_isOneOf isEntry
  obtain ⟨seat, node⟩ := child
  cases node with
  | absent | leaf => cases isKind
  | tree inner flags place children =>
      cases isKind
      apply (objectMember_safe safe whole there).bind
      intro folded enters
      have foldedIs := enters.folds.whole
      obtain ⟨node, rfl | rfl, nodeIs⟩ := enters.stands
      · exact .of_pure ⟨foldedIs, nodeIs⟩
      · exact .of_pure ⟨foldedIs, nodeIs⟩

/-- The children of an array or of a list of arguments. -/
theorem elements_safe (safe : walker.IsSafe)
    (whole : (Node.tree kind flags place children).Whole) (noList : Printer.listHead? kind = none)
    (free : ∀ index node, kind.takes index node = true) :
    Safe (children.mapM (Slot.expression walker)) fun results =>
      (Node.tree kind flags place results).Whole := by
  have acts : ∀ child, child ∈ children →
      Safe (Slot.expression walker child) fun result => result.node.Whole :=
    fun child there => (Slot.expression_safe safe (whole.all child there)).mono
      fun _ refolds => refolds.whole
  apply (Safe.mapM_whole acts).mono
  rintro results ⟨sameLength, resultsAre⟩
  exact whole.replace noList sameLength (fun index child _ => free index child.node) resultsAre

theorem fold_safe (safe : walker.IsSafe) (whole : (Node.tree kind flags place children).Whole)
    (isAggregate : kind.category? = some .aggregate) :
    Safe (fold walker ⟨kind, flags, place, children⟩)
      (FoldsWhole (.tree kind flags place children)) := by
  cases kind <;> cases isAggregate
  case array =>
    exact (elements_safe safe whole rfl fun _ _ => rfl).bind fun _ is => .of_pure (.keep is)
  case args =>
    exact (elements_safe safe whole rfl fun _ _ => rfl).bind fun _ is => .of_pure (.keep is)
  case object =>
    have acts : Safe (children.mapM (memberChild walker))
        (List.Forall₂ (fun _ (result : Child Node) =>
          result.node.Whole ∧ result.node.isOneOf entryKinds = true) children) := by
      apply Safe.mapM
      intro child there
      obtain ⟨index, found⟩ := List.getElem?_of_mem there
      obtain ⟨childIs, isEntry⟩ := whole.at_index _ found
      exact memberChild_safe safe childIs isEntry
    apply acts.bind
    intro results related
    apply Safe.of_pure (FoldsWhole.keep _)
    apply Node.Whole.replace whole rfl related.length_eq.symm
    · intro index child found
      obtain ⟨_, _, _, isEntry⟩ := at_of_forall₂ related found
      exact isEntry
    · exact all_of_forall₂ related fun _ _ is => is.1
  case property =>
    exact (objectMember_safe safe whole (by decide)).mono fun _ enters => enters.folds
  case shorthandProperty =>
    exact (objectMember_safe safe whole (by decide)).mono fun _ enters => enters.folds
  case computedKey =>
    obtain ⟨inner, _, isInner, innerIs, _⟩ :=
      whole.branch (show Kind.computedKey.needs 0 = true from rfl)
    unfold fold
    dsimp only
    rw [isInner, pure_bind]
    apply (Slot.expression_safe safe innerIs).bind
    intro newInner refolds
    exact .of_pure (.keep (whole.set rfl 0 refolds.whole rfl))

end Aggregate

end ScriptFold
