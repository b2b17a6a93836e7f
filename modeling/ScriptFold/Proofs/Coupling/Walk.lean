import ScriptFold.Fold.Walk
import ScriptFold.Proofs.Coupling.Chain
import ScriptFold.Proofs.Coupling.Control
import ScriptFold.Proofs.Coupling.Target

/-!
# Whole folds under coupled walkers

Steps of coupled walkers are alike, so folds whose expansions are alike are alike on whole
trees, and expansions are alike whose folds are.
-/

namespace ScriptFold

variable {likeness : Likeness} {fits : Place → Prop} {levels : Nat} {first second : Walker}
variable {branch : Branch}

namespace Fold

/-! ### Steps -/

/-- What an expression statement becomes with an outcome in place of its expression. -/
theorem statementOf_alike (outcome : Outcome) {seat : Option Nat}
    (near : Near fits (levels + 1) branch.toNode) (placed : outcome.node.Placed fits) :
    likeness.alike
      (do
        match outcome.node.kind? with
        | some .exprStmt =>
            return branch.keep (branch.children.set 0
              ⟨none, ← FoldM.calculate (outcome.node.childAt 0)⟩)
        | some kind =>
            if kind.isStatement then return .instead outcome.node
            return branch.keep (branch.children.set 0 (outcome.inSeat seat))
        | none => return branch.keep (branch.children.set 0 (outcome.inSeat seat)))
      (do
        match outcome.node.kind? with
        | some .exprStmt =>
            return branch.keep (branch.children.set 0
              ⟨none, ← FoldM.calculate (outcome.node.childAt 0)⟩)
        | some kind =>
            if kind.isStatement then return .instead outcome.node
            return branch.keep (branch.children.set 0 (outcome.inSeat seat))
        | none => return branch.keep (branch.children.set 0 (outcome.inSeat seat)))
      (Folded.Placed fits) := by
  have put : (branch.keep (branch.children.set 0 (outcome.inSeat seat))).Placed fits :=
    near.keep (near.parts.set (Outcome.placed_inSeat placed _))
  split
  · apply likeness.bind likeness.of_calculate
    intro inner found
    exact likeness.of_pure (near.keep (near.parts.set (placed.childAt found)))
  · split
    · exact likeness.of_pure placed
    · exact likeness.of_pure put
  · exact likeness.of_pure put

theorem expressionStatement_alike (coupled : Coupled likeness fits levels first second)
    (near : Near fits (levels + 1) branch.toNode) :
    likeness.alike (expressionStatement first branch) (expressionStatement second branch)
      (Folded.Placed fits) := by
  apply likeness.bind likeness.of_child
  intro child there
  apply likeness.bind (coupled.walk child.node (near.part there))
  intro folded placed
  split
  · exact likeness.of_pure trivial
  · exact likeness.of_pure placed
  · split
    · exact likeness.of_pure trivial
    · exact statementOf_alike (.same _) near placed
  · exact statementOf_alike (.instead _) near placed

private theorem exportDefault_alike (coupled : Coupled likeness fits levels first second)
    (near : Near fits (levels + 1) branch.toNode) :
    likeness.alike (exportDefault first branch) (exportDefault second branch)
      (Folded.Placed fits) := by
  apply likeness.bind likeness.of_child
  intro exported there
  have exportedIs := near.part there
  have exportedOf : likeness.alike
      (if exported.node.isOneOf [.functionDecl, .classDecl] then Slot.anyNode first exported
        else Slot.expression first exported)
      (if exported.node.isOneOf [.functionDecl, .classDecl] then Slot.anyNode second exported
        else Slot.expression second exported)
      fun child => child.node.Placed fits := by
    split
    · exact Slot.anyNode_alike coupled exportedIs
    · exact Slot.expression_alike coupled exportedIs
  apply likeness.either exportedOf
  intro exported placed
  exact likeness.of_pure (near.keep (near.parts.set placed))

theorem passthrough_alike (coupled : Coupled likeness fits levels first second)
    (near : Near fits (levels + 1) branch.toNode) :
    likeness.alike (passthrough first branch) (passthrough second branch)
      (Folded.Placed fits) := by
  unfold passthrough
  split
  · exact expressionStatement_alike coupled near
  · exact Operation.foldParen_alike coupled near
  · exact Operation.foldTemplate_alike coupled near
  · exact Operation.foldTagged_alike coupled near
  · exact exportDefault_alike coupled near
  · apply likeness.bind likeness.of_child
    intro exported there
    apply likeness.bind (Slot.anyNode_alike coupled (near.part there))
    intro exported placed
    exact likeness.of_pure (near.keep (near.parts.set placed))
  · apply likeness.bind likeness.of_child
    intro body there
    apply likeness.bind (Slot.statement_alike coupled (near.part there))
    intro body placed
    exact likeness.of_pure (near.keep (near.parts.set placed))
  · exact Slot.everyChild_alike coupled near

theorem compound_alike (coupled : Coupled likeness fits levels first second)
    (near : Near fits (levels + 1) branch.toNode) :
    likeness.alike (compound first branch) (compound second branch) (Folded.Placed fits) := by
  have each : ∀ child, child ∈ branch.children → likeness.alike
      (if child.node.isAbsent then pure child else Slot.anyNode first child)
      (if child.node.isAbsent then pure child else Slot.anyNode second child)
      fun child => child.node.Placed fits := by
    intro child there
    split
    · exact likeness.of_pure (near.part there).placed
    · exact Slot.anyNode_alike coupled (near.part there)
  apply likeness.bind (likeness.mapM each)
  intro children all
  exact likeness.of_pure (near.keep all)

/-- Coupled walkers take alike steps. -/
theorem step_alike (coupled : Coupled likeness fits levels first second) (branch : Branch)
    (near : Near fits (levels + 1) branch.toNode) :
    likeness.alike (step first branch) (step second branch) (Folded.Placed fits) := by
  unfold step
  split
  · apply likeness.after
    intro _
    exact likeness.of_pure near.placed
  · exact likeness.of_pure near.placed
  · exact passthrough_alike coupled near
  · exact Slot.statementList_alike coupled near
  · exact Operation.foldBinary_alike coupled near
  · exact Target.foldUnary_alike coupled near
  · exact Operation.foldLogical_alike coupled near
  · split
    · exact Control.ifStatement_alike coupled near
    · exact Control.conditional_alike coupled near
  · exact Control.loop_alike coupled near
  · exact Switch.fold_alike coupled near
  · exact Name.fold_alike coupled near
  · exact Chain.call_alike coupled near
  · exact Chain.member_alike coupled near
  · split
    · exact Target.foldAssign_alike coupled near
    · exact Target.foldUpdate_alike coupled near
  · exact Callable.declaration_alike coupled near
  · exact Callable.fold_alike coupled near
  · exact Aggregate.fold_alike coupled near
  case h_18 isPattern =>
    have notTarget : branch.toNode.isOneOf [.ident, .member, .subscript, .paren] →
        Near fits levels branch.toNode := by
      intro isTarget
      have among : branch.kind = .ident ∨ branch.kind = .member ∨ branch.kind = .subscript ∨
          branch.kind = .paren := by
        simpa [Node.isOneOf, Node.isKind, Branch.toNode, Node.kind?] using isTarget
      rcases among with is | is | is | is <;> rw [is] at isPattern <;> cases isPattern
    apply likeness.bind (Aggregate.pattern_alike coupled near notTarget)
    intro outcome placed
    apply likeness.of_pure
    cases outcome <;> exact placed
  · exact compound_alike coupled near

/-! ### Trees -/

theorem walkAt_absent (context : Context) (expand : Expander) (levels : Nat) :
    walkAt context expand levels .absent = pure (.same .absent) := by
  cases levels <;> rfl

theorem walkAt_leaf (context : Context) (expand : Expander) (levels : Nat) (token : Leaf) :
    walkAt context expand levels (.leaf token) = pure (.same (.leaf token)) := by
  cases levels <;> rfl

/-- Folds with alike expansions are alike.  Levels above the height of a tree play no part. -/
theorem walkAt_alike {context : Context} {expand other : Expander}
    (fragments : ∀ entry, entry ∈ context.fragments → entry.2.Placed fits)
    (expands : ∀ call name, call.toNode.Placed fits →
      likeness.alike (expand context call name) (other context call name) (Folded.Placed fits))
    {levels more : Nat} (least : levels ≤ more) {node : Node} (near : Near fits levels node) :
    likeness.alike (walkAt context expand levels node) (walkAt context other more node)
      (Folded.Placed fits) := by
  induction levels generalizing more node with
  | zero =>
      cases node with
      | absent =>
          rw [walkAt_absent, walkAt_absent]
          exact likeness.of_pure near.placed
      | leaf =>
          rw [walkAt_leaf, walkAt_leaf]
          exact likeness.of_pure near.placed
      | tree => cases near.height
  | succ levels induction =>
      cases node with
      | absent =>
          rw [walkAt_absent, walkAt_absent]
          exact likeness.of_pure near.placed
      | leaf =>
          rw [walkAt_leaf, walkAt_leaf]
          exact likeness.of_pure near.placed
      | tree kind flags place children =>
          obtain ⟨fewer, rfl⟩ := Nat.exists_eq_add_of_le' (Nat.le_trans (Nat.le_add_left 1 _) least)
          have coupled : Coupled likeness fits levels
              ⟨context, expand context, walkAt context expand levels⟩
              ⟨context, other context, walkAt context other fewer⟩ :=
            ⟨rfl, fragments, fun node near => induction (by omega) near, expands⟩
          rw [walkAt, walkAt]
          apply likeness.locating
          exact step_alike coupled ⟨kind, flags, place, children⟩ near

/-- Folding a tree takes the step of its kind, with a walker that folds the nodes below. -/
theorem walk_tree (context : Context) (expand : Expander) (kind : Kind) (flags : Flags)
    (place : Option Place) (children : List (Child Node)) :
    walk context expand (.tree kind flags place children) =
      FoldM.locating (.tree kind flags place children)
        (step ⟨context, expand context, walk context expand⟩ ⟨kind, flags, place, children⟩) := by
  have anywhere : ∀ entry, entry ∈ context.fragments → entry.2.Placed fun _ => True :=
    fun entry _ => entry.2.placed_anywhere
  have coupled : Coupled .equality (fun _ => True) (Node.heightAll children)
      ⟨context, expand context, walkAt context expand (Node.heightAll children)⟩
      ⟨context, expand context, walk context expand⟩ := by
    refine ⟨rfl, anywhere, fun node near => ?_, fun call name _ => Likeness.of_eq rfl⟩
    have expands : ∀ call name, call.toNode.Placed (fun _ => True) → Likeness.equality.alike
        (expand context call name) (expand context call name) (Folded.Placed fun _ => True) :=
      fun call name _ => Likeness.of_eq rfl
    have same := walkAt_alike anywhere expands near.height
      ⟨node.placed_anywhere, Nat.le_refl _⟩
    exact Likeness.of_eq same.1.symm
  rw [walk, Node.height, walkAt]
  congr 1
  exact (step_alike coupled _ ⟨Node.placed_anywhere _, Nat.le_refl _⟩).1

/-! ### Expansions -/

/-- Folds are alike under bindings that differ only in their fragments. -/
def FoldsAlike (likeness : Likeness) (fits : Place → Prop) (context : Context)
    (fold other : Context → Node → FoldM Folded) : Prop :=
  ∀ fragments, (∀ entry, entry ∈ fragments → entry.2.Placed fits) → ∀ node : Node,
    node.Placed fits → likeness.alike (fold { context with fragments } node)
      (other { context with fragments } node) (Folded.Placed fits)

theorem argumentsOf_alike {call : Branch} (placed : call.toNode.Placed fits) :
    likeness.alike (argumentsOf call) (argumentsOf call) (ArePlaced fits) := by
  apply likeness.bind likeness.of_child
  intro args there
  have argsAre := placed.all args there
  split
  case h_1 kind flags place children isTree =>
    rw [isTree] at argsAre
    apply likeness.of_pure
    intro node there
    obtain ⟨child, isChild, rfl⟩ := List.mem_map.mp there
    exact (argsAre.all child isChild).copy
  case h_2 => exact likeness.of_pure .nil
  case h_3 => exact likeness.of_throw

theorem asStatements_placed {program : Node} (placed : program.Placed fits) :
    (asStatements program).Placed fits := by
  have all := placed.children
  unfold asStatements
  split
  case h_1 => exact trivial
  case h_2 single isSingle =>
    rw [isSingle] at all
    have singleIs := all single List.mem_cons_self
    split
    · split
      · exact singleIs
      · exact all
    · exact all
  case h_3 => exact all

theorem rootOf_placed {root : Node} {folded : Folded} (placed : root.Placed fits)
    (foldedIs : folded.Placed fits) : (rootOf root folded).Placed fits := by
  cases folded with
  | same | «instead» => exact foldedIs
  | statements | removed => exact placed

private theorem numbered_placed {args : List Node} (all : ArePlaced fits args) (index : Nat) :
    ∀ entry, entry ∈ numbered index args → entry.2.Placed fits := by
  induction args generalizing index with
  | nil => simp [numbered]
  | cons arg rest induction =>
      rw [numbered, List.forall_mem_cons]
      exact ⟨all arg List.mem_cons_self,
        induction (fun node there => all node (List.mem_cons_of_mem _ there)) (index + 1)⟩

variable {context : Context} {fold other : Context → Node → FoldM Folded} {name : Text}

theorem expandTemplate_alike (folds : FoldsAlike likeness fits context fold other)
    (fragments : ∀ entry, entry ∈ context.fragments → entry.2.Placed fits)
    (reads : ∀ source tree, source.role = .fragment → parseScript source = .ok tree →
      tree.Placed fits)
    {template : Text} {args : List Node} (argsAre : ArePlaced fits args) :
    likeness.alike (expandTemplate fold context name template args)
      (expandTemplate other context name template args) (Folded.Placed fits) := by
  have bound : ∀ entry, entry ∈ context.fragments.insertAll (numbered 0 args) →
      entry.2.Placed fits := by
    intro entry there
    rcases Table.mem_insertAll there with there | there
    · exact numbered_placed argsAre 0 entry there
    · exact fragments entry there
  apply likeness.bind likeness.of_parse
  intro program parsed
  have placed : program.Placed fits := reads _ program rfl parsed
  apply likeness.bind (folds _ bound program placed)
  intro folded foldedIs
  have placed := rootOf_placed placed foldedIs
  apply likeness.bind (folds _ fragments _ placed)
  intro folded foldedIs
  exact likeness.of_pure (asStatements_placed (rootOf_placed placed foldedIs))

/-- What a macro of the host gives has places as wanted. -/
inductive ExpansionPlaced (fits : Place → Prop) : Expansion → Prop where
  | nothing : ExpansionPlaced fits .nothing
  | node {node : Node} (placed : node.Placed fits) : ExpansionPlaced fits (.node node)
  | many {items : List Expansion} (all : ∀ item, item ∈ items → ExpansionPlaced fits item) :
      ExpansionPlaced fits (.many items)
  | other {typeName : String} : ExpansionPlaced fits (.other typeName)

theorem nodesOf_placed {folded : Folded} (placed : folded.Placed fits) :
    ArePlaced fits (nodesOf folded) := by
  cases folded with
  | removed => exact .nil
  | statements nodes => exact placed
  | same node | «instead» node =>
      rw [nodesOf]
      split
      · exact .nil
      · exact .single placed

theorem foldExpansion_alike {fold other : Node → FoldM Folded} {call : Node}
    (folds : ∀ node : Node, node.Placed fits →
      likeness.alike (fold node) (other node) (Folded.Placed fits))
    {expansion : Expansion} (placed : ExpansionPlaced fits expansion) :
    likeness.alike (foldExpansion fold name call expansion)
      (foldExpansion other name call expansion) (Folded.Placed fits) := by
  refine foldExpansion.induct
    (fun expansion => ExpansionPlaced fits expansion →
      likeness.alike (foldExpansion fold name call expansion)
        (foldExpansion other name call expansion) (Folded.Placed fits))
    (fun items => (∀ item, item ∈ items → ExpansionPlaced fits item) →
      likeness.alike (foldExpansions fold name call items)
        (foldExpansions other name call items) (ArePlaced fits))
    ?nothing ?many ?other ?absent ?leaf ?tree ?nil ?cons expansion placed
  case nothing => exact fun _ => likeness.of_pure trivial
  case many =>
    rintro items induction ⟨⟩
    rename_i all
    apply likeness.bind (induction all)
    intro nodes all
    exact likeness.of_pure all
  case other => exact fun _ _ => likeness.of_fail
  case absent => exact fun _ => likeness.of_pure trivial
  case leaf => exact fun _ _ => likeness.of_fail
  case tree =>
    rintro kind flags place children ⟨⟩
    rename_i placed
    apply likeness.bind (folds _ placed.copy)
    intro folded foldedIs
    split
    · apply likeness.of_pure
      split
      · exact asStatements_placed foldedIs
      · exact foldedIs
    · apply likeness.of_pure
      split
      · exact asStatements_placed foldedIs
      · exact foldedIs
    · exact likeness.of_pure foldedIs
  case nil => exact fun _ => likeness.of_pure .nil
  case cons =>
    intro item rest itemIs restAre all
    rw [List.forall_mem_cons] at all
    apply likeness.bind (itemIs all.1)
    intro folded foldedIs
    apply likeness.bind (restAre all.2)
    intro others othersAre
    exact likeness.of_pure (.append (nodesOf_placed foldedIs) othersAre)

theorem expandWith_alike (folds : FoldsAlike likeness fits context fold other)
    (fragments : ∀ entry, entry ∈ context.fragments → entry.2.Placed fits)
    (reads : ∀ source tree, source.role = .fragment → parseScript source = .ok tree →
      tree.Placed fits)
    (hosts : ∀ entry, entry ∈ context.macros → ∀ hostName, entry.2 = .host hostName →
      ∀ args expansion, ArePlaced fits args → context.host.expand hostName args = .ok expansion →
        ExpansionPlaced fits expansion)
    {call : Branch} (placed : call.toNode.Placed fits) :
    likeness.alike (expandWith fold context call name) (expandWith other context call name)
      (Folded.Placed fits) := by
  unfold expandWith
  split
  case h_1 => exact likeness.of_pure placed
  case h_2 =>
    apply likeness.bind (argumentsOf_alike placed)
    intro args argsAre
    exact expandTemplate_alike folds fragments reads argsAre
  case h_3 hostName isHost =>
    apply likeness.bind (argumentsOf_alike placed)
    intro args argsAre
    apply likeness.bind likeness.of_attempt
    intro expansion expanded
    have expansionIs := hosts _ (Table.mem_of_lookup isHost) hostName rfl args expansion argsAre
      expanded
    exact foldExpansion_alike (folds _ fragments) expansionIs

end Fold

end ScriptFold
