import ScriptFold.Fold.Control
import ScriptFold.Fold.Switch
import ScriptFold.Proofs.Coupling.Target

/-!
# Branches, loops and switches under coupled walkers

A branch that is taken and the statements that a switch runs were folded below the
statement they replace.
-/

namespace ScriptFold

variable {likeness : Likeness} {fits : Place → Prop} {levels : Nat} {first second : Walker}
variable {branch : Branch}

namespace Control

theorem branchOf_alike (coupled : Coupled likeness fits levels first second)
    {child : Child Node} (near : Near fits levels child.node) :
    likeness.alike (branchOf first child) (branchOf second child)
      fun child => child.node.Placed fits := by
  unfold branchOf
  split
  · exact likeness.of_pure near.placed
  · exact Slot.statement_alike coupled near

theorem ifStatement_alike (coupled : Coupled likeness fits levels first second)
    (near : Near fits (levels + 1) branch.toNode) :
    likeness.alike (ifStatement first branch) (ifStatement second branch)
      (Folded.Placed fits) := by
  unfold ifStatement
  split
  case h_1 test consequent alternate isChildren =>
    have among : ∀ child, child ∈ [test, consequent, alternate] → Near fits levels child.node :=
      fun child there => near.part (isChildren ▸ there)
    obtain ⟨testIs, consequentIs, alternateIs⟩ := Operation.forall_mem_three among
    apply likeness.bind (Operation.test_alike coupled testIs)
    intro test testIs
    apply likeness.bind (branchOf_alike coupled consequentIs)
    intro consequent consequentIs
    apply likeness.bind (branchOf_alike coupled alternateIs)
    intro alternate alternateIs
    apply likeness.after
    intro value
    split
    · apply Slot.unwrapBlock_alike
      split
      · exact consequentIs
      · exact alternateIs
    · exact likeness.of_pure
        (near.keep (.cons testIs (.cons consequentIs (.cons alternateIs .nil))))
  case h_2 => exact likeness.of_throw

theorem conditional_alike (coupled : Coupled likeness fits levels first second)
    (near : Near fits (levels + 1) branch.toNode) :
    likeness.alike (conditional first branch) (conditional second branch)
      (Folded.Placed fits) := by
  apply likeness.bind likeness.of_child
  intro test there
  apply likeness.bind (Operation.test_alike coupled (near.part there))
  intro test testIs
  apply likeness.bind likeness.of_child
  intro consequent there
  apply likeness.bind (Slot.expression_alike coupled (near.part there))
  intro consequent consequentIs
  apply likeness.bind likeness.of_child
  intro alternate there
  apply likeness.bind (Slot.expression_alike coupled (near.part there))
  intro alternate alternateIs
  apply likeness.after
  intro value
  split
  · apply likeness.of_pure
    apply Folded.placed_ofNode
    split
    · exact consequentIs
    · exact alternateIs
  · exact likeness.of_pure
      (near.keep (.cons testIs (.cons consequentIs (.cons alternateIs .nil))))

theorem whileLoop_alike (coupled : Coupled likeness fits levels first second)
    (near : Near fits (levels + 1) branch.toNode) :
    likeness.alike (whileLoop first branch) (whileLoop second branch) (Folded.Placed fits) := by
  apply likeness.bind likeness.of_child
  intro test there
  apply likeness.bind (Operation.test_alike coupled (near.part there))
  intro test testIs
  apply likeness.after
  intro never
  split
  · exact likeness.of_pure trivial
  · apply likeness.bind likeness.of_child
    intro body there
    apply likeness.bind (Slot.statement_alike coupled (near.part there))
    intro body bodyIs
    exact likeness.of_pure (near.keep ((near.parts.set testIs).set bodyIs))

theorem doWhileLoop_alike (coupled : Coupled likeness fits levels first second)
    (near : Near fits (levels + 1) branch.toNode) :
    likeness.alike (doWhileLoop first branch) (doWhileLoop second branch)
      (Folded.Placed fits) := by
  apply likeness.bind likeness.of_child
  intro body there
  apply likeness.bind (Slot.statement_alike coupled (near.part there))
  intro body bodyIs
  apply likeness.bind likeness.of_child
  intro test there
  apply likeness.bind (Operation.test_alike coupled (near.part there))
  intro test testIs
  exact likeness.of_pure (near.keep ((near.parts.set bodyIs).set testIs))

theorem initialOnly_placed {initial : Node} (placed : initial.Placed fits) :
    (initialOnly initial).Placed fits := by
  unfold initialOnly
  split
  · exact trivial
  · split
    · exact .made placed.children
    · exact .made (.single placed)

private theorem initialPart_alike (coupled : Coupled likeness fits levels first second)
    {child : Child Node} (near : Near fits levels child.node) :
    likeness.alike (initialPart first child) (initialPart second child)
      fun child => child.node.Placed fits := by
  unfold initialPart
  split
  · exact Slot.anyNode_alike coupled near
  · exact Slot.expression_alike coupled near

theorem forLoop_alike (coupled : Coupled likeness fits levels first second)
    (near : Near fits (levels + 1) branch.toNode) :
    likeness.alike (forLoop first branch) (forLoop second branch) (Folded.Placed fits) := by
  unfold forLoop
  split
  case h_1 initial test update body isChildren =>
    have among : ∀ child, child ∈ [initial, test, update, body] → Near fits levels child.node :=
      fun child there => near.part (isChildren ▸ there)
    simp only [List.forall_mem_cons] at among
    obtain ⟨initialIs, testIs, updateIs, bodyIs, _⟩ := among
    have testOf : likeness.alike
        (if test.node.isAbsent then pure test else Operation.test first test)
        (if test.node.isAbsent then pure test else Operation.test second test)
        fun child => child.node.Placed fits := by
      split
      · exact likeness.of_pure testIs.placed
      · exact Operation.test_alike coupled testIs
    apply likeness.bind (initialPart_alike coupled initialIs)
    intro initial initialIs
    apply likeness.either testOf
    intro test testIs
    apply likeness.after
    intro never
    split
    · exact likeness.of_pure (initialOnly_placed initialIs)
    · apply likeness.bind (Slot.expression_alike coupled updateIs)
      intro update updateIs
      apply likeness.bind (Slot.statement_alike coupled bodyIs)
      intro body bodyIs
      exact likeness.of_pure
        (near.keep (.cons initialIs (.cons testIs (.cons updateIs (.cons bodyIs .nil)))))
  case h_2 => exact likeness.of_throw

theorem forEachLoop_alike (coupled : Coupled likeness fits levels first second)
    (near : Near fits (levels + 1) branch.toNode) :
    likeness.alike (forEachLoop first branch) (forEachLoop second branch)
      (Folded.Placed fits) := by
  unfold forEachLoop
  split
  case h_1 left right body isChildren =>
    have among : ∀ child, child ∈ [left, right, body] → Near fits levels child.node :=
      fun child there => near.part (isChildren ▸ there)
    obtain ⟨leftIs, rightIs, bodyIs⟩ := Operation.forall_mem_three among
    have leftOf : likeness.alike
        (if left.node.isKind .varDecl then Slot.anyNode first left
          else (·.inSeat left.seat) <$> Target.assign first left.node)
        (if left.node.isKind .varDecl then Slot.anyNode second left
          else (·.inSeat left.seat) <$> Target.assign second left.node)
        fun child => child.node.Placed fits := by
      split
      · exact Slot.anyNode_alike coupled leftIs
      · simp only [map_eq_pure_bind]
        apply likeness.bind (Target.assign_alike coupled leftIs)
        intro outcome placed
        exact likeness.of_pure (Outcome.placed_inSeat placed _)
    apply likeness.either leftOf
    intro left leftIs
    apply likeness.bind (Slot.expression_alike coupled rightIs)
    intro right rightIs
    apply likeness.after
    intro value
    split
    · exact likeness.of_pure trivial
    · apply likeness.bind (Slot.statement_alike coupled bodyIs)
      intro body bodyIs
      exact likeness.of_pure (near.keep (.cons leftIs (.cons rightIs (.cons bodyIs .nil))))
  case h_2 => exact likeness.of_throw

theorem loop_alike (coupled : Coupled likeness fits levels first second)
    (near : Near fits (levels + 1) branch.toNode) :
    likeness.alike (loop first branch) (loop second branch) (Folded.Placed fits) := by
  unfold loop
  split
  · exact whileLoop_alike coupled near
  · exact doWhileLoop_alike coupled near
  · exact forLoop_alike coupled near
  · exact forEachLoop_alike coupled near
  · exact forEachLoop_alike coupled near
  · exact likeness.of_pure near.placed

end Control

namespace Switch

/-- A case whose test is folded and whose statements are not yet. -/
def Ready (fits : Place → Prop) (levels : Nat) (case : Node) : Prop :=
  ∃ kind flags place test body, case = .tree kind flags place (test :: body) ∧
    case.Placed fits ∧ ∀ child, child ∈ body → Near fits levels child.node

theorem foldTest_alike (coupled : Coupled likeness fits levels first second)
    {child : Child Node} (near : Near fits levels child.node) :
    likeness.alike (foldTest first child) (foldTest second child)
      fun child => Ready fits levels child.node := by
  unfold foldTest
  split
  case h_1 kind flags place test body isTree =>
    rw [isTree] at near
    apply likeness.bind
      (Slot.expression_alike coupled (near.higher.child List.mem_cons_self))
    intro test testIs
    apply likeness.of_pure
    refine ⟨kind, flags, place, test, body, rfl, ?_, ?_⟩
    · exact near.placed.keep (.cons testIs near.placed.all.tail)
    · exact fun child there => near.higher.child (List.mem_cons_of_mem _ there)
  case h_2 => exact likeness.of_throw
  case h_3 => exact likeness.of_throw

theorem foldBody_alike (coupled : Coupled likeness fits levels first second)
    {child : Child Node} (ready : Ready fits levels child.node) :
    likeness.alike (foldBody first child) (foldBody second child)
      fun child => child.node.Placed fits := by
  obtain ⟨kind, flags, place, test, body, isTree, placed, near⟩ := ready
  unfold foldBody
  rw [isTree] at placed ⊢
  apply likeness.bind (Slot.statements_alike coupled near)
  intro body bodyIs
  exact likeness.of_pure (placed.keep (.cons placed.all.head bodyIs))

/-- The statements of a plan are among those of the cases. -/
theorem mem_of_plan {nodes planned : List Node} {node : Node}
    (isPlan : plan nodes = .ok (some planned)) (there : node ∈ planned) : node ∈ nodes := by
  induction nodes generalizing planned with
  | nil =>
      cases isPlan
      exact there
  | cons first rest induction =>
      rw [plan] at isPlan
      split at isPlan
      · obtain ⟨label, _, isPlan⟩ := Calculation.of_bind_eq_ok isPlan
        split at isPlan <;> cases isPlan
        cases there
      · split at isPlan
        · cases isPlan
        · obtain ⟨later, isLater, isPlan⟩ := Calculation.of_bind_eq_ok isPlan
          cases later with
          | none => cases isPlan
          | some later =>
              cases isPlan
              rw [List.mem_cons] at there ⊢
              exact there.imp_right (induction isLater)

theorem chosen_placed {nodes : List Node} {folded : Folded} (all : ArePlaced fits nodes)
    (isChosen : chosen nodes = .ok folded) : folded.Placed fits := by
  unfold chosen at isChosen
  split at isChosen
  · cases isChosen
    exact trivial
  · obtain ⟨declares, _, isChosen⟩ := Calculation.of_bind_eq_ok isChosen
    split at isChosen <;> cases isChosen
    · exact .made all
    · exact all

theorem fold_alike (coupled : Coupled likeness fits levels first second)
    (near : Near fits (levels + 1) branch.toNode) :
    likeness.alike (fold first branch) (fold second branch) (Folded.Placed fits) := by
  unfold fold
  split
  case h_1 => exact likeness.of_throw
  case h_2 discriminant cases isChildren =>
    have among : ∀ child, child ∈ discriminant :: cases → Near fits levels child.node :=
      fun child there => near.part (isChildren ▸ there)
    rw [List.forall_mem_cons] at among
    apply likeness.bind (Slot.expression_alike coupled among.1)
    intro discriminant discriminantIs
    apply likeness.bind
      (likeness.mapM fun child there => foldTest_alike coupled (among.2 child there))
    intro cases ready
    have kept : likeness.alike
        (do return branch.keep (discriminant :: (← cases.mapM (foldBody first))))
        (do return branch.keep (discriminant :: (← cases.mapM (foldBody second))))
        (Folded.Placed fits) := by
      apply likeness.bind
        (likeness.mapM fun child there => foldBody_alike coupled (ready child there))
      intro bodies bodiesAre
      exact likeness.of_pure (near.keep (.cons discriminantIs bodiesAre))
    apply likeness.after
    intro value
    split
    · exact kept
    · apply likeness.after
      intro entry
      split
      · exact kept
      · exact likeness.of_pure trivial
      · apply likeness.bind likeness.of_calculate
        intro planned isPlan
        split
        · exact kept
        case h_2 nodes =>
          have nodesAre : ∀ child, child ∈ Node.unseated nodes →
              Near fits levels child.node := by
            intro child there
            obtain ⟨node, isNode, rfl⟩ := List.mem_map.mp there
            obtain ⟨case, isCase, inCase⟩ := List.mem_flatMap.mp (mem_of_plan isPlan isNode)
            obtain ⟨kind, flags, place, test, body, isTree, _, bodyIs⟩ :=
              ready case (List.mem_of_mem_drop isCase)
            rw [isTree] at inCase
            obtain ⟨child, isChild, rfl⟩ := List.mem_map.mp inCase
            exact bodyIs child isChild
          apply likeness.bind (Slot.statements_alike coupled nodesAre)
          intro statements statementsAre
          apply likeness.weaken likeness.of_calculate
          intro folded isChosen
          exact chosen_placed statementsAre.nodes isChosen

end Switch

end ScriptFold
