import ScriptFold.Fold.Control
import ScriptFold.Fold.Switch
import ScriptFold.Proofs.Whole.Target

/-!
# Branches, loops and switches of whole trees

Branches, loops and switches of whole trees fold safely, and what is left of them is whole.
-/

namespace ScriptFold

open Calculation (Slips slips_ok)
open FoldM (Safe)

variable {walker : Walker} {node former : Node} {nodes : List Node} {child : Child Node}
variable {children : List (Child Node)} {flags : Flags} {place : Option Place}

namespace Control

/-! ### Branches -/

theorem branchOf_safe (safe : walker.IsSafe) (whole : child.node.Whole) :
    Safe (branchOf walker child) fun result => result.node.Whole := by
  unfold branchOf
  split
  · exact .of_pure whole
  · exact Slot.statement_safe safe whole

theorem ifStatement_safe (safe : walker.IsSafe)
    (whole : (Node.tree .ifStmt flags place children).Whole) :
    Safe (ifStatement walker ⟨.ifStmt, flags, place, children⟩)
      (FoldsWhole (.tree .ifStmt flags place children)) := by
  obtain ⟨test, consequent, alternate, rfl⟩ :=
    List.length_eq_three.mp (beq_iff_eq.mp whole.holds.counts)
  apply (Operation.test_safe safe whole.head).bind
  intro newTest testIs
  apply (branchOf_safe safe whole.second).bind
  intro newConsequent consequentIs
  apply (branchOf_safe safe (whole.all alternate (by simp))).bind
  intro newAlternate alternateIs
  apply (Slot.valueOf_safe testIs).bind
  intro value _
  cases value with
  | some value =>
      apply (Slot.unwrapBlock_safe ?_).mono fun _ isNew => .of_isNew isNew rfl
      split
      · exact consequentIs
      · exact alternateIs
  | none =>
      apply Safe.of_pure (FoldsWhole.keep _)
      exact ((whole.set rfl 0 testIs rfl).set rfl 1 consequentIs rfl).set rfl 2 alternateIs rfl

theorem conditional_safe (safe : walker.IsSafe)
    (whole : (Node.tree .conditional flags place children).Whole) :
    Safe (conditional walker ⟨.conditional, flags, place, children⟩)
      (FoldsWhole (.tree .conditional flags place children)) := by
  obtain ⟨test, consequent, alternate, rfl⟩ :=
    List.length_eq_three.mp (beq_iff_eq.mp whole.holds.counts)
  apply (Operation.test_safe safe whole.head).bind
  intro newTest testIs
  apply (Slot.expression_safe safe whole.second).bind
  intro newConsequent consequentIs
  apply (Slot.expression_safe safe (whole.all alternate (by simp))).bind
  intro newAlternate alternateIs
  apply (Slot.valueOf_safe testIs).bind
  intro value _
  cases value with
  | some value =>
      apply Safe.of_pure
      apply FoldsWhole.of_isNew (Folded.isNew_ofNode _) rfl
      split
      · exact consequentIs.whole
      · exact alternateIs.whole
  | none =>
      apply Safe.of_pure (FoldsWhole.keep _)
      exact ((whole.set rfl 0 testIs rfl).set rfl 1 consequentIs.whole rfl).set rfl 2
        alternateIs.whole rfl

/-! ### Loops -/

theorem neverHolds_safe (whole : node.Whole) : Safe (neverHolds node) fun _ => True :=
  (Slot.valueOf_safe whole).bind fun _ _ => .of_pure trivial

theorem whileLoop_safe (safe : walker.IsSafe)
    (whole : (Node.tree .whileStmt flags place children).Whole) :
    Safe (whileLoop walker ⟨.whileStmt, flags, place, children⟩)
      (FoldsWhole (.tree .whileStmt flags place children)) := by
  obtain ⟨test, body, rfl⟩ := List.length_eq_two.mp (beq_iff_eq.mp whole.holds.counts)
  apply (Operation.test_safe safe whole.head).bind
  intro newTest testIs
  apply (neverHolds_safe testIs).bind
  intro never _
  split
  · exact .of_pure (.of_isNew trivial rfl)
  · apply (Slot.statement_safe safe whole.second).bind
    intro newBody bodyIs
    exact .of_pure (.keep ((whole.set rfl 0 testIs rfl).set rfl 1 bodyIs rfl))

theorem doWhileLoop_safe (safe : walker.IsSafe)
    (whole : (Node.tree .doWhileStmt flags place children).Whole) :
    Safe (doWhileLoop walker ⟨.doWhileStmt, flags, place, children⟩)
      (FoldsWhole (.tree .doWhileStmt flags place children)) := by
  obtain ⟨body, test, rfl⟩ := List.length_eq_two.mp (beq_iff_eq.mp whole.holds.counts)
  apply (Slot.statement_safe safe whole.head).bind
  intro newBody bodyIs
  apply (Operation.test_safe safe whole.second).bind
  intro newTest testIs
  exact .of_pure (.keep ((whole.set rfl 0 bodyIs rfl).set rfl 1 testIs rfl))

theorem initialOnly_isNew (whole : node.Whole) : (initialOnly node).IsNew := by
  unfold initialOnly
  split
  · trivial
  · split
    case isTrue isDeclaration =>
      cases node with
      | absent | leaf => cases isDeclaration
      | tree kind flags place children =>
          cases beq_iff_eq.mp isDeclaration
          have made : (Node.made .varDecl (children.map Child.node)).Whole := by
            apply Node.Whole.made
            · rw [List.length_map]
              exact whole.holds.counts
            · intro index part found
              rw [List.getElem?_map] at found
              obtain ⟨child, isChild, rfl⟩ := Option.map_eq_some_iff.mp found
              exact (whole.at_index _ isChild).2
            · rw [List.forall_mem_map]
              exact whole.all
          exact made
    case isFalse => exact Slot.exprStmt_whole whole

private theorem initialPart_safe (safe : walker.IsSafe) (whole : child.node.Whole) :
    Safe (initialPart walker child) fun result => result.node.Whole := by
  unfold initialPart
  split
  case isTrue isDeclaration =>
    have steady : child.node.isSteady = true := isSteady_of_kind (beq_iff_eq.mp isDeclaration)
    exact (Slot.anyNode_safe safe whole steady).mono fun _ is => is.1
  case isFalse => exact (Slot.expression_safe safe whole).mono fun _ refolds => refolds.whole

theorem forLoop_safe (safe : walker.IsSafe)
    (whole : (Node.tree .forStmt flags place children).Whole) :
    Safe (forLoop walker ⟨.forStmt, flags, place, children⟩)
      (FoldsWhole (.tree .forStmt flags place children)) := by
  obtain ⟨initial, test, update, body, rfl⟩ : ∃ initial test update body,
      children = [initial, test, update, body] := by
    rcases children with _ | ⟨initial, rest⟩
    · cases whole.holds.counts
    · have three : rest.length = 3 := Nat.succ.inj (beq_iff_eq.mp whole.holds.counts)
      obtain ⟨test, update, body, rfl⟩ := List.length_eq_three.mp three
      exact ⟨initial, test, update, body, rfl⟩
  apply (initialPart_safe safe whole.head).bind
  intro newInitial initialIs
  have tests : Safe (if test.node.isAbsent then pure test else Operation.test walker test)
      fun result => result.node.Whole := by
    split
    · exact .of_pure whole.second
    · exact Operation.test_safe safe whole.second
  apply tests.either
  intro newTest testIs
  have rest : Safe (do
      let update ← Slot.expression walker update
      let body ← Slot.statement walker body
      return Branch.keep ⟨.forStmt, flags, place, [initial, test, update, body]⟩
        [newInitial, newTest, update, body])
      (FoldsWhole (.tree .forStmt flags place [initial, test, update, body])) := by
    apply (Slot.expression_safe safe (whole.all update (by simp))).bind
    intro newUpdate refolds
    apply (Slot.statement_safe safe (whole.all body (by simp))).bind
    intro newBody bodyIs
    have head := (whole.set rfl 0 initialIs rfl).set rfl 1 testIs rfl
    exact .of_pure (.keep ((head.set rfl 2 refolds.whole rfl).set rfl 3 bodyIs rfl))
  dsimp only
  apply (neverHolds_safe testIs).bind
  intro never _
  split
  · exact .of_pure (.of_isNew (initialOnly_isNew initialIs) rfl)
  · exact rest

theorem forEachLoop_safe {kind : Kind} (safe : walker.IsSafe)
    (whole : (Node.tree kind flags place children).Whole)
    (isLoop : kind = .forInStmt ∨ kind = .forOfStmt) :
    Safe (forEachLoop walker ⟨kind, flags, place, children⟩)
      (FoldsWhole (.tree kind flags place children)) := by
  have shape : kind.counts children.length = (children.length == 3) ∧
      Printer.listHead? kind = none ∧ (∀ index node, kind.takes index node = true) ∧
      kind.isSteady = false := by
    obtain rfl | rfl := isLoop <;> exact ⟨rfl, rfl, fun _ _ => rfl, rfl⟩
  obtain ⟨counts, noList, free, notSteady⟩ := shape
  obtain ⟨left, right, body, rfl⟩ :=
    List.length_eq_three.mp (beq_iff_eq.mp (counts.symm.trans whole.holds.counts))
  have lefts : Safe (if left.node.isKind .varDecl then Slot.anyNode walker left
      else (·.inSeat left.seat) <$> Target.assign walker left.node)
      fun result => result.node.Whole := by
    split
    case isTrue isDeclaration =>
      have steady : left.node.isSteady = true := isSteady_of_kind (beq_iff_eq.mp isDeclaration)
      exact (Slot.anyNode_safe safe whole.head steady).mono fun _ is => is.1
    case isFalse =>
      rw [map_eq_pure_bind]
      apply (Target.assign_safe safe whole.head).bind
      intro outcome outcomeIs
      exact .of_pure (Operation.inSeat_whole outcomeIs)
  apply lefts.either
  intro newLeft leftIs
  apply (Slot.expression_safe safe whole.second).bind
  intro newRight refolds
  apply (Slot.valueOf_safe refolds.whole).bind
  intro value _
  split
  · exact .of_pure (.of_isNew trivial notSteady)
  · apply (Slot.statement_safe safe (whole.all body (by simp))).bind
    intro newBody bodyIs
    have head := (whole.set noList 0 leftIs (free _ _)).set noList 1 refolds.whole (free _ _)
    exact .of_pure (.keep (head.set noList 2 bodyIs (free _ _)))

theorem loop_safe {kind : Kind} (safe : walker.IsSafe)
    (whole : (Node.tree kind flags place children).Whole) (isLoop : kind.category? = some .loop) :
    Safe (loop walker ⟨kind, flags, place, children⟩)
      (FoldsWhole (.tree kind flags place children)) := by
  cases kind <;> cases isLoop
  case whileStmt => exact whileLoop_safe safe whole
  case doWhileStmt => exact doWhileLoop_safe safe whole
  case forStmt => exact forLoop_safe safe whole
  case forInStmt => exact forEachLoop_safe safe whole (.inl rfl)
  case forOfStmt => exact forEachLoop_safe safe whole (.inr rfl)

end Control

/-! ### Switches -/

namespace Switch

structure IsCase (node : Node) : Prop where
  whole : node.Whole
  isKind : node.isKind .switchCase = true

theorem IsCase.parts (isCase : IsCase node) :
    ∃ flags place test body, node = .tree .switchCase flags place (test :: body) := by
  obtain ⟨whole, isKind⟩ := isCase
  cases node with
  | absent | leaf => cases isKind
  | tree kind flags place children =>
      cases beq_iff_eq.mp isKind
      cases children with
      | nil => cases whole.holds.counts
      | cons test body => exact ⟨flags, place, test, body, rfl⟩

theorem foldTest_safe (safe : walker.IsSafe) (isCase : IsCase child.node) :
    Safe (foldTest walker child) fun result => IsCase result.node := by
  obtain ⟨seat, node⟩ := child
  obtain ⟨flags, place, test, body, isNode⟩ := isCase.parts
  cases isNode
  have whole := isCase.whole
  apply (Slot.expression_safe safe whole.head).bind
  intro newTest refolds
  refine .of_pure ⟨.tree ⟨whole.holds.counts, fun _ _ _ => rfl, ?_⟩ ?_, rfl⟩
  · intro head isHead known isPlace
    cases isHead
    have lists := whole.holds.listed 1 rfl known isPlace
    exact ⟨lists.formers, lists.seats, lists.caseHead⟩
  · exact AllWhole.cons refolds.whole (AllWhole.tail whole.all)

theorem foldBody_safe (safe : walker.IsSafe) (isCase : IsCase child.node) :
    Safe (foldBody walker child) fun result => IsCase result.node := by
  obtain ⟨seat, node⟩ := child
  obtain ⟨flags, place, test, body, isNode⟩ := isCase.parts
  cases isNode
  have whole := isCase.whole
  apply (Slot.statements_safe safe (AllWhole.tail whole.all)).bind
  intro statements renewed
  refine .of_pure ⟨Slot.listing_whole whole rfl (fun _ _ => rfl) rfl ?_ renewed, rfl⟩
  exact AllWhole.cons whole.head renewed.whole

theorem entryFrom_safe {value : Value} {default : Option Nat} {index : Nat}
    (all : AllWhole children) : Safe (entryFrom value default index children) fun _ => True := by
  induction children generalizing default index with
  | nil => exact .of_pure trivial
  | cons child rest induction =>
      rw [entryFrom]
      split
      · exact induction all.tail
      · apply (Slot.valueOf_safe (all.head.child 0)).bind
        intro known _
        split
        · exact .of_pure trivial
        · split
          · exact .of_pure trivial
          · exact induction all.tail

theorem plan_slips (all : ∀ node, node ∈ nodes → node.Whole) :
    Slips (plan nodes) ∧ ∀ planned, plan nodes = .ok (some planned) →
      ∀ node, node ∈ planned → node.Whole := by
  induction nodes with
  | nil =>
      refine ⟨slips_ok _, ?_⟩
      intro planned is
      cases is
      nofun
  | cons node rest induction =>
      rw [List.forall_mem_cons] at all
      obtain ⟨slips, areWhole⟩ := induction all.2
      rw [plan]
      split
      case isTrue isBreak =>
        obtain ⟨label, isLabel, _⟩ :=
          all.1.childAt (beq_iff_eq.mp isBreak) (show Kind.breakStmt.needs 0 = true from rfl)
        rw [isLabel]
        refine ⟨slips_ok _, ?_⟩
        intro planned is
        rw [Calculation.ok_bind] at is
        split at is <;> cases is
        nofun
      case isFalse =>
        split
        · exact ⟨slips_ok _, nofun⟩
        · refine ⟨slips.bind fun _ _ => slips_ok _, ?_⟩
          intro planned is
          obtain ⟨others, areOthers, is⟩ := Calculation.of_bind_eq_ok is
          cases others with
          | none => cases is
          | some others =>
              cases is
              exact List.forall_mem_cons.mpr ⟨all.1, areWhole others areOthers⟩

theorem chosen_safe (all : ∀ node, node ∈ nodes → node.Whole) :
    Safe (FoldM.calculate (chosen nodes)) Folded.IsNew := by
  have slips : Slips (chosen nodes) := by
    unfold chosen
    split
    · exact slips_ok _
    · apply Slips.bind (Slot.anyM_slips fun node there =>
          Slot.declaresInBlock_slips (all node there))
      intro declares _
      split <;> exact slips_ok _
  apply (Safe.of_calculate slips).mono
  intro folded isChosen
  unfold chosen at isChosen
  split at isChosen
  · cases isChosen
    trivial
  · obtain ⟨declares, _, is⟩ := Calculation.of_bind_eq_ok isChosen
    split at is <;> cases is
    · exact Slot.block_whole all
    · exact all

theorem fold_safe (safe : walker.IsSafe)
    (whole : (Node.tree .switchStmt flags place children).Whole) :
    Safe (fold walker ⟨.switchStmt, flags, place, children⟩)
      (FoldsWhole (.tree .switchStmt flags place children)) := by
  cases children with
  | nil => cases whole.holds.counts
  | cons discriminant cases =>
      have areCases : ∀ child, child ∈ cases → IsCase child.node := by
        intro child there
        obtain ⟨index, found⟩ := List.getElem?_of_mem there
        obtain ⟨childIs, isKind⟩ := whole.at_index (index + 1) found
        exact ⟨childIs, isKind⟩
      unfold fold
      dsimp only
      apply (Slot.expression_safe safe whole.head).bind
      intro newDiscriminant refolds
      have tests : Safe (cases.mapM (foldTest walker))
          (List.Forall₂ (fun _ (result : Child Node) => IsCase result.node) cases) :=
        .mapM fun child there => foldTest_safe safe (areCases child there)
      apply tests.bind
      intro tested related
      have areTested : ∀ child, child ∈ tested → IsCase child.node :=
        all_of_forall₂ related fun _ _ is => is
      have bodies : Safe (tested.mapM (foldBody walker))
          (List.Forall₂ (fun _ (result : Child Node) => IsCase result.node) tested) :=
        .mapM fun child there => foldBody_safe safe (areTested child there)
      have kept : Safe (do
          return Branch.keep ⟨.switchStmt, flags, place, discriminant :: cases⟩
            (newDiscriminant :: (← tested.mapM (foldBody walker))))
          (FoldsWhole (.tree .switchStmt flags place (discriminant :: cases))) := by
        apply bodies.bind
        intro folded relatedBodies
        have areFolded : ∀ child, child ∈ folded → IsCase child.node :=
          all_of_forall₂ relatedBodies fun _ _ is => is
        apply Safe.of_pure (FoldsWhole.keep _)
        apply whole.replace rfl
        · rw [List.length_cons, List.length_cons, ← relatedBodies.length_eq, ← related.length_eq]
        · intro index child found
          cases index with
          | zero => rfl
          | succ index => exact (areFolded child (List.mem_of_getElem? found)).isKind
        · exact AllWhole.cons refolds.whole fun child there => (areFolded child there).whole
      apply (Slot.valueOf_safe refolds.whole).bind
      intro value _
      split
      · exact kept
      · apply (entryFrom_safe fun child there => (areTested child there).whole).bind
        intro entry _
        split
        · exact kept
        · exact .of_pure (.of_isNew trivial rfl)
        · rename_i index
          have bodyIs : ∀ node, node ∈ ((tested.drop index).flatMap fun case =>
              case.node.children.drop 1) → node.Whole := by
            intro node there
            obtain ⟨case, isCase, inCase⟩ := List.mem_flatMap.mp there
            have caseIs := (areTested case (List.mem_of_mem_drop isCase)).whole
            exact caseIs.children node (List.mem_of_mem_drop inCase)
          obtain ⟨slips, areWhole⟩ := plan_slips bodyIs
          apply (Safe.of_calculate slips).bind
          intro planned isPlanned
          cases planned with
          | none => exact kept
          | some nodes =>
              have nodesAre : AllWhole (Node.unseated nodes) := by
                rw [AllWhole, Node.unseated, List.forall_mem_map]
                exact areWhole nodes isPlanned
              apply (Slot.statements_safe safe nodesAre).bind
              intro statements renewed
              have statementsAre : ∀ node, node ∈ statements.map Child.node → node.Whole :=
                List.forall_mem_map.mpr renewed.whole
              exact (chosen_safe statementsAre).mono fun _ isNew => .of_isNew isNew rfl

end Switch

end ScriptFold
