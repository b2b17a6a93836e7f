import ScriptFold.Proofs.Meaning.Switch

/-!
# Folding keeps what scripts do

The steps for the single statements put together: a folded script makes the calls that
the script makes with its bound names in place, in the same order and with the same
arguments, and it ends in the same way, however many rounds its loops may make.
-/

namespace ScriptFold

namespace Meaning

open FoldM

variable {context : Context} {walker : Walker}

theorem expressionStatement_replaced {flags : Flags} {place : Option Place}
    {expression : Child Node} {folded : Folded} (kept : Kept walker expression.node)
    (returns : Returns (Fold.expressionStatement walker
      ⟨.exprStmt, flags, place, [expression]⟩) folded) :
    Replaced walker.context (.tree .exprStmt flags place [expression])
      (Fold.nodesOf folded) := by
  obtain ⟨child, found, returns⟩ := returns.of_bind
  cases found.of_child rfl
  obtain ⟨result, walked, returns⟩ := returns.of_bind
  obtain ⟨outcome, rfl, preserved⟩ := kept.walked result walked
  have same : folded = .same (.tree .exprStmt flags place [outcome.inSeat expression.seat]) := by
    cases outcome with
    | same node =>
        have expressionIs : IsExpression walker.context node := preserved.expression
        cases expressionIs <;> exact returns.eq_of_pure
    | «instead» node =>
        have expressionIs : IsExpression walker.context node := preserved.expression
        cases expressionIs <;> exact returns.eq_of_pure
  cases same
  refine .of_same (.expression (by rw [Outcome.inSeat_node]; exact preserved.expression)) ?_
  intro world
  simp only [exec_expression, Outcome.inSeat_node, preserved.meaning]

theorem block_replaced {flags : Flags} {place : Option Place} {statements : List (Child Node)}
    {folded : Folded}
    (runs : ∀ statement, statement ∈ statements → Runs walker statement.node)
    (returns : Returns (Slot.statementList walker ⟨.block, flags, place, statements⟩) folded) :
    Replaced walker.context (.tree .block flags place statements) (Fold.nodesOf folded) := by
  obtain ⟨result, walked, returns⟩ := returns.of_bind
  obtain ⟨are, same⟩ := statements_replaced runs walked
  cases returns.eq_of_pure
  refine .of_same (.block are) fun world => ?_
  rw [exec_block, exec_block, same]

/-- Folding a statement with enough levels keeps what it does. -/
theorem walkAt_replaced {expand : Fold.Expander} (plain : Plain context) (levels : Nat)
    {node : Node} {folded : Folded} (statement : IsStatement context node)
    (bounded : node.height ≤ levels)
    (returns : Returns (Fold.walkAt context expand levels node) folded) :
    Replaced context node (Fold.nodesOf folded) := by
  induction levels generalizing node folded with
  | zero =>
      obtain ⟨kind, flags, place, children, rfl, _⟩ := statement.isTree
      cases bounded
  | succ levels induction =>
      let walker : Walker := ⟨context, expand context, Fold.walkAt context expand levels⟩
      change Replaced walker.context node (Fold.nodesOf folded)
      have kept : ∀ {child : Node}, child.height < node.height → IsExpression context child →
          Kept walker child := by
        intro child below childIs
        exact ⟨childIs, fun result walked => walkAt_keeps plain levels childIs (by omega) walked⟩
      have runs : ∀ {child : Node}, child.height < node.height → IsStatement context child →
          Runs walker child := by
        intro child below childIs
        exact ⟨childIs, fun result walked => induction childIs (by omega) walked⟩
      cases statement with
      | empty =>
          cases returns.of_locating.eq_of_pure
          refine .of_same .empty fun world => ?_
          rw [Branch.toNode, exec_empty, exec_empty]
      | plainBreak =>
          cases returns.of_locating.eq_of_pure
          refine .of_same .plainBreak fun world => ?_
          rw [Branch.toNode, exec_break, exec_break]
      | expression expressionIs =>
          exact expressionStatement_replaced (kept (height_lt_of_mem (by simp)) expressionIs)
            returns.of_locating
      | block statementsAre =>
          refine block_replaced (fun statement there => ?_) returns.of_locating
          exact runs (height_lt_of_mem there) (statementsAre statement there)
      | branch testIs consequentIs alternateIs =>
          exact branch_replaced (kept (height_lt_of_mem (by simp)) testIs)
            (runs (height_lt_of_mem (by simp)) consequentIs)
            (fun present => runs (height_lt_of_mem (by simp)) (alternateIs present))
            returns.of_locating
      | whileLoop testIs bodyIs =>
          exact whileLoop_replaced (kept (height_lt_of_mem (by simp)) testIs)
            (runs (height_lt_of_mem (by simp)) bodyIs) returns.of_locating
      | doWhileLoop bodyIs testIs =>
          exact doWhileLoop_replaced (runs (height_lt_of_mem (by simp)) bodyIs)
            (kept (height_lt_of_mem (by simp)) testIs) returns.of_locating
      | @switch flags place discriminant cases discriminantIs casesAre bodiesAre =>
          refine switch_replaced (kept (height_lt_of_mem (by simp)) discriminantIs) ?_
            returns.of_locating
          intro case there
          obtain ⟨seat, caseNode⟩ := case
          obtain ⟨caseFlags, casePlace, test, body, isCase, testIs⟩ := casesAre _ there
          cases (show caseNode = _ from isCase)
          have below : ∀ child : Child Node, child ∈ test :: body → child.node.height <
              (Node.tree .switchStmt flags place (discriminant :: cases)).height :=
            fun child isChild =>
              height_lt_of_mem_inner isChild (List.mem_cons_of_mem discriminant there)
          refine .mk (fun present => ?_) (fun statement isStatement => ?_)
          · exact kept (below test List.mem_cons_self) (testIs present)
          · exact runs (below statement (List.mem_cons_of_mem _ isStatement))
              (bodiesAre _ there statement isStatement)

/-- Folding a script keeps what it does. -/
theorem foldWithin_program_replaced {depth : Nat} {flags : Flags} {place : Option Place}
    {statements : List (Child Node)} {folded : Node} (plain : Plain context)
    (statementsAre : ∀ statement, statement ∈ statements → IsStatement context statement.node)
    (returns : Returns
      (Fold.foldWithin depth context (.tree .program flags place statements))
      (.same folded)) (world : World) :
    exec world [] folded =
      exec world context.values (.tree .program flags place statements) := by
  have walked : ∃ expand : Fold.Expander, Returns
      (Fold.walk context expand (.tree .program flags place statements)) (.same folded) := by
    cases depth <;> exact ⟨_, returns⟩
  obtain ⟨expand, walked⟩ := walked
  rw [Fold.walk, Node.height] at walked
  obtain ⟨result, folds, returns⟩ := walked.of_locating.of_bind
  cases returns.eq_of_pure
  have runs : ∀ statement, statement ∈ statements →
      Runs ⟨context, expand context, Fold.walkAt context expand (Node.heightAll statements)⟩
        statement.node := by
    intro statement there
    refine ⟨statementsAre statement there, fun result walked => ?_⟩
    exact walkAt_replaced plain _ (statementsAre statement there) (height_le_heightAll there)
      walked
  rw [exec_program, exec_program, (statements_replaced runs folds).2]

/-- Folding keeps what a script does: if it returns, then for every world and every number
of rounds that loops may make, the folded script makes the same calls, in order, and ends
in the same way as the script does with its bound names in place. -/
theorem folded_script_does_same {context : Context} {flags : Flags} {place : Option Place}
    {statements : List (Child Node)} {folded : Node} {before after : List Diagnostic}
    (plain : Plain context)
    (statementsAre : ∀ statement, statement ∈ statements → IsStatement context statement.node)
    (returned : (Fold.program context (.tree .program flags place statements)).run.run before =
      (.ok folded, after)) (world : World) (rounds : Nat) :
    outcome world [] rounds folded =
      outcome world context.values rounds (.tree .program flags place statements) := by
  have returns : Returns (Fold.program context (.tree .program flags place statements)) folded :=
    ⟨before, after, returned⟩
  rw [Fold.program] at returns
  split at returns
  case isTrue => exact absurd returns not_returns_throw
  case isFalse =>
    obtain ⟨result, walked, returns⟩ := returns.of_bind
    cases result with
    | same node =>
        cases returns.eq_of_pure
        rw [outcome, outcome, foldWithin_program_replaced plain statementsAre walked]
    | «instead» | statements | removed => exact absurd returns not_returns_throw

/-- The statement of the call `callOfName`. -/
def callStatement : Node :=
  .made .exprStmt [callOfName]

/-- A loop that never runs, then a switch that enters its default case and leaves it by a
`break`, both over the name that `bindingTrue` binds. -/
def loopThenSwitch : List Node := [
  .made .whileStmt [.made .unary [.word .op "!", .made .ident [.word .name "b"]], callStatement],
  .made .switchStmt [
    .made .ident [.word .name "b"],
    .made .switchCase [.made .literal [.word .falseWord "false"], callStatement],
    .made .switchCase [
      .absent,
      .made .ifStmt [.made .ident [.word .name "b"], .made .block [callStatement], .absent],
      .made .breakStmt [.absent]]]]

theorem isStatement_callStatement : IsStatement bindingTrue callStatement :=
  .expression isExpression_callOfName

private theorem isStatement_loopThenSwitch (statement : Child Node)
    (there : statement ∈ Node.unseated loopThenSwitch) :
    IsStatement bindingTrue statement.node := by
  simp only [loopThenSwitch, Node.unseated, List.map_cons, List.map_nil, List.mem_cons,
    List.not_mem_nil, or_false] at there
  rcases there with rfl | rfl
  · exact .whileLoop (.unary rfl (.inr rfl) .name) isStatement_callStatement
  · refine .switch .name ?_ ?_
    · intro case isCase
      rcases List.mem_pair.mp isCase with rfl | rfl
      · exact ⟨_, _, _, _, rfl, fun _ => .literal rfl⟩
      · refine ⟨_, _, _, _, rfl, ?_⟩
        intro present
        cases present
    · intro case isCase statement isStatement
      rcases List.mem_pair.mp isCase with rfl | rfl
      · rcases List.mem_singleton.mp isStatement with rfl
        exact isStatement_callStatement
      · rcases List.mem_pair.mp isStatement with rfl | rfl
        · refine .branch .name (.block ?_) ?_
          · intro inner isInner
            rcases List.mem_singleton.mp isInner with rfl
            exact isStatement_callStatement
          · intro present
            cases present
        · exact .plainBreak

theorem loopThenSwitch_does_callStatement :
    Plain bindingTrue ∧
      (Fold.program bindingTrue (.made .program loopThenSwitch)).run.run [] =
        (.ok (.made .program [callStatement]), []) ∧
      (fun world rounds => outcome world [] rounds (.made .program [callStatement])) =
        fun world rounds =>
          outcome world bindingTrue.values rounds (.made .program loopThenSwitch) := by
  have returned : (Fold.program bindingTrue (.made .program loopThenSwitch)).run.run [] =
      (.ok (.made .program [callStatement]), []) := rfl
  refine ⟨plain_bindingTrue, returned, ?_⟩
  funext world rounds
  exact folded_script_does_same plain_bindingTrue isStatement_loopThenSwitch returned world rounds

end Meaning

end ScriptFold
