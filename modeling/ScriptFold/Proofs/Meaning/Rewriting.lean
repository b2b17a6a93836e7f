import ScriptFold.Proofs.Meaning.Folding
import ScriptFold.Proofs.Meaning.Statement

/-!
# Rewriting keeps what scripts do

If folding a script returns, then the folded script makes the same calls and completes
in the same way as the script did with the bound names in place.  Folding may take
statements apart, leave empty ones out and choose branches and cases; the result of
folding one statement is therefore compared as a list of statements.
-/

namespace ScriptFold

namespace Meaning

open FoldM

section Sequences

variable (world : World) (bound : Table Value)

@[simp] theorem andThen_normal_left (next : Exec Completion) :
    andThen (pure .normal) next = next := by
  simp [andThen]

@[simp] theorem andThen_normal_right (first : Exec Completion) :
    andThen first (pure .normal) = first := by
  refine Eq.trans ?_ (bind_pure first)
  rw [andThen]
  congr 1
  funext completion
  cases completion <;> rfl

private theorem andThen_assoc (first second third : Exec Completion) :
    andThen (andThen first second) third = andThen first (andThen second third) := by
  simp only [andThen, bind_assoc]
  congr 1
  funext completion
  cases completion <;> simp

theorem execAll_append (first second : List (Child Node)) :
    execAll world bound (first ++ second) =
      andThen (execAll world bound first) (execAll world bound second) := by
  induction first with
  | nil => rw [List.nil_append, execAll_nil, andThen_normal_left]
  | cons head tail induction =>
      rw [List.cons_append, execAll_cons, execAll_cons, induction, andThen_assoc]

theorem execAll_singleton (statement : Child Node) :
    execAll world bound [statement] = exec world bound statement.node := by
  rw [execAll_cons, execAll_nil, andThen_normal_right]

/-- What statements do does not depend on their seats. -/
theorem execAll_unseated (statements : List (Child Node)) :
    execAll world bound (Node.unseated (statements.map Child.node)) =
      execAll world bound statements := by
  induction statements with
  | nil => rfl
  | cons head tail induction =>
      rw [execAll_cons, ← induction, List.map_cons, Node.unseated, List.map_cons, execAll_cons]
      rfl

end Sequences

/-- Statements in place of a statement that do the same without the bindings as the
statement did with them. -/
structure Replaced (context : Context) (node : Node) (statements : List Node) : Prop where
  statementsAre : ∀ statement, statement ∈ statements → IsStatement context statement
  meaning : ∀ world, execAll world [] (Node.unseated statements) = exec world context.values node

/-- A statement whose folding keeps what it does. -/
structure Runs (walker : Walker) (node : Node) : Prop where
  statement : IsStatement walker.context node
  walked : ∀ folded, Returns (walker.walk node) folded →
    Replaced walker.context node (Fold.nodesOf folded)

variable {context : Context} {walker : Walker}

theorem IsStatement.isTree {node : Node} (statement : IsStatement context node) :
    ∃ kind flags place children, node = .tree kind flags place children ∧
      kind.isStatement = true ∧ kind ≠ .program := by
  cases statement <;> exact ⟨_, _, _, _, rfl, rfl, nofun⟩

theorem IsStatement.isPresent {node : Node} (statement : IsStatement context node) :
    node.isAbsent = false := by
  obtain ⟨kind, flags, place, children, rfl, _⟩ := statement.isTree
  rfl

theorem eq_absent {node : Node} (absent : node.isAbsent = true) : node = .absent := by
  cases node with
  | absent => rfl
  | leaf | tree => cases absent

theorem Replaced.single {node folded : Node} (statement : IsStatement context folded)
    (meaning : ∀ world, exec world [] folded = exec world context.values node) :
    Replaced context node [folded] := by
  refine ⟨?_, ?_⟩
  · intro other there
    rcases List.mem_singleton.mp there with rfl
    exact statement
  · intro world
    rw [Node.unseated, List.map_singleton, execAll_singleton, meaning]

theorem Replaced.of_same {node folded : Node} (statement : IsStatement context folded)
    (meaning : ∀ world, exec world [] folded = exec world context.values node) :
    Replaced context node (Fold.nodesOf (.same folded)) := by
  rw [Fold.nodesOf, statement.isPresent]
  exact .single statement meaning

/-- What a statement adds to a list of statements does what the statement does. -/
theorem splice_replaced {node : Node} (statement : IsStatement context node) :
    (∀ part, part ∈ Slot.splice node → IsStatement context part) ∧
      ∀ world bound, execAll world bound (Node.unseated (Slot.splice node)) =
        exec world bound node := by
  have whole : ∀ part, part ∈ [node] → IsStatement context part := by
    intro part there
    rcases List.mem_singleton.mp there with rfl
    exact statement
  have same : ∀ world bound, execAll world bound (Node.unseated [node]) =
      exec world bound node := fun world bound => execAll_singleton world bound ⟨none, node⟩
  cases statement with
  | empty =>
      refine ⟨fun part there => ?_, fun world bound => ?_⟩
      · cases there
      · rw [exec_empty]
        rfl
  | @block flags place statements statementsAre =>
      cases statements with
      | nil =>
          refine ⟨fun part there => ?_, fun world bound => ?_⟩
          · cases there
          · rw [exec_block]
            rfl
      | cons first rest => exact ⟨whole, same⟩
  | plainBreak | expression | branch | whileLoop | doWhileLoop | switch => exact ⟨whole, same⟩

theorem spliceAll_replaced {statements : List Node}
    (are : ∀ statement, statement ∈ statements → IsStatement context statement) :
    (∀ part, part ∈ statements.flatMap Slot.splice → IsStatement context part) ∧
      ∀ world bound, execAll world bound (Node.unseated (statements.flatMap Slot.splice)) =
        execAll world bound (Node.unseated statements) := by
  induction statements with
  | nil => exact ⟨fun part there => (by cases there), fun world bound => rfl⟩
  | cons first rest induction =>
      obtain ⟨firstAre, firstSame⟩ := splice_replaced (are first List.mem_cons_self)
      obtain ⟨restAre, restSame⟩ :=
        induction fun other there => are other (List.mem_cons_of_mem _ there)
      rw [List.flatMap_cons]
      refine ⟨?_, ?_⟩
      · intro part there
        rcases List.mem_append.mp there with there | there
        · exact firstAre part there
        · exact restAre part there
      · intro world bound
        have split : Node.unseated (Slot.splice first ++ rest.flatMap Slot.splice) =
            Node.unseated (Slot.splice first) ++ Node.unseated (rest.flatMap Slot.splice) :=
          List.map_append
        rw [split, execAll_append, firstSame, restSame]
        exact (execAll_cons ⟨none, first⟩ _).symm

theorem map_node_unseated (nodes : List Node) :
    (Node.unseated nodes).map Child.node = nodes := by
  simp [Node.unseated, Function.comp_def]

private theorem splice_of_staysWhole {node : Node} (whole : Slot.staysWhole node = true) :
    Slot.splice node = [node] := by
  unfold Slot.staysWhole at whole
  split at whole
  case h_2 => rw [Slot.splice]
  case h_6 => rw [Slot.splice, if_pos whole] <;> assumption
  all_goals cases whole

private theorem spliceFolded_nodes (seat : Option Nat) (folded : Folded) :
    (Slot.spliceFolded seat folded).map Child.node =
      (Fold.nodesOf folded).flatMap Slot.splice := by
  have one : ∀ node, Slot.splice node =
      (if node.isAbsent then [] else [node]).flatMap Slot.splice := by
    intro node
    split
    case isTrue absent =>
      cases node <;> first | rfl | cases absent
    case isFalse => rw [List.flatMap_singleton]
  cases folded with
  | removed => rfl
  | statements nodes => exact map_node_unseated _
  | «instead» node =>
      rw [Slot.spliceFolded, map_node_unseated, Fold.nodesOf, ← one]
  | same node =>
      rw [Slot.spliceFolded, Fold.nodesOf, ← one]
      split
      case isTrue whole => rw [splice_of_staysWhole whole, List.map_singleton]
      case isFalse => exact map_node_unseated _

/-- What a folded statement adds to a list of statements. -/
theorem spliceFolded_replaced {node : Node} {folded : Folded} (seat : Option Nat)
    (replaced : Replaced context node (Fold.nodesOf folded)) :
    (∀ part, part ∈ Slot.spliceFolded seat folded → IsStatement context part.node) ∧
      ∀ world, execAll world [] (Slot.spliceFolded seat folded) =
        exec world context.values node := by
  obtain ⟨are, same⟩ := spliceAll_replaced replaced.statementsAre
  have nodes := spliceFolded_nodes seat folded
  refine ⟨?_, ?_⟩
  · intro part there
    apply are
    rw [← nodes]
    exact List.mem_map_of_mem there
  · intro world
    rw [← execAll_unseated, nodes, same, replaced.meaning]

/-- Folding a list of statements keeps what they do. -/
theorem statements_replaced {statements result : List (Child Node)}
    (runs : ∀ statement, statement ∈ statements → Runs walker statement.node)
    (returns : Returns (Slot.statements walker statements) result) :
    (∀ part, part ∈ result → IsStatement walker.context part.node) ∧
      ∀ world, execAll world [] result = execAll world walker.context.values statements := by
  induction statements generalizing result with
  | nil =>
      cases returns.eq_of_pure
      exact ⟨fun part there => (by cases there), fun world => (by rw [execAll_nil, execAll_nil])⟩
  | cons first rest induction =>
      obtain ⟨folded, walked, returns⟩ := returns.of_bind
      obtain ⟨firstAre, firstSame⟩ := spliceFolded_replaced first.seat
        ((runs first List.mem_cons_self).walked folded walked)
      obtain ⟨others, walked, returns⟩ := returns.of_bind
      obtain ⟨othersAre, othersSame⟩ := induction
        (fun other there => runs other (List.mem_cons_of_mem _ there)) walked
      cases returns.eq_of_pure
      refine ⟨?_, ?_⟩
      · intro part there
        rcases List.mem_append.mp there with there | there
        · exact firstAre part there
        · exact othersAre part there
      · intro world
        rw [execAll_append, execAll_cons, firstSame, othersSame]

theorem single_replaced {statements : List Node}
    (are : ∀ statement, statement ∈ statements → IsStatement context statement) :
    IsStatement context (Slot.single statements) ∧
      ∀ world, exec world [] (Slot.single statements) =
        execAll world [] (Node.unseated statements) := by
  match statements with
  | [] => exact ⟨.empty, fun world => by rw [Slot.single, Node.made, exec_empty]; rfl⟩
  | [node] =>
      exact ⟨are node List.mem_cons_self,
        fun world => (execAll_singleton world [] ⟨none, node⟩).symm⟩
  | first :: second :: rest =>
      refine ⟨.block ?_, fun world => ?_⟩
      · intro statement there
        apply are
        rw [← map_node_unseated (first :: second :: rest)]
        exact List.mem_map_of_mem there
      · change exec world [] (.tree .block {} none _) = _
        rw [exec_block]

private theorem statementOf_node {seat : Option Nat} {outcome : Outcome}
    (statement : IsStatement context outcome.node) :
    (Slot.statementOf seat outcome).node = outcome.node := by
  obtain ⟨kind, flags, place, children, isTree, isStatement, notProgram⟩ := statement.isTree
  have hasKind : outcome.node.kind? = some kind := by
    rw [isTree]
    rfl
  unfold Slot.statementOf
  split
  case h_1 isProgram => exact absurd (Option.some.inj (hasKind.symm.trans isProgram)) notProgram
  case h_2 other _ isOther =>
    cases hasKind.symm.trans isOther
    rw [if_pos isStatement, Outcome.inSeat_node]
  case h_3 isNone => cases hasKind.symm.trans isNone

theorem statementOf_stands {node : Node} {seat : Option Nat} {outcome : Outcome}
    (replaced : Replaced context node
      (if outcome.node.isAbsent then [] else [outcome.node])) :
    IsStatement context (Slot.statementOf seat outcome).node ∧
      ∀ world, exec world [] (Slot.statementOf seat outcome).node =
        exec world context.values node := by
  cases absent : outcome.node.isAbsent with
  | true =>
      rw [absent] at replaced
      have nothing : Slot.statementOf seat outcome = ⟨none, .made .emptyStmt []⟩ := by
        simp [Slot.statementOf, eq_absent absent, Node.kind?, Node.isAbsent]
      rw [nothing]
      refine ⟨.empty, fun world => ?_⟩
      rw [← replaced.meaning, Node.made, exec_empty]
      rfl
  | false =>
      rw [absent] at replaced
      have statement := replaced.statementsAre outcome.node List.mem_cons_self
      rw [statementOf_node statement]
      refine ⟨statement, fun world => ?_⟩
      rw [← replaced.meaning]
      exact (execAll_singleton world [] ⟨none, outcome.node⟩).symm

/-- Folding a statement in the position of one statement keeps what it does. -/
theorem Runs.statement_stands {child result : Child Node} (runs : Runs walker child.node)
    (returns : Returns (Slot.statement walker child) result) :
    IsStatement walker.context result.node ∧
      ∀ world, exec world [] result.node = exec world walker.context.values child.node := by
  rw [Slot.statement, if_neg (by rw [runs.statement.isPresent]; exact Bool.false_ne_true)]
    at returns
  obtain ⟨folded, walked, returns⟩ := returns.of_bind
  have replaced := runs.walked folded walked
  cases folded with
  | removed =>
      cases returns.eq_of_pure
      refine ⟨.empty, fun world => ?_⟩
      rw [← replaced.meaning, Node.made, exec_empty]
      rfl
  | statements nodes =>
      cases returns.eq_of_pure
      obtain ⟨are, same⟩ := spliceAll_replaced replaced.statementsAre
      obtain ⟨statement, meaning⟩ := single_replaced are
      exact ⟨statement, fun world =>
        (meaning world).trans ((same world []).trans (replaced.meaning world))⟩
  | same node =>
      cases returns.eq_of_pure
      exact statementOf_stands replaced
  | «instead» node =>
      cases returns.eq_of_pure
      exact statementOf_stands replaced

/-- Folding a branch keeps what it does, and a branch that is there stays there. -/
theorem branchOf_stands {child result : Child Node}
    (runs : child.node.isAbsent = false → Runs walker child.node)
    (returns : Returns (Control.branchOf walker child) result) :
    (child.node.isAbsent = false → IsStatement walker.context result.node) ∧
      (result.node.isAbsent = false → IsStatement walker.context result.node) ∧
      ∀ world, exec world [] result.node = exec world walker.context.values child.node := by
  cases absent : child.node.isAbsent with
  | true =>
      rw [Control.branchOf, Slot.statement, if_pos absent, ite_self] at returns
      cases returns.eq_of_pure
      refine ⟨nofun, fun present => absurd (present.symm.trans absent) Bool.false_ne_true, ?_⟩
      intro world
      rw [eq_absent absent, exec_absent, exec_absent]
  | false =>
      have runs := runs absent
      rw [Control.branchOf] at returns
      split at returns
      case isTrue isEmpty =>
        cases returns.eq_of_pure
        refine ⟨fun _ => runs.statement, fun _ => runs.statement, fun world => ?_⟩
        obtain ⟨seat, node⟩ := child
        cases runs.statement with
        | empty => rw [exec_empty, exec_empty]
        | _ => cases isEmpty
      case isFalse =>
        obtain ⟨statement, meaning⟩ := runs.statement_stands returns
        exact ⟨fun _ => statement, fun _ => statement, meaning⟩

/-- A chosen branch does the same where it joins the statements around it. -/
theorem unwrapBlock_replaced {node : Node} {folded : Folded}
    (statement : node.isAbsent = false → IsStatement context node)
    (returns : Returns (Slot.unwrapBlock node) folded) :
    (∀ part, part ∈ Fold.nodesOf folded → IsStatement context part) ∧
      ∀ world, execAll world [] (Node.unseated (Fold.nodesOf folded)) = exec world [] node := by
  cases absent : node.isAbsent with
  | true =>
      cases eq_absent absent
      cases returns.eq_of_pure
      refine ⟨fun part there => ?_, fun world => ?_⟩
      · cases there
      · rw [exec_absent]
        rfl
  | false =>
      have statement := statement absent
      have whole : (∀ part, part ∈ [node] → IsStatement context part) ∧
          ∀ world, execAll world [] (Node.unseated [node]) = exec world [] node := by
        refine ⟨fun part there => ?_, fun world => ?_⟩
        · rcases List.mem_singleton.mp there with rfl
          exact statement
        · exact execAll_singleton world [] ⟨none, node⟩
      cases statement with
      | empty =>
          cases returns.eq_of_pure
          refine ⟨fun part there => ?_, fun world => ?_⟩
          · cases there
          · rw [exec_empty]
            rfl
      | @block flags place statements statementsAre =>
          obtain ⟨declares, _, returns⟩ := returns.of_bind
          cases declares with
          | true =>
              cases returns.eq_of_pure
              exact whole
          | false =>
              cases returns.eq_of_pure
              refine ⟨fun part there => ?_, fun world => ?_⟩
              · obtain ⟨child, isChild, rfl⟩ := List.mem_map.mp there
                exact statementsAre child isChild
              · rw [exec_block]
                exact execAll_unseated world [] statements
      | plainBreak | expression | branch | whileLoop | doWhileLoop | switch =>
          cases returns.eq_of_pure
          exact whole

theorem branch_replaced {flags : Flags} {place : Option Place}
    {test consequent alternate : Child Node} {folded : Folded}
    (testKept : Kept walker test.node) (consequentRuns : Runs walker consequent.node)
    (alternateRuns : alternate.node.isAbsent = false → Runs walker alternate.node)
    (returns : Returns (Control.ifStatement walker
      ⟨.ifStmt, flags, place, [test, consequent, alternate]⟩) folded) :
    Replaced walker.context (.tree .ifStmt flags place [test, consequent, alternate])
      (Fold.nodesOf folded) := by
  obtain ⟨test', walked, returns⟩ := returns.of_bind
  have tested := testKept.test_tested walked
  obtain ⟨consequent', walked, returns⟩ := returns.of_bind
  obtain ⟨consequentIs, _, consequentSame⟩ := branchOf_stands (fun _ => consequentRuns) walked
  have consequentIs := consequentIs consequentRuns.statement.isPresent
  obtain ⟨alternate', walked, returns⟩ := returns.of_bind
  obtain ⟨_, alternateIs, alternateSame⟩ := branchOf_stands alternateRuns walked
  obtain ⟨value, read, returns⟩ := returns.of_bind
  have read := read.of_calculate
  cases value with
  | none =>
      cases returns.eq_of_pure
      refine .of_same (.branch tested.expression consequentIs alternateIs) ?_
      intro world
      simp only [exec_branch, tested.truth, consequentSame, alternateSame]
  | some value =>
      have chosenIs : Node.isAbsent
            (if value.isTruthy then consequent'.node else alternate'.node) = false →
          IsStatement walker.context
            (if value.isTruthy then consequent'.node else alternate'.node) := by
        split
        · exact fun _ => consequentIs
        · exact alternateIs
      obtain ⟨are, same⟩ := unwrapBlock_replaced chosenIs returns
      refine ⟨are, fun world => ?_⟩
      rw [same, exec_branch, ← tested.truth, truth_of_value? tested.expression read]
      change _ = (if value.isTruthy = true then exec world walker.context.values consequent.node
        else exec world walker.context.values alternate.node)
      rw [← consequentSame, ← alternateSame]
      split <;> rfl

theorem neverHolds_false {test : Node} {never : Bool} (expression : IsExpression context test)
    (returns : Returns (Control.neverHolds test) never) (holds : never = true) (world : World) :
    truth (eval world [] test) = pure false := by
  obtain ⟨value, read, returns⟩ := returns.of_bind
  have read := read.of_calculate
  cases returns.eq_of_pure
  cases value with
  | none => cases holds
  | some value =>
      have notTruthy : value.isTruthy = false := by simpa using holds
      rw [truth_of_value? expression read, notTruthy]

/-- A loop whose test fails at once does nothing. -/
theorem loop_never (body : Exec Completion) (rounds : Nat) :
    loop (liftM (pure false : Run Bool)) body rounds = pure .normal := by
  cases rounds <;> simp [loop]

theorem whileLoop_replaced {flags : Flags} {place : Option Place} {test body : Child Node}
    {folded : Folded} (testKept : Kept walker test.node) (bodyRuns : Runs walker body.node)
    (returns : Returns (Control.whileLoop walker
      ⟨.whileStmt, flags, place, [test, body]⟩) folded) :
    Replaced walker.context (.tree .whileStmt flags place [test, body])
      (Fold.nodesOf folded) := by
  obtain ⟨child, found, returns⟩ := returns.of_bind
  cases found.of_child rfl
  obtain ⟨test', walked, returns⟩ := returns.of_bind
  have tested := testKept.test_tested walked
  obtain ⟨never, calculated, returns⟩ := returns.of_bind
  cases never with
  | true =>
      cases returns.eq_of_pure
      refine ⟨fun part there => (by cases there), fun world => ?_⟩
      rw [exec_while, ← tested.truth, neverHolds_false tested.expression calculated rfl]
      simp only [loop_never]
      rfl
  | false =>
      obtain ⟨child, found, returns⟩ := returns.of_bind
      cases found.of_child rfl
      obtain ⟨body', walked, returns⟩ := returns.of_bind
      obtain ⟨bodyIs, bodySame⟩ := bodyRuns.statement_stands walked
      cases returns.eq_of_pure
      refine .of_same (.whileLoop tested.expression bodyIs) ?_
      intro world
      simp only [List.set_cons_zero, List.set_cons_succ, exec_while, tested.truth, bodySame]

theorem doWhileLoop_replaced {flags : Flags} {place : Option Place} {body test : Child Node}
    {folded : Folded} (bodyRuns : Runs walker body.node) (testKept : Kept walker test.node)
    (returns : Returns (Control.doWhileLoop walker
      ⟨.doWhileStmt, flags, place, [body, test]⟩) folded) :
    Replaced walker.context (.tree .doWhileStmt flags place [body, test])
      (Fold.nodesOf folded) := by
  obtain ⟨child, found, returns⟩ := returns.of_bind
  cases found.of_child rfl
  obtain ⟨body', walked, returns⟩ := returns.of_bind
  obtain ⟨bodyIs, bodySame⟩ := bodyRuns.statement_stands walked
  obtain ⟨child, found, returns⟩ := returns.of_bind
  cases found.of_child rfl
  obtain ⟨test', walked, returns⟩ := returns.of_bind
  have tested := testKept.test_tested walked
  cases returns.eq_of_pure
  refine .of_same (.doWhileLoop bodyIs tested.expression) ?_
  intro world
  simp only [List.set_cons_zero, List.set_cons_succ, exec_doWhile, tested.truth, bodySame]

end Meaning

end ScriptFold
