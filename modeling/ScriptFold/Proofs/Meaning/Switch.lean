import Mathlib.Data.List.Forall2
import ScriptFold.Proofs.Meaning.Rewriting

/-!
# Folding of switches

A switch over a known value is replaced by the statements it runs.  Two things have to
be right for that: the case it enters, which is found by the folded tests, and the
`break` that ends it, which is looked for in statements that are not folded yet.
-/

namespace ScriptFold

theorem FoldM.Returns.of_mapM {α β : Type} {step : α → FoldM β} {items : List α}
    {results : List β} (returns : FoldM.Returns (items.mapM step) results) :
    List.Forall₂ (fun item result => FoldM.Returns (step item) result) items results := by
  induction items generalizing results with
  | nil =>
      cases returns.eq_of_pure
      exact .nil
  | cons item rest induction =>
      rw [List.mapM_cons] at returns
      obtain ⟨first, stepped, returns⟩ := returns.of_bind
      obtain ⟨others, mapped, returns⟩ := returns.of_bind
      cases returns.eq_of_pure
      exact .cons stepped (induction mapped)

namespace Meaning

open FoldM

variable {context : Context} {walker : Walker}

/-- Running something never ends in a `break` of the construct around it. -/
def Stays (run : Exec Completion) : Prop :=
  Completion.caught <$> run = run

theorem stays_normal : Stays (pure .normal) :=
  map_pure _ _

theorem stays_caught (run : Exec Completion) : Stays (Completion.caught <$> run) := by
  rw [Stays, Functor.map_map]
  congr 1
  funext completion
  cases completion <;> rfl

theorem stays_bind {α : Type} {first : Exec α} {next : α → Exec Completion}
    (stays : ∀ value, Stays (next value)) : Stays (first >>= next) := by
  rw [Stays, map_bind]
  congr 1
  funext value
  exact stays value

/-- A `break` in the second of two runs leaves both. -/
theorem Stays.caught_andThen {first : Exec Completion} (stays : Stays first)
    (next : Exec Completion) :
    Completion.caught <$> andThen first next = andThen first (Completion.caught <$> next) := by
  rw [← stays]
  simp only [andThen, map_bind, bind_map_left]
  congr 1
  funext completion
  cases completion <;> simp [Completion.caught]

theorem Stays.andThen {first next : Exec Completion} (firstStays : Stays first)
    (nextStays : Stays next) : Stays (andThen first next) := by
  rw [Stays, firstStays.caught_andThen, nextStays]

theorem stays_round {body next : Exec Completion} (nextStays : Stays next) :
    Stays (round body next) := by
  refine stays_bind fun taken => ?_
  cases taken with
  | false => exact map_pure _ _
  | true =>
      refine stays_bind fun completion => ?_
      cases completion with
      | normal => exact nextStays
      | broken | exhausted => exact map_pure _ _

theorem stays_loop (test : Exec Bool) (body : Exec Completion) (rounds : Nat) :
    Stays (loop test body rounds) := by
  induction rounds with
  | zero =>
      refine stays_bind fun holds => ?_
      cases holds <;> exact map_pure _ _
  | succ rounds induction =>
      refine stays_bind fun holds => ?_
      cases holds with
      | false => exact map_pure _ _
      | true => exact stays_round induction

theorem stays_execAll {world : World} {bound : Table Value} {statements : List (Child Node)}
    (stays : ∀ statement, statement ∈ statements → Stays (exec world bound statement.node)) :
    Stays (execAll world bound statements) := by
  induction statements with
  | nil =>
      rw [execAll_nil]
      exact stays_normal
  | cons first rest induction =>
      rw [execAll_cons]
      exact (stays first List.mem_cons_self).andThen
        (induction fun other there => stays other (List.mem_cons_of_mem _ there))

theorem leaves_of_mem {statement : Child Node} {statements : List (Child Node)}
    (none : Switch.anyLeaves statements = false) (there : statement ∈ statements) :
    Switch.leaves statement.node = false := by
  induction statements with
  | nil => cases there
  | cons first rest induction =>
      rw [Switch.anyLeaves, Bool.or_eq_false_iff] at none
      cases there with
      | head => exact none.1
      | tail _ there => exact induction none.2 there

/-- A statement without a `break` that leaves it never ends in one. -/
theorem stays_of_leaves {node : Node} (statement : IsStatement context node)
    (notLeaves : Switch.leaves node = false) (world : World) (bound : Table Value) :
    Stays (exec world bound node) := by
  induction statement with
  | empty =>
      rw [exec_empty]
      exact stays_normal
  | plainBreak => cases notLeaves
  | expression =>
      rw [exec_expression]
      exact stays_bind fun _ => stays_normal
  | @block flags place statements statementsAre induction =>
      have noneLeaves : Switch.anyLeaves statements = false := notLeaves
      rw [exec_block]
      exact stays_execAll fun statement there =>
        induction statement there (leaves_of_mem noneLeaves there)
  | @branch flags place test consequent alternate testIs consequentIs alternateIs
      consequentInduction alternateInduction =>
      have noneLeaves : Switch.anyLeaves [test, consequent, alternate] = false := notLeaves
      have consequentStays := consequentInduction (leaves_of_mem noneLeaves (by simp))
      have alternateStays : Stays (exec world bound alternate.node) := by
        cases absent : alternate.node.isAbsent with
        | true =>
            rw [eq_absent absent, exec_absent]
            exact stays_normal
        | false => exact alternateInduction absent (leaves_of_mem noneLeaves (by simp))
      rw [exec_branch]
      refine stays_bind fun holds => ?_
      cases holds with
      | true => exact consequentStays
      | false => exact alternateStays
  | whileLoop =>
      rw [exec_while]
      exact stays_bind fun rounds => stays_loop _ _ rounds
  | doWhileLoop =>
      rw [exec_doWhile]
      exact stays_round (stays_bind fun rounds => stays_loop _ _ rounds)
  | switch =>
      rw [exec_switch]
      refine stays_bind fun value => stays_bind fun entry => ?_
      cases entry with
      | none => exact stays_normal
      | some index => exact stays_caught _

/-- The planned statements do what the statements up to a `break` do. -/
theorem plan_runs {nodes planned : List Node}
    (statementsAre : ∀ node, node ∈ nodes → IsStatement context node)
    (isPlan : Switch.plan nodes = .ok (some planned)) :
    (∀ node, node ∈ planned → node ∈ nodes) ∧
      ∀ world bound, Completion.caught <$> execAll world bound (Node.unseated nodes) =
        execAll world bound (Node.unseated planned) := by
  induction nodes generalizing planned with
  | nil =>
      cases isPlan
      refine ⟨fun node there => there, fun world bound => ?_⟩
      exact (stays_execAll fun statement there => by cases there)
  | cons node rest induction =>
      have statement := statementsAre node List.mem_cons_self
      simp only [Switch.plan] at isPlan
      split at isPlan
      case isTrue isBreak =>
        cases statement with
        | plainBreak =>
            cases isPlan
            refine ⟨fun node there => (by cases there), fun world bound => ?_⟩
            simp [Node.unseated, execAll_cons, exec_break, andThen, Completion.caught, execAll_nil]
        | _ => cases isBreak
      case isFalse =>
        split at isPlan
        case isTrue => cases isPlan
        case isFalse notLeaves =>
          obtain ⟨others, isPlanned, isPlan⟩ := Calculation.of_bind_eq_ok isPlan
          cases others with
          | none => cases isPlan
          | some others =>
              cases isPlan
              obtain ⟨among, same⟩ := induction
                (fun other there => statementsAre other (List.mem_cons_of_mem _ there)) isPlanned
              refine ⟨fun other there => ?_, fun world bound => ?_⟩
              · cases there with
                | head => exact List.mem_cons_self
                | tail _ there => exact List.mem_cons_of_mem _ (among other there)
              · have stays := stays_of_leaves statement (Bool.eq_false_iff.mpr notLeaves)
                  world bound
                have split : ∀ tail, execAll world bound (Node.unseated (node :: tail)) =
                    andThen (exec world bound node) (execAll world bound (Node.unseated tail)) :=
                  fun tail => execAll_cons ⟨none, node⟩ _
                rw [split, split, stays.caught_andThen, same]

/-- The statements of the cases from one on. -/
def bodiesFrom (index : Nat) (cases : List (Child Node)) : List Node :=
  (cases.drop index).flatMap fun case => case.node.children.drop 1

theorem execCases_eq {cases : List (Child Node)} (casesAre : ∀ case, case ∈ cases →
    IsCase context case.node) (index : Nat) (world : World) (bound : Table Value) :
    execCases world bound index cases =
      execAll world bound (Node.unseated (bodiesFrom index cases)) := by
  induction cases generalizing index with
  | nil => simp [execCases_nil, bodiesFrom, Node.unseated, execAll_nil]
  | cons case rest induction =>
      obtain ⟨seat, node⟩ := case
      obtain ⟨flags, place, test, body, isCase, _⟩ := casesAre _ List.mem_cons_self
      have isCase : node = .tree .switchCase flags place (test :: body) := isCase
      have induction := induction fun other there => casesAre other (List.mem_cons_of_mem _ there)
      cases isCase
      cases index with
      | succ index => exact induction index
      | zero =>
          have split : Node.unseated (bodiesFrom 0
                (⟨seat, .tree .switchCase flags place (test :: body)⟩ :: rest)) =
              Node.unseated (body.map Child.node) ++ Node.unseated (bodiesFrom 0 rest) := by
            simp [bodiesFrom, Node.unseated, Node.children, Node.seated]
          rw [execCases_zero, split, execAll_append, execAll_unseated, induction]

/-- The folded test of a case, if there is one. -/
def TestKept (context : Context) (test folded : Node) : Prop :=
  (test.isAbsent = true ∧ folded.isAbsent = true) ∨
    (test.isAbsent = false ∧ folded.isAbsent = false ∧ Preserved context test folded)

inductive CaseRuns (walker : Walker) : Child Node → Prop where
  | mk {seat : Option Nat} {flags : Flags} {place : Option Place} {test : Child Node}
      {body : List (Child Node)} (testKept : test.node.isAbsent = false → Kept walker test.node)
      (bodyRuns : ∀ statement, statement ∈ body → Runs walker statement.node) :
      CaseRuns walker ⟨seat, .tree .switchCase flags place (test :: body)⟩

/-- A case with the same test, whose body may be another one. -/
inductive SameTest (context : Context) : Child Node → Child Node → Prop where
  | mk {seat seat' : Option Nat} {flags flags' : Flags} {place place' : Option Place}
      {test test' : Child Node} {body body' : List (Child Node)}
      (tests : TestKept context test.node test'.node) :
      SameTest context ⟨seat, .tree .switchCase flags place (test :: body)⟩
        ⟨seat', .tree .switchCase flags' place' (test' :: body')⟩

/-- A case whose test is folded. -/
inductive TestFolded (walker : Walker) : Child Node → Child Node → Prop where
  | mk {seat : Option Nat} {flags : Flags} {place : Option Place} {test test' : Child Node}
      {body : List (Child Node)} (tests : TestKept walker.context test.node test'.node)
      (bodyRuns : ∀ statement, statement ∈ body → Runs walker statement.node) :
      TestFolded walker ⟨seat, .tree .switchCase flags place (test :: body)⟩
        ⟨seat, .tree .switchCase flags place (test' :: body)⟩

inductive CaseFolded (context : Context) : Child Node → Child Node → Prop where
  | mk {seat : Option Nat} {flags : Flags} {place : Option Place} {test test' : Child Node}
      {body body' : List (Child Node)} (tests : TestKept context test.node test'.node)
      (bodyIs : ∀ statement, statement ∈ body' → IsStatement context statement.node)
      (meaning : ∀ world, execAll world [] body' = execAll world context.values body) :
      CaseFolded context ⟨seat, .tree .switchCase flags place (test :: body)⟩
        ⟨seat, .tree .switchCase flags place (test' :: body')⟩

theorem foldTest_folded {case folded : Child Node} (runs : CaseRuns walker case)
    (returns : Returns (Switch.foldTest walker case) folded) :
    TestFolded walker case folded := by
  cases runs with
  | @mk seat flags place test body testKept bodyRuns =>
      obtain ⟨test', walked, returns⟩ := returns.of_bind
      cases returns.eq_of_pure
      refine .mk ?_ bodyRuns
      cases absent : test.node.isAbsent with
      | true =>
          rw [Slot.expression, if_pos absent] at walked
          cases walked.eq_of_pure
          exact .inl ⟨absent, absent⟩
      | false =>
          have preserved := (testKept absent).expression_preserved walked
          obtain ⟨kind, flags, place, children, isTree, _⟩ := preserved.expression.isTree
          exact .inr ⟨absent, by rw [isTree]; rfl, preserved⟩

theorem foldBody_folded {case tested folded : Child Node}
    (testFolded : TestFolded walker case tested)
    (returns : Returns (Switch.foldBody walker tested) folded) :
    CaseFolded walker.context case folded := by
  cases testFolded with
  | mk tests bodyRuns =>
      obtain ⟨body', walked, returns⟩ := returns.of_bind
      obtain ⟨bodyIs, meaning⟩ := statements_replaced bodyRuns walked
      cases returns.eq_of_pure
      exact .mk tests bodyIs meaning

theorem TestFolded.sameTest {case folded : Child Node} (testFolded : TestFolded walker case folded) :
    SameTest walker.context case folded := by
  cases testFolded with
  | mk tests bodyRuns => exact .mk tests

theorem CaseFolded.sameTest {case folded : Child Node} (caseFolded : CaseFolded context case folded) :
    SameTest context case folded := by
  cases caseFolded with
  | mk tests bodyIs meaning => exact .mk tests

/-- A value enters the same case by the folded tests. -/
theorem enter_same {cases folded : List (Child Node)}
    (sameTests : List.Forall₂ (SameTest context) cases folded) (world : World) (value : Value)
    (default : Option Nat) (index : Nat) :
    enter world [] value default index folded =
      enter world context.values value default index cases := by
  induction sameTests generalizing default index with
  | nil => rw [enter_nil, enter_nil]
  | cons same rest induction =>
      cases same with
      | mk tests =>
          rcases tests with ⟨absent, absent'⟩ | ⟨present, present', preserved⟩
          · simp only [enter_case, absent, absent', if_true, induction]
          · simp only [enter_case, present, present', preserved.meaning, induction]

/-- A case that is known to be entered is the one that is entered. -/
theorem entryFrom_enters {cases folded : List (Child Node)}
    (sameTests : List.Forall₂ (SameTest context) cases folded) {value : Value}
    {default : Option Nat} {index : Nat} {entry : Switch.Entry}
    (returns : Returns (Switch.entryFrom value default index folded) entry) :
    entry = .unknown ∨
      ∃ entered : Option Nat, entry = (entered.map Switch.Entry.case).getD .nothing ∧
        ∀ world, enter world [] value default index folded = pure entered := by
  induction sameTests generalizing default index with
  | nil =>
      refine .inr ⟨default, returns.eq_of_pure, fun world => ?_⟩
      rw [enter_nil]
  | cons same rest induction =>
      cases same with
      | @mk seat seat' flags flags' place place' test test' body body' tests =>
          have isTest : Node.child (.tree .switchCase flags' place' (test' :: body')) 0 =
              test'.node := rfl
          rw [Switch.entryFrom] at returns
          simp only [isTest] at returns
          rcases tests with ⟨absent, absent'⟩ | ⟨present, present', preserved⟩
          · simp only [absent', if_true] at returns
            simpa only [enter_case, absent', if_true] using induction returns
          · simp only [present'] at returns
            obtain ⟨known, read, returns⟩ := returns.of_bind
            have read := read.of_calculate
            cases known with
            | none => exact .inl returns.eq_of_pure
            | some known =>
                have evaluated := fun world => eval_of_value? preserved.expression read world []
                simp only at returns
                split at returns
                case isTrue matched =>
                  refine .inr ⟨some index, returns.eq_of_pure, fun world => ?_⟩
                  simp [enter_case, present', evaluated, matched]
                case isFalse notMatched =>
                  simpa [enter_case, present', evaluated, notMatched] using induction returns

theorem exists_of_mem_right {α β : Type} {related : α → β → Prop} {items : List α}
    {results : List β} {result : β} (all : List.Forall₂ related items results)
    (there : result ∈ results) : ∃ item, item ∈ items ∧ related item result := by
  induction all with
  | nil => cases there
  | @cons item first items results isRelated rest induction =>
      cases there with
      | head => exact ⟨item, List.mem_cons_self, isRelated⟩
      | tail _ there =>
          obtain ⟨other, isThere, isRelated⟩ := induction there
          exact ⟨other, List.mem_cons_of_mem _ isThere, isRelated⟩

theorem foldTests_folded {cases tested : List (Child Node)}
    (casesRun : ∀ case, case ∈ cases → CaseRuns walker case)
    (steps : List.Forall₂ (fun case folded => Returns (Switch.foldTest walker case) folded)
      cases tested) :
    List.Forall₂ (TestFolded walker) cases tested := by
  induction steps with
  | nil => exact .nil
  | cons step rest induction =>
      exact .cons (foldTest_folded (casesRun _ List.mem_cons_self) step)
        (induction fun case there => casesRun case (List.mem_cons_of_mem _ there))

theorem foldBodies_folded {cases tested folded : List (Child Node)}
    (testsFolded : List.Forall₂ (TestFolded walker) cases tested)
    (steps : List.Forall₂ (fun case folded => Returns (Switch.foldBody walker case) folded)
      tested folded) :
    List.Forall₂ (CaseFolded walker.context) cases folded := by
  induction testsFolded generalizing folded with
  | nil =>
      cases steps
      exact .nil
  | cons testFolded rest induction =>
      cases steps with
      | cons step others => exact .cons (foldBody_folded testFolded step) (induction others)

private theorem execCases_same {cases folded : List (Child Node)}
    (casesFolded : List.Forall₂ (CaseFolded context) cases folded) (world : World)
    (index : Nat) :
    execCases world [] index folded = execCases world context.values index cases := by
  induction casesFolded generalizing index with
  | nil => rw [execCases_nil, execCases_nil]
  | cons caseFolded rest induction =>
      cases caseFolded with
      | mk tests bodyIs meaning =>
          cases index with
          | zero => rw [execCases_zero, execCases_zero, meaning, induction]
          | succ index => exact induction index

/-- A switch that keeps its cases does the same with the folded ones. -/
theorem switch_kept {flags : Flags} {place : Option Place}
    {discriminant discriminant' : Child Node} {cases folded : List (Child Node)}
    (preserved : Preserved context discriminant.node discriminant'.node)
    (casesFolded : List.Forall₂ (CaseFolded context) cases folded) :
    Replaced context (.tree .switchStmt flags place (discriminant :: cases))
      (Fold.nodesOf (.same (.tree .switchStmt flags place (discriminant' :: folded)))) := by
  have sameTests : List.Forall₂ (SameTest context) cases folded :=
    casesFolded.imp fun _ _ => CaseFolded.sameTest
  refine .of_same (.switch preserved.expression ?_ ?_) fun world => ?_
  · intro case there
    obtain ⟨_, _, caseFolded⟩ := exists_of_mem_right casesFolded there
    cases caseFolded with
    | mk tests bodyIs meaning =>
        refine ⟨_, _, _, _, rfl, fun present => ?_⟩
        rcases tests with ⟨_, absent⟩ | ⟨_, _, preserved⟩
        · exact absurd (present.symm.trans absent) Bool.false_ne_true
        · exact preserved.expression
  · intro case there statement isStatement
    obtain ⟨_, _, caseFolded⟩ := exists_of_mem_right casesFolded there
    cases caseFolded with
    | mk tests bodyIs meaning => exact bodyIs statement isStatement
  · simp only [exec_switch, preserved.meaning, enter_same sameTests, execCases_same casesFolded]

/-- The statements that a switch is replaced by. -/
theorem chosen_replaced {nodes : List Node} {folded : Folded}
    (statementsAre : ∀ node, node ∈ nodes → IsStatement context node)
    (isChosen : Switch.chosen nodes = .ok folded) :
    (∀ node, node ∈ Fold.nodesOf folded → IsStatement context node) ∧
      ∀ world, execAll world [] (Node.unseated (Fold.nodesOf folded)) =
        execAll world [] (Node.unseated nodes) := by
  simp only [Switch.chosen] at isChosen
  split at isChosen
  case isTrue isEmpty =>
    cases isChosen
    cases List.isEmpty_iff.mp isEmpty
    exact ⟨statementsAre, fun world => rfl⟩
  case isFalse =>
    obtain ⟨declares, _, isChosen⟩ := Calculation.of_bind_eq_ok isChosen
    cases declares with
    | true =>
        cases isChosen
        refine ⟨fun node there => ?_, fun world => ?_⟩
        · rcases List.mem_singleton.mp there with rfl
          refine .block fun statement isStatement => statementsAre statement.node ?_
          rw [← map_node_unseated nodes]
          exact List.mem_map_of_mem isStatement
        · refine (execAll_singleton world [] ⟨none, .made .block nodes⟩).trans ?_
          rw [Node.made, exec_block]
    | false =>
        cases isChosen
        exact ⟨statementsAre, fun world => rfl⟩

/-- Folding the tests of cases leaves their statements as they are. -/
theorem bodiesFrom_runs {cases tested : List (Child Node)}
    (testsFolded : List.Forall₂ (TestFolded walker) cases tested) (index : Nat) :
    bodiesFrom index tested = bodiesFrom index cases ∧
      ∀ node, node ∈ bodiesFrom index tested → Runs walker node := by
  induction testsFolded generalizing index with
  | nil => exact ⟨rfl, fun node there => (by simp [bodiesFrom] at there)⟩
  | cons testFolded rest induction =>
      cases index with
      | succ index => exact induction index
      | zero =>
          obtain ⟨same, runs⟩ := induction 0
          cases testFolded with
          | mk tests bodyRuns =>
              simp only [bodiesFrom, List.drop_zero, List.flatMap_cons, Node.children,
                Node.seated, List.map_cons, List.drop_succ_cons] at same runs ⊢
              refine ⟨congrArg _ same, fun node there => ?_⟩
              rcases List.mem_append.mp there with there | there
              · obtain ⟨statement, isStatement, rfl⟩ := List.mem_map.mp there
                exact bodyRuns statement isStatement
              · exact runs node there

theorem CaseRuns.isCase {case : Child Node} (runs : CaseRuns walker case) :
    IsCase walker.context case.node := by
  cases runs with
  | mk testKept bodyRuns => exact ⟨_, _, _, _, rfl, fun present => (testKept present).expression⟩

/-- A switch whose discriminant and tests are known runs the statements of a case. -/
theorem exec_switch_known {flags : Flags} {place : Option Place}
    {discriminant discriminant' : Child Node} {cases tested : List (Child Node)} {value : Value}
    {entered : Option Nat} (preserved : Preserved context discriminant.node discriminant'.node)
    (read : Literal.value? discriminant'.node = .ok (some value))
    (sameTests : List.Forall₂ (SameTest context) cases tested)
    (enters : ∀ world, enter world [] value none 0 tested = pure entered) (world : World) :
    exec world context.values (.tree .switchStmt flags place (discriminant :: cases)) =
      entered.elim (pure .normal) fun index =>
        Completion.caught <$> execCases world context.values index cases := by
  rw [exec_switch, ← preserved.meaning, eval_of_value? preserved.expression read]
  simp only [liftM_pure, pure_bind, ← enter_same sameTests, enters]
  cases entered <;> rfl

/-- The statements that are planned for a known case, once they are folded. -/
theorem planned_replaced {node : Node} {cases tested statements : List (Child Node)}
    {planned : List Node} {index : Nat} {folded : Folded}
    (casesAre : ∀ case, case ∈ cases → IsCase walker.context case.node)
    (testsFolded : List.Forall₂ (TestFolded walker) cases tested)
    (meaning : ∀ world, exec world walker.context.values node =
      Completion.caught <$> execCases world walker.context.values index cases)
    (isPlan : Switch.plan (bodiesFrom index tested) = .ok (some planned))
    (walked : Returns (Slot.statements walker (Node.unseated planned)) statements)
    (isChosen : Switch.chosen (statements.map Child.node) = .ok folded) :
    Replaced walker.context node (Fold.nodesOf folded) := by
  obtain ⟨sameBodies, runs⟩ := bodiesFrom_runs testsFolded index
  obtain ⟨among, planRuns⟩ := plan_runs (fun node there => (runs node there).statement) isPlan
  have plannedRun : ∀ statement, statement ∈ Node.unseated planned →
      Runs walker statement.node := by
    intro statement there
    obtain ⟨node, isPlanned, rfl⟩ := List.mem_map.mp there
    exact runs node (among node isPlanned)
  obtain ⟨statementsAre, sameStatements⟩ := statements_replaced plannedRun walked
  have nodesAre : ∀ node, node ∈ statements.map Child.node →
      IsStatement walker.context node := by
    intro node there
    obtain ⟨statement, isStatement, rfl⟩ := List.mem_map.mp there
    exact statementsAre statement isStatement
  obtain ⟨are, chosenSame⟩ := chosen_replaced nodesAre isChosen
  refine ⟨are, fun world => ?_⟩
  calc
    execAll world [] (Node.unseated (Fold.nodesOf folded))
      = execAll world [] statements := by rw [chosenSame, execAll_unseated]
    _ = execAll world walker.context.values (Node.unseated planned) := sameStatements world
    _ = Completion.caught <$>
          execAll world walker.context.values (Node.unseated (bodiesFrom index tested)) :=
        (planRuns world walker.context.values).symm
    _ = Completion.caught <$> execCases world walker.context.values index cases := by
        rw [sameBodies, execCases_eq casesAre]
    _ = exec world walker.context.values node := (meaning world).symm

theorem switch_replaced {flags : Flags} {place : Option Place} {discriminant : Child Node}
    {cases : List (Child Node)} {folded : Folded}
    (discriminantKept : Kept walker discriminant.node)
    (casesRun : ∀ case, case ∈ cases → CaseRuns walker case)
    (returns : Returns (Switch.fold walker
      ⟨.switchStmt, flags, place, discriminant :: cases⟩) folded) :
    Replaced walker.context (.tree .switchStmt flags place (discriminant :: cases))
      (Fold.nodesOf folded) := by
  obtain ⟨discriminant', walked, returns⟩ := returns.of_bind
  have preserved := discriminantKept.expression_preserved walked
  obtain ⟨tested, mapped, returns⟩ := returns.of_bind
  have testsFolded := foldTests_folded casesRun mapped.of_mapM
  have kept : Returns (do
      return Branch.keep ⟨.switchStmt, flags, place, discriminant :: cases⟩
        (discriminant' :: (← tested.mapM (Switch.foldBody walker)))) folded →
      Replaced walker.context (.tree .switchStmt flags place (discriminant :: cases))
        (Fold.nodesOf folded) := by
    intro returns
    obtain ⟨others, mapped, returns⟩ := returns.of_bind
    cases returns.eq_of_pure
    exact switch_kept preserved (foldBodies_folded testsFolded mapped.of_mapM)
  obtain ⟨value, read, returns⟩ := returns.of_bind
  have read := read.of_calculate
  cases value with
  | none => exact kept returns
  | some value =>
      obtain ⟨entry, isEntry, returns⟩ := returns.of_bind
      have sameTests : List.Forall₂ (SameTest walker.context) cases tested :=
        testsFolded.imp fun _ _ => TestFolded.sameTest
      rcases entryFrom_enters sameTests isEntry with rfl | ⟨entered, rfl, enters⟩
      · exact kept returns
      · have meaning : ∀ world, exec world walker.context.values
            (.tree .switchStmt flags place (discriminant :: cases)) = _ :=
          exec_switch_known preserved read sameTests enters
        cases entered with
        | none =>
            cases returns.eq_of_pure
            refine ⟨fun node there => (by cases there), fun world => ?_⟩
            rw [meaning]
            exact execAll_nil
        | some index =>
            obtain ⟨planned, isPlan, returns⟩ := returns.of_bind
            have isPlan := isPlan.of_calculate
            cases planned with
            | none => exact kept returns
            | some planned =>
                obtain ⟨statements, walked, returns⟩ := returns.of_bind
                exact planned_replaced (fun case there => (casesRun case there).isCase) testsFolded
                  meaning isPlan walked returns.of_calculate

end Meaning

end ScriptFold
