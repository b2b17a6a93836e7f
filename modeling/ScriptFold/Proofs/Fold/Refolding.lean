import ScriptFold.Evaluate
import ScriptFold.Fault
import ScriptFold.Proofs.Meaning.Switch

/-!
# Folding what was folded

Evaluating a script that was evaluated already need not leave it as it is.  Whether a
switch over a known value stays is decided by its statements before they are folded.  If a
`break` that cannot be followed goes away with the folding, the switch is kept by one fold
and taken apart by the next.
-/

namespace ScriptFold

open FoldM (Returns)

/-- Evaluating what a script evaluates to gives the same text again. -/
def EvaluatesStably (host : Host) (bindings : Bindings) (options : Options) (text : Text) :
    Prop :=
  ∀ printed, (evaluate host bindings options text).result = .ok printed →
    ∃ again, (evaluate host bindings options printed.code).result = .ok again ∧
      again.code = printed.code

namespace Switch

/-- Folding leaves a child in the position of an expression as it is. -/
def Settled (walker : Walker) (child : Child Node) : Prop :=
  Slot.expression walker child = pure child

/-- A case whose test stays as it is. -/
inductive TestSettled (walker : Walker) : Child Node → Prop where
  | mk {seat : Option Nat} {kind : Kind} {flags : Flags} {place : Option Place}
      {test : Child Node} {body : List (Child Node)} (settled : Settled walker test) :
      TestSettled walker ⟨seat, .tree kind flags place (test :: body)⟩

/-- A switch whose discriminant and tests stay as they are and are known, so that it enters a
case. -/
structure Enters (walker : Walker) (discriminant : Child Node) (cases : List (Child Node))
    (value : Value) (index : Nat) : Prop where
  settled : Settled walker discriminant
  tests : ∀ case, case ∈ cases → TestSettled walker case
  known : Literal.value? discriminant.node = .ok (some value)
  entry : entryFrom value none 0 cases = pure (.case index)

variable {walker : Walker} {discriminant : Child Node} {cases folded : List (Child Node)}
  {value : Value} {index : Nat} {flags : Flags} {place : Option Place}

private theorem foldTest_settled {case : Child Node} (settled : TestSettled walker case) :
    foldTest walker case = pure case := by
  cases settled with
  | mk settled =>
      rw [Settled] at settled
      simp only [foldTest, settled, pure_bind]

private theorem foldTests_settled (tests : ∀ case, case ∈ cases → TestSettled walker case) :
    cases.mapM (foldTest walker) = pure cases := by
  induction cases with
  | nil => rfl
  | cons case rest induction =>
      have first := foldTest_settled (tests case List.mem_cons_self)
      have later := induction fun other there => tests other (List.mem_cons_of_mem _ there)
      simp only [List.mapM_cons, first, later, pure_bind]

/-- Only the plan for the statements as they stand is left to decide. -/
theorem fold_of_enters (enters : Enters walker discriminant cases value index) :
    fold walker ⟨.switchStmt, flags, place, discriminant :: cases⟩ =
      (do
        match ← FoldM.calculate (plan (Meaning.bodiesFrom index cases)) with
        | none =>
            let bodies ← cases.mapM (foldBody walker)
            return .same (.tree .switchStmt flags place (discriminant :: bodies))
        | some nodes =>
            let statements ← Slot.statements walker (Node.unseated nodes)
            FoldM.calculate (chosen (statements.map Child.node))) := by
  have settled : Slot.expression walker discriminant = pure discriminant := enters.settled
  have known : Slot.valueOf discriminant.node = pure (some value) := by
    rw [Slot.valueOf, enters.known]
    rfl
  simp only [fold, settled, foldTests_settled enters.tests, known, enters.entry, pure_bind]
  rfl

/-- The statements that are chosen never count as the switch itself. -/
theorem chosen_ne_same {nodes : List Node} {result : Folded}
    (isChosen : chosen nodes = .ok result) (node : Node) : result ≠ .same node := by
  unfold chosen at isChosen
  split at isChosen
  case isTrue =>
    cases isChosen
    exact nofun
  case isFalse =>
    obtain ⟨declares, _, isChosen⟩ := Calculation.of_bind_eq_ok isChosen
    cases declares <;> cases isChosen <;> exact nofun

/-- A switch that enters a case stays if and only if there is no plan for its statements. -/
theorem stays_iff (enters : Enters walker discriminant cases value index) {result : Folded}
    (returns : Returns (fold walker ⟨.switchStmt, flags, place, discriminant :: cases⟩) result) :
    (∃ node, result = .same node) ↔ plan (Meaning.bodiesFrom index cases) = .ok none := by
  rw [fold_of_enters enters] at returns
  obtain ⟨planned, isPlan, returns⟩ := returns.of_bind
  rw [isPlan.of_calculate]
  cases planned with
  | none =>
      obtain ⟨bodies, _, returns⟩ := returns.of_bind
      cases returns.eq_of_pure
      exact ⟨fun _ => rfl, fun _ => ⟨_, rfl⟩⟩
  | some nodes =>
      obtain ⟨statements, _, returns⟩ := returns.of_bind
      constructor
      · rintro ⟨node, isSame⟩
        exact absurd isSame (chosen_ne_same returns.of_calculate node)
      · intro isNone
        cases isNone

/-- Folding the body of a case leaves its test as it is. -/
theorem foldBody_test {case other : Child Node} (returns : Returns (foldBody walker case) other)
    (settled : TestSettled walker case) :
    TestSettled walker other ∧ other.node.child 0 = case.node.child 0 := by
  cases settled with
  | mk settled =>
      obtain ⟨body, _, returns⟩ := returns.of_bind
      cases returns.eq_of_pure
      exact ⟨.mk settled, rfl⟩

/-- Which case is entered depends on the tests only. -/
theorem entryFrom_congr
    (sameTests : List.Forall₂ (fun case other => other.node.child 0 = case.node.child 0)
      cases folded) (default : Option Nat) (index : Nat) :
    entryFrom value default index folded = entryFrom value default index cases := by
  induction sameTests generalizing default index with
  | nil => rfl
  | cons same _ induction =>
      simp only [entryFrom, same, induction]

/-- Folding the bodies of the cases leaves the case that is entered. -/
theorem Enters.foldBodies (enters : Enters walker discriminant cases value index)
    (bodies : List.Forall₂ (fun case other => Returns (foldBody walker case) other)
      cases folded) : Enters walker discriminant folded value index := by
  have tests := enters.tests
  have kept : (∀ case, case ∈ folded → TestSettled walker case) ∧
      List.Forall₂ (fun case other => other.node.child 0 = case.node.child 0) cases folded := by
    clear enters
    induction bodies with
    | nil => exact ⟨nofun, .nil⟩
    | cons returns _ induction =>
        obtain ⟨settled, same⟩ := foldBody_test returns (tests _ List.mem_cons_self)
        obtain ⟨others, sameTests⟩ :=
          induction fun case there => tests case (List.mem_cons_of_mem _ there)
        refine ⟨fun case there => ?_, .cons same sameTests⟩
        rcases List.mem_cons.mp there with rfl | there
        · exact settled
        · exact others case there
  exact ⟨enters.settled, kept.1, enters.known, (entryFrom_congr kept.2 _ _).trans enters.entry⟩

/-- A switch without a plan is kept with its bodies folded.  The next fold keeps it if and only
if the folded statements have no plan either. -/
theorem refold_stays_iff (enters : Enters walker discriminant cases value index)
    (unplanned : plan (Meaning.bodiesFrom index cases) = .ok none)
    (bodies : Returns (cases.mapM (foldBody walker)) folded) :
    Returns (fold walker ⟨.switchStmt, flags, place, discriminant :: cases⟩)
        (.same (.tree .switchStmt flags place (discriminant :: folded))) ∧
      ∀ again,
        Returns (fold walker ⟨.switchStmt, flags, place, discriminant :: folded⟩) again →
          ((∃ node, again = .same node) ↔
            plan (Meaning.bodiesFrom index folded) = .ok none) := by
  constructor
  · obtain ⟨before, after, runs⟩ := bodies
    refine ⟨before, after, ?_⟩
    have kept : fold walker ⟨.switchStmt, flags, place, discriminant :: cases⟩ =
        (do
          let bodies ← cases.mapM (foldBody walker)
          return .same (.tree .switchStmt flags place (discriminant :: bodies))) := by
      rw [fold_of_enters enters, unplanned]
      rfl
    simp only [kept, ExceptT.run_bind, StateT.run_bind, runs]
    rfl
  · intro again returns
    exact stays_iff (enters.foldBodies bodies.of_mapM) returns

/-- A fold without bindings. -/
def unboundWalker : Walker :=
  let context : Context := ⟨Host.none, [], [], [], [], 100⟩
  let expand := Fold.expandWith (Fold.foldWithin 99)
  ⟨context, expand context, Fold.walkAt context expand 10⟩

/-- The literal `1`. -/
def one : Child Node :=
  ⟨none, .made .literal [.word .number "1"]⟩

/-- The statement `f();`. -/
def callStatement : Node :=
  .made .exprStmt [.made .call [.made .ident [.word .name "f"], .made .args []]]

/-- The statement `if (false) break;`. -/
def neverBreaks : Node :=
  .made .ifStmt [.made .literal [.word .falseWord "false"], .made .breakStmt [.absent], .absent]

/-- A case of the literal `1`. -/
def caseOfOne (body : List Node) : Child Node :=
  ⟨none, .made .switchCase (one.node :: body)⟩

private theorem caseOfOne_enters (body : List Node) :
    Enters unboundWalker one [caseOfOne body] (.num (.int 1)) 0 := by
  refine ⟨rfl, fun case there => ?_, by rfl, rfl⟩
  rcases List.mem_singleton.mp there with rfl
  exact .mk rfl

/-- A `break` that never runs keeps the switch around it once, and only once. -/
theorem neverBreaks_refolded :
    ∃ kept again,
      Returns (fold unboundWalker ⟨.switchStmt, {}, none,
        [one, caseOfOne [neverBreaks, callStatement]]⟩) (.same kept) ∧
      kept = .tree .switchStmt {} none [one, caseOfOne [callStatement]] ∧
      Returns (fold unboundWalker ⟨.switchStmt, {}, none, [one, caseOfOne [callStatement]]⟩)
        again ∧
      ¬ ∃ node, again = .same node := by
  have bodies : Returns ([caseOfOne [neverBreaks, callStatement]].mapM (foldBody unboundWalker))
      [caseOfOne [callStatement]] := ⟨[], [], rfl⟩
  have unplanned : plan (Meaning.bodiesFrom 0 [caseOfOne [neverBreaks, callStatement]]) =
      .ok none := rfl
  have both := @refold_stays_iff unboundWalker one _ _ _ 0 {} none (caseOfOne_enters _)
    unplanned bodies
  have second : Returns (fold unboundWalker ⟨.switchStmt, {}, none,
      [one, caseOfOne [callStatement]]⟩) (.statements [callStatement]) := ⟨[], [], rfl⟩
  refine ⟨_, _, both.1, rfl, second, fun stays => ?_⟩
  have planned := (both.2 _ second).mp stays
  cases planned

end Switch

/-- A switch with a `break` that never runs. -/
def neverBreaksSwitch : Text :=
  Text.ofString "switch (1) \x7b case 1: if (false) break; f(); \x7d"

private theorem neverBreaksSwitch_codes :
    (evaluate Host.none {} {} neverBreaksSwitch).result.toOption.map Printed.code =
        some (Text.ofString "switch (1) \x7b case 1: f(); \x7d") ∧
      (evaluate Host.none {} {}
          (Text.ofString "switch (1) \x7b case 1: f(); \x7d")).result.toOption.map Printed.code =
        some (Text.ofString "f();") := by
  decide +kernel

theorem neverBreaksSwitch_not_stable :
    ¬ EvaluatesStably Host.none {} {} neverBreaksSwitch := by
  intro stable
  obtain ⟨once, twice⟩ := neverBreaksSwitch_codes
  obtain ⟨printed, isPrinted, isCode⟩ := Option.map_eq_some_iff.mp once
  obtain ⟨again, isAgain, sameCode⟩ := stable printed (Calculation.eq_ok_of_toOption isPrinted)
  rw [← isCode, isAgain] at twice
  have different : again.code = Text.ofString "f();" := Option.some.inj twice
  rw [sameCode, isCode] at different
  exact absurd different (by decide +kernel)

end ScriptFold
