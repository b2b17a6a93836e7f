import ScriptFold.Proofs.Meaning.Expression

/-!
# What statements do

A reference semantics for statements: expression statements, blocks, branches, loops,
switches and plain `break`.  Running a script is cut off after a number of rounds,
which all its loops share, so that running always ends; a script that is cut off
completes as exhausted.
-/

namespace ScriptFold

namespace Meaning

/-- How running a statement ends. -/
inductive Completion where
  | normal
  | broken
  /-- No rounds were left. -/
  | exhausted
  deriving DecidableEq

/-- Running statements, with the number of rounds that loops may still make. -/
abbrev Exec := StateT Nat Run

/-- How a statement ends that a `break` inside it leaves. -/
def Completion.caught : Completion → Completion
  | .broken => .normal
  | completion => completion

/-- Run something after a statement that ends normally. -/
def andThen (first next : Exec Completion) : Exec Completion := do
  match ← first with
  | .normal => next
  | completion => return completion

def takeRound : Exec Bool := do
  match ← get with
  | 0 => return false
  | left + 1 =>
      set left
      return true

/-- One round of a loop and what comes after it. -/
def round (body next : Exec Completion) : Exec Completion := do
  if ← takeRound then
    match ← body with
    | .normal => next
    | .broken => return .normal
    | .exhausted => return .exhausted
  else return .exhausted

/-- A loop with its test first.  It cannot make more rounds than are left when it is
entered, so that number bounds the recursion. -/
def loop (test : Exec Bool) (body : Exec Completion) : (rounds : Nat) → Exec Completion
  | 0 => do return if ← test then .exhausted else .normal
  | rounds + 1 => do if ← test then round body (loop test body rounds) else return .normal

/-- The case that a value enters, looking from a case on, with the default case met so
far.  The tests are evaluated in order up to the one that matches. -/
def enter (world : World) (bound : Table Value) (value : Value) :
    (default : Option Nat) → (index : Nat) → List (Child Node) → Run (Option Nat)
  | default, _, [] => return default
  | default, index, ⟨_, .tree .switchCase _ _ (⟨_, test⟩ :: _)⟩ :: rest => do
      if test.isAbsent then enter world bound value (some index) (index + 1) rest
      else if Value.strictEquals value (← eval world bound test) then return some index
      else enter world bound value default (index + 1) rest
  | _, _, _ :: _ => throw .malformed

mutual

/-- What a statement does. -/
def exec (world : World) (bound : Table Value) : Node → Exec Completion
  | .absent => return .normal
  | .tree .emptyStmt _ _ _ => return .normal
  | .tree .breakStmt _ _ [⟨_, .absent⟩] => return .broken
  | .tree .exprStmt _ _ [⟨_, expression⟩] => do
      let _ ← (eval world bound expression : Run Value)
      return .normal
  | .tree .program _ _ statements => execAll world bound statements
  | .tree .block _ _ statements => execAll world bound statements
  | .tree .ifStmt _ _ [⟨_, test⟩, ⟨_, consequent⟩, ⟨_, alternate⟩] => do
      if ← (truth (eval world bound test) : Run Bool) then exec world bound consequent
      else exec world bound alternate
  | .tree .whileStmt _ _ [⟨_, test⟩, ⟨_, body⟩] => do
      loop (truth (eval world bound test) : Run Bool) (exec world bound body) (← get)
  | .tree .doWhileStmt _ _ [⟨_, body⟩, ⟨_, test⟩] =>
      round (exec world bound body) do
        loop (truth (eval world bound test) : Run Bool) (exec world bound body) (← get)
  | .tree .switchStmt _ _ (⟨_, discriminant⟩ :: cases) => do
      let value ← (eval world bound discriminant : Run Value)
      match ← (enter world bound value none 0 cases : Run (Option Nat)) with
      | some index => Completion.caught <$> execCases world bound index cases
      | none => return .normal
  | _ => throw .malformed

/-- What some statements do, one after the other. -/
def execAll (world : World) (bound : Table Value) : List (Child Node) → Exec Completion
  | [] => return .normal
  | ⟨_, statement⟩ :: rest => andThen (exec world bound statement) (execAll world bound rest)

/-- What the statements of some cases do, one case after the other, without the first
`skip` cases. -/
def execCases (world : World) (bound : Table Value) :
    (skip : Nat) → List (Child Node) → Exec Completion
  | _, [] => return .normal
  | 0, ⟨_, .tree _ _ _ (_ :: body)⟩ :: rest =>
      andThen (execAll world bound body) (execCases world bound 0 rest)
  | 0, _ :: _ => throw .malformed
  | skip + 1, _ :: rest => execCases world bound skip rest

end

section Equations

variable {world : World} {bound : Table Value} {flags : Flags} {place : Option Place}

theorem enter_nil {value : Value} {default : Option Nat} {index : Nat} :
    enter world bound value default index [] = pure default := rfl

theorem enter_case {value : Value} {default seat : Option Nat} {index : Nat}
    {test : Child Node} {body rest : List (Child Node)} :
    enter world bound value default index
        (⟨seat, .tree .switchCase flags place (test :: body)⟩ :: rest) = (do
      if test.node.isAbsent then enter world bound value (some index) (index + 1) rest
      else if Value.strictEquals value (← eval world bound test.node) then return some index
      else enter world bound value default (index + 1) rest) := rfl

theorem exec_absent : exec world bound .absent = pure .normal := rfl

theorem exec_empty {children : List (Child Node)} :
    exec world bound (.tree .emptyStmt flags place children) = pure .normal := rfl

theorem exec_break {seat : Option Nat} :
    exec world bound (.tree .breakStmt flags place [⟨seat, .absent⟩]) = pure .broken := rfl

theorem exec_expression {expression : Child Node} :
    exec world bound (.tree .exprStmt flags place [expression]) = (do
      let _ ← (eval world bound expression.node : Run Value)
      return .normal) := rfl

theorem exec_program {statements : List (Child Node)} :
    exec world bound (.tree .program flags place statements) = execAll world bound statements :=
  rfl

theorem exec_block {statements : List (Child Node)} :
    exec world bound (.tree .block flags place statements) = execAll world bound statements :=
  rfl

theorem exec_branch {test consequent alternate : Child Node} :
    exec world bound (.tree .ifStmt flags place [test, consequent, alternate]) = (do
      if ← (truth (eval world bound test.node) : Run Bool) then exec world bound consequent.node
      else exec world bound alternate.node) := rfl

theorem exec_while {test body : Child Node} :
    exec world bound (.tree .whileStmt flags place [test, body]) = (do
      loop (truth (eval world bound test.node) : Run Bool) (exec world bound body.node)
        (← get)) := rfl

theorem exec_doWhile {body test : Child Node} :
    exec world bound (.tree .doWhileStmt flags place [body, test]) =
      round (exec world bound body.node) (do
        loop (truth (eval world bound test.node) : Run Bool) (exec world bound body.node)
          (← get)) := rfl

theorem exec_switch {discriminant : Child Node} {cases : List (Child Node)} :
    exec world bound (.tree .switchStmt flags place (discriminant :: cases)) = (do
      let value ← (eval world bound discriminant.node : Run Value)
      match ← (enter world bound value none 0 cases : Run (Option Nat)) with
      | some index => Completion.caught <$> execCases world bound index cases
      | none => return .normal) := rfl

theorem execAll_nil : execAll world bound [] = pure .normal := rfl

theorem execAll_cons (statement : Child Node) (rest : List (Child Node)) :
    execAll world bound (statement :: rest) =
      andThen (exec world bound statement.node) (execAll world bound rest) := rfl

theorem execCases_nil {skip : Nat} : execCases world bound skip [] = pure .normal := by
  cases skip <;> rfl

theorem execCases_zero {kind : Kind} {seat : Option Nat} {test : Child Node}
    {body rest : List (Child Node)} :
    execCases world bound 0 (⟨seat, .tree kind flags place (test :: body)⟩ :: rest) =
      andThen (execAll world bound body) (execCases world bound 0 rest) := rfl

end Equations

/-- How a script ends and the calls it makes, if its loops may make this many rounds. -/
def outcome (world : World) (bound : Table Value) (rounds : Nat) (script : Node) :
    Except Fault Completion × List Event :=
  (Prod.fst <$> (exec world bound script).run rounds).run.run []

/-- A case of a switch: a test or none, then statements. -/
def IsCase (context : Context) (node : Node) : Prop :=
  ∃ flags place test body, node = .tree .switchCase flags place (test :: body) ∧
    (test.node.isAbsent = false → IsExpression context test.node)

/-- The statements that the semantics gives a meaning to. -/
inductive IsStatement (context : Context) : Node → Prop where
  | empty {flags : Flags} {place : Option Place} :
      IsStatement context (.tree .emptyStmt flags place [])
  | plainBreak {flags : Flags} {place : Option Place} {seat : Option Nat} :
      IsStatement context (.tree .breakStmt flags place [⟨seat, .absent⟩])
  | expression {flags : Flags} {place : Option Place} {expression : Child Node}
      (expressionIs : IsExpression context expression.node) :
      IsStatement context (.tree .exprStmt flags place [expression])
  | block {flags : Flags} {place : Option Place} {statements : List (Child Node)}
      (statementsAre : ∀ statement, statement ∈ statements → IsStatement context statement.node) :
      IsStatement context (.tree .block flags place statements)
  | branch {flags : Flags} {place : Option Place} {test consequent alternate : Child Node}
      (testIs : IsExpression context test.node)
      (consequentIs : IsStatement context consequent.node)
      (alternateIs : alternate.node.isAbsent = false → IsStatement context alternate.node) :
      IsStatement context (.tree .ifStmt flags place [test, consequent, alternate])
  | whileLoop {flags : Flags} {place : Option Place} {test body : Child Node}
      (testIs : IsExpression context test.node) (bodyIs : IsStatement context body.node) :
      IsStatement context (.tree .whileStmt flags place [test, body])
  | doWhileLoop {flags : Flags} {place : Option Place} {body test : Child Node}
      (bodyIs : IsStatement context body.node) (testIs : IsExpression context test.node) :
      IsStatement context (.tree .doWhileStmt flags place [body, test])
  | switch {flags : Flags} {place : Option Place} {discriminant : Child Node}
      {cases : List (Child Node)} (discriminantIs : IsExpression context discriminant.node)
      (casesAre : ∀ case, case ∈ cases → IsCase context case.node)
      (bodiesAre : ∀ case, case ∈ cases → ∀ statement, statement ∈ case.node.seated.drop 1 →
        IsStatement context statement.node) :
      IsStatement context (.tree .switchStmt flags place (discriminant :: cases))

end Meaning

end ScriptFold
