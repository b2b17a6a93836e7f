import ScriptFold.Evaluate
import ScriptFold.Proofs.Shape.Program
import ScriptFold.Proofs.Whole.Chain
import ScriptFold.Proofs.Whole.Control
import ScriptFold.Proofs.Whole.Printing
import ScriptFold.Proofs.Whole.Script

/-!
# Evaluating whole programs

Every step folds whole trees safely, and so do the folds of whole programs, of fragments and of
what templates expand to.  What they are folded to is whole again and can be printed.  With
functions that have answers, templates and fragments of text, evaluating a script therefore ends
with a text, with an error of the script, with a slip or at the end of the stack.
-/

namespace ScriptFold

open Calculation (Slips slips_ok)
open FoldM (Safe)

variable {walker : Walker} {node former : Node} {nodes : List Node} {child : Child Node}
variable {kind : Kind} {flags : Flags} {place : Option Place} {children : List (Child Node)}

/-- A context whose host answers and whose fragments are whole; its macros are templates. -/
structure Context.IsSafe (context : Context) : Prop where
  answers : context.host.IsTotal
  fragments : ∀ entry, entry ∈ context.fragments → entry.2.Whole
  templates : ∀ entry, entry ∈ context.macros → ∃ text, entry.2 = .template text

namespace Fold

/-! ### Steps -/

theorem expressionStatement_safe (safe : walker.IsSafe)
    (whole : (Node.tree .exprStmt flags place children).Whole) :
    Safe (expressionStatement walker ⟨.exprStmt, flags, place, children⟩)
      (FoldsWhole (.tree .exprStmt flags place children)) := by
  obtain ⟨child, -, isChild, childIs, -⟩ :=
    whole.branch (show Kind.exprStmt.needs 0 = true from rfl)
  have put : ∀ {inner : Child Node}, inner.node.Whole →
      FoldsWhole (.tree .exprStmt flags place children)
      (Branch.keep ⟨.exprStmt, flags, place, children⟩ (children.set 0 inner)) :=
    fun innerIs => .keep (whole.set rfl 0 innerIs rfl)
  unfold expressionStatement
  rw [isChild, pure_bind]
  apply (safe.walk _ childIs).bind
  intro folded folds
  have foldedIs := folds.whole
  cases folded
  case removed => exact .of_pure (.of_isNew trivial rfl)
  case statements => exact .of_pure (.of_isNew foldedIs rfl)
  case' same =>
    dsimp only
    split
    · exact .of_pure (.of_isNew trivial rfl)
  case' «instead» => dsimp only
  -- What is left, the same node or another, stands in the statement or takes its place.
  all_goals
    split
    case h_1 isKind =>
      apply (Safe.of_childAt foldedIs isKind rfl).bind
      intro inner innerIs
      exact .of_pure (put (show (Child.mk none inner).node.Whole from innerIs))
    case h_2 =>
      split
      · exact .of_pure (.of_isNew foldedIs rfl)
      · exact .of_pure (put (Operation.inSeat_whole foldedIs))
    case h_3 => exact .of_pure (put (Operation.inSeat_whole foldedIs))

private theorem exportDefault_safe (safe : walker.IsSafe)
    (whole : (Node.tree .exportDefault flags place children).Whole) :
    Safe (exportDefault walker ⟨.exportDefault, flags, place, children⟩)
      (FoldsWhole (.tree .exportDefault flags place children)) := by
  obtain ⟨child, -, isChild, childIs, -⟩ :=
    whole.branch (show Kind.exportDefault.needs 0 = true from rfl)
  unfold exportDefault
  rw [isChild, pure_bind]
  have folds : Safe (if child.node.isOneOf [.functionDecl, .classDecl]
      then Slot.anyNode walker child
      else Slot.expression walker child) fun result => result.node.Whole := by
    split
    case isTrue isCallable =>
      obtain ⟨kind, there, isKind⟩ := kind?_of_isOneOf isCallable
      have steady : ∀ kind, kind ∈ [Kind.functionDecl, .classDecl] → kind.isSteady = true :=
        by decide
      have isSteady := (isSteady_of_kind isKind).trans (steady kind there)
      exact (Slot.anyNode_safe safe childIs isSteady).mono fun _ is => is.1
    case isFalse => exact (Slot.expression_safe safe childIs).mono fun _ refolds => refolds.whole
  apply folds.either
  intro exported exportedIs
  exact .of_pure (.keep (whole.set rfl 0 exportedIs rfl))

theorem passthrough_safe (safe : walker.IsSafe)
    (whole : (Node.tree kind flags place children).Whole)
    (isPassthrough : kind.category? = some .passthrough) :
    Safe (passthrough walker ⟨kind, flags, place, children⟩)
      (FoldsWhole (.tree kind flags place children)) := by
  cases kind <;> cases isPassthrough
  case exprStmt => exact expressionStatement_safe safe whole
  case paren => exact Operation.foldParen_safe safe whole
  case template => exact Operation.foldTemplate_safe safe whole
  case taggedTemplate => exact Operation.foldTagged_safe safe whole
  case exportDefault => exact exportDefault_safe safe whole
  case exportDecl =>
    obtain ⟨child, -, isChild, childIs, fits⟩ :=
      whole.branch (show Kind.exportDecl.needs 0 = true from rfl)
    unfold passthrough
    dsimp only
    rw [isChild, pure_bind]
    apply (Callable.anyNode_safe safe childIs (fun _ => rfl) fits).bind
    rintro exported ⟨exportedIs, exportedFits⟩
    exact .of_pure (.keep (whole.set rfl 0 exportedIs exportedFits))
  case labeledStmt =>
    obtain ⟨body, -, isBody, bodyIs, -⟩ :=
      whole.branch (show Kind.labeledStmt.needs 1 = true from rfl)
    unfold passthrough
    dsimp only
    rw [isBody, pure_bind]
    apply (Slot.statement_safe safe bodyIs).bind
    intro newBody newBodyIs
    exact .of_pure (.keep (whole.set rfl 1 newBodyIs rfl))
  all_goals exact Slot.everyChild_safe safe whole rfl fun _ _ => rfl

theorem compound_safe (safe : walker.IsSafe) (whole : (Node.tree kind flags place children).Whole)
    (isCompound : kind.category? = some .compound) :
    Safe (compound walker ⟨kind, flags, place, children⟩)
      (FoldsWhole (.tree kind flags place children)) := by
  have shape : Printer.listHead? kind = none ∧
      ∀ index node, kind.takes index node = node.isSteady := by
    cases kind <;> cases isCompound <;> exact ⟨rfl, fun _ _ => rfl⟩
  obtain ⟨noList, takes⟩ := shape
  refine Safe.bind
    (Slot.steadyChildren_safe whole noList takes fun child childIs steady => ?_) ?_
  · split
    · exact .of_pure ⟨childIs, rfl⟩
    · exact Slot.anyNode_safe safe childIs steady
  · intro results resultsAre
    exact .of_pure (.keep resultsAre)

theorem step_safe (safe : walker.IsSafe) (whole : (Node.tree kind flags place children).Whole) :
    Safe (step walker ⟨kind, flags, place, children⟩)
      (FoldsWhole (.tree kind flags place children)) := by
  unfold step
  dsimp only
  split
  case h_1 =>
    apply Safe.of_report.bind
    intro _ _
    exact .of_pure (.keep whole)
  case h_2 => exact .of_pure (.keep whole)
  case h_3 is => exact passthrough_safe safe whole is
  case h_4 is => exact Slot.statementList_safe safe whole is
  case h_5 is =>
    cases kind <;> cases is
    exact Operation.foldBinary_safe safe whole
  case h_6 is =>
    cases kind <;> cases is
    exact Target.foldUnary_safe safe whole
  case h_7 is =>
    cases kind <;> cases is
    exact Operation.foldLogical_safe safe whole
  case h_8 is =>
    cases kind <;> cases is
    · exact Control.ifStatement_safe safe whole
    · exact Control.conditional_safe safe whole
  case h_9 is => exact Control.loop_safe safe whole is
  case h_10 is =>
    cases kind <;> cases is
    exact Switch.fold_safe safe whole
  case h_11 is =>
    cases kind <;> cases is
    exact Name.fold_safe safe whole
  case h_12 is =>
    cases kind <;> cases is
    · exact Chain.call_safe safe whole (.inl rfl)
    · exact Chain.call_safe safe whole (.inr rfl)
  case h_13 is =>
    cases kind <;> cases is
    · exact Chain.member_safe safe whole (.inl rfl)
    · exact Chain.member_safe safe whole (.inr rfl)
  case h_14 is =>
    cases kind <;> cases is
    · exact Target.foldAssign_safe safe whole
    · exact Target.foldUpdate_safe safe whole (.inl rfl)
    · exact Target.foldUpdate_safe safe whole (.inr rfl)
  case h_15 is => exact Callable.declaration_safe safe whole is
  case h_16 is => exact Callable.fold_safe safe whole is
  case h_17 is => exact Aggregate.fold_safe safe whole is
  case h_18 is =>
    have steady : kind.isSteady = true := by rw [Kind.isSteady, is]
    exact Aggregate.foldPattern_safe safe whole steady
  case h_19 is => exact compound_safe safe whole is

/-! ### Walks -/

/-- A way to expand calls of macros that is safe for whole calls. -/
def ExpandsSafely (context : Context) (expand : Expander) : Prop :=
  ∀ call name, call.toNode.Whole → call.kind = .call ∨ call.kind = .newExpr →
    Safe (expand context call name) (FoldsWhole call.toNode)

variable {context : Context} {expand : Expander}

private theorem walkAt_safe (safe : context.IsSafe) (expands : ExpandsSafely context expand)
    {levels : Nat}
    (whole : node.Whole) : Safe (walkAt context expand levels node) (FoldsWhole node) := by
  have same : ∀ {node : Node}, node.Whole → FoldsWhole node (.same node) := by
    intro node whole
    refine ⟨whole, ?_, fun _ => ⟨node, rfl⟩⟩
    intro other isSame
    cases isSame
    rfl
  induction levels generalizing node with
  | zero =>
      cases node <;> exact .of_pure (same whole)
  | succ levels induction =>
      cases node with
      | absent | leaf => exact .of_pure (same whole)
      | tree kind flags place children =>
          rw [walkAt]
          apply Safe.locating
          have walker : Walker.IsSafe ⟨context, expand context, walkAt context expand levels⟩ :=
            ⟨safe.answers, safe.fragments, fun _ inner => induction inner, expands⟩
          exact step_safe walker whole

theorem walk_safe (safe : context.IsSafe) (expands : ExpandsSafely context expand)
    (whole : node.Whole) : Safe (walk context expand node) (FoldsWhole node) :=
  walkAt_safe safe expands whole

/-! ### Templates -/

theorem argumentsOf_safe {call : Branch} (whole : call.toNode.Whole)
    (isCall : call.kind = .call ∨ call.kind = .newExpr) :
    Safe (argumentsOf call) fun args => ∀ node, node ∈ args → node.Whole := by
  obtain ⟨kind, flags, place, children⟩ := call
  have shape : kind.needs 1 = true ∧
      ∀ node, kind.takes 1 node = (node.isKind .args || node.isAbsent) := by
    obtain rfl | rfl := isCall <;> exact ⟨rfl, fun _ => rfl⟩
  obtain ⟨needs, takes⟩ := shape
  obtain ⟨⟨seat, args⟩, -, isChild, argsAre, fits⟩ := whole.branch needs
  unfold argumentsOf
  rw [isChild, pure_bind]
  cases args with
  | absent => exact .of_pure nofun
  | leaf =>
      rw [takes] at fits
      cases fits
  | tree inner innerFlags innerPlace parts =>
      apply Safe.of_pure
      rw [List.forall_mem_map]
      exact fun part there => (argsAre.all part there).copy

theorem rootOf_whole {folded : Folded} (whole : node.Whole) (foldedIs : folded.Whole) :
    (rootOf node folded).Whole := by
  cases folded with
  | same | «instead» => exact foldedIs
  | statements | removed => exact whole

theorem asStatements_isNew (whole : node.Whole) : (asStatements node).IsNew := by
  have children := whole.children
  unfold asStatements
  split
  · trivial
  · rename_i single isSingle
    rw [isSingle, List.forall_mem_singleton] at children
    have alone : ∀ other, other ∈ [single] → other.Whole := by
      rw [List.forall_mem_singleton]
      exact children
    split
    · split
      · exact children
      · exact alone
    · exact alone
  · exact children

theorem parse_safe (source : Source) : Safe (FoldM.parse source) fun tree =>
    tree.Whole ∧ tree.isKind .program = true := by
  unfold FoldM.parse
  cases read : parseScript source with
  | ok tree => exact .of_pure (parseScript_whole read)
  | error failure =>
      cases failure with
      | lexical | parse => exact .of_throw trivial

/-- A way to fold that is safe for whole nodes in safe contexts. -/
def FoldsSafely (fold : Context → Node → FoldM Folded) : Prop :=
  ∀ {context : Context} {node : Node}, context.IsSafe → node.Whole →
    Safe (fold context node) (FoldsWhole node)

variable {fold : Context → Node → FoldM Folded} {name template : Text} {args : List Node}

private theorem expandTemplate_safe (folds : FoldsSafely fold) (safe : context.IsSafe)
    (areWhole : ∀ node, node ∈ args → node.Whole) :
    Safe (expandTemplate fold context name template args) Folded.IsNew := by
  apply (parse_safe _).bind
  rintro program ⟨programIs, _⟩
  have bound : Context.IsSafe
      { context with fragments := context.fragments.insertAll (numbered 0 args) } := by
    refine ⟨safe.answers, ?_, safe.templates⟩
    intro entry there
    rcases Table.mem_insertAll there with there | there
    · exact areWhole entry.2 (mem_numbered there)
    · exact safe.fragments entry there
  apply (folds bound programIs).bind
  intro first firstIs
  have firstRoot := rootOf_whole programIs firstIs.whole
  apply (folds safe firstRoot).bind
  intro second secondIs
  exact .of_pure (asStatements_isNew (rootOf_whole firstRoot secondIs.whole))

private theorem expandWith_safe (folds : FoldsSafely fold) (safe : context.IsSafe) :
    ExpandsSafely context (expandWith fold) := by
  intro call name whole isCall
  have notSteady : call.toNode.isSteady = false := by
    show Option.all _ (some call.kind) = false
    obtain isKind | isKind := isCall <;> rw [isKind] <;> rfl
  unfold expandWith
  split
  case h_1 => exact .of_pure (.keep whole)
  case h_2 =>
    apply (argumentsOf_safe whole isCall).bind
    intro args argsAre
    exact (expandTemplate_safe folds safe argsAre).mono fun _ isNew => .of_isNew isNew notSteady
  case h_3 found =>
    obtain ⟨text, isText⟩ := safe.templates _ (Table.mem_of_lookup found)
    cases isText

/-! ### Programs -/

theorem foldWithin_safe (depth : Nat) : FoldsSafely (foldWithin depth) := by
  induction depth with
  | zero =>
      intro context node safe whole
      exact walk_safe safe (fun _ _ _ _ => .of_fail) whole
  | succ depth induction =>
      intro context node safe whole
      exact walk_safe safe (expandWith_safe induction safe) whole

private theorem program_safe (safe : context.IsSafe) (whole : node.Whole)
    (isProgram : node.isKind .program = true) : Safe (program context node) Node.Whole := by
  unfold program
  split
  case isTrue =>
    have slip : Slip .tooLarge := by decide
    exact .of_throw (.inl slip)
  case isFalse =>
    apply (foldWithin_safe _ safe whole).bind
    intro folded folds
    obtain ⟨root, rfl⟩ := folds.stays (isSteady_of_kind (beq_iff_eq.mp isProgram))
    exact .of_pure folds.whole

theorem programOnStack_safe {context : Context} (safe : context.IsSafe) (whole : node.Whole)
    (isProgram : node.isKind .program = true) : Safe (programOnStack context node) Node.Whole := by
  unfold programOnStack
  split
  · exact program_safe safe whole isProgram
  · exact .of_throw (.inr rfl)

end Fold

/-! ### Evaluation -/

namespace Evaluate

variable {host : Host} {bindings : Bindings} {depthLimit : Int}

private theorem prepareText_safe {name text : Text} (total : host.IsTotal) :
    Safe (prepareText host depthLimit name text) Node.Whole := by
  apply (Fold.parse_safe _).bind
  rintro tree ⟨treeIs, isProgram⟩
  exact Fold.programOnStack_safe ⟨total, nofun, nofun⟩ treeIs isProgram

private theorem prepareAll_safe {fragments : Table FragmentBinding} (total : host.IsTotal)
    (texts : AreTexts fragments) :
    Safe (prepareAll host depthLimit fragments) fun table =>
      ∀ entry, entry ∈ table → entry.2.Whole := by
  induction fragments with
  | nil => exact .of_pure nofun
  | cons entry rest induction =>
      rw [AreTexts, List.forall_mem_cons] at texts
      obtain ⟨name, binding⟩ := entry
      obtain ⟨text, rfl⟩ := texts.1
      apply (prepareText_safe total).bind
      intro node nodeIs
      apply (induction texts.2).bind
      intro table tableIs
      exact .of_pure (List.forall_mem_cons.mpr ⟨nodeIs, tableIs⟩)

private theorem tree_safe {source : Source} (total : host.IsTotal)
    (templates : AreTemplates bindings.macros) (texts : AreTexts bindings.fragments) :
    Safe (tree host bindings depthLimit source) Node.Whole := by
  have prepared : Safe (prepare host bindings depthLimit) fun context =>
      context.IsSafe ∧ context.depthLimit = depthLimit := by
    apply (prepareAll_safe total texts).bind
    intro fragments areWhole
    exact .of_pure ⟨⟨total, areWhole, templates⟩, rfl⟩
  apply prepared.bind
  rintro context ⟨safe, rfl⟩
  apply (Fold.parse_safe source).bind
  rintro node ⟨nodeIs, isProgram⟩
  exact Fold.programOnStack_safe safe nodeIs isProgram

end Evaluate

/-- The failures of an evaluation are errors of the script, slips and the end of the stack. -/
theorem evaluate_fails_safely {host : Host} {bindings : Bindings} {options : Options} {text : Text}
    {failure : Failure} (total : host.IsTotal) (templates : AreTemplates bindings.macros)
    (texts : AreTexts bindings.fragments)
    (fails : (evaluate host bindings options text).result = .error failure) :
    failure.IsAllowed := by
  let step : FoldM Printed := do
    let tree ← Evaluate.tree host bindings options.depthLimit ⟨text, options.sourceName, .script⟩
    FoldM.attempt (printTree tree options.sourceName options.mapName)
  have safe : FoldM.Safe step fun _ => True := by
    apply (Evaluate.tree_safe total templates texts).bind
    intro tree whole
    rcases printTree_whole whole options.sourceName options.mapName with
      ⟨printed, isPrinted⟩ | exhausted
    · rw [isPrinted]
      exact .of_pure trivial
    · rw [exhausted]
      exact .of_throw (.inr rfl)
  have ends := safe []
  have isFailure : (step.run.run []).1 = .error failure := fails
  rw [isFailure] at ends
  exact ends

/-- A host whose functions all give nothing. -/
def silentHost : Host :=
  ⟨fun _ _ => .ok .undefined, fun _ _ => .error .host⟩

/-- A prefix without digits is read as a number, and folding the sum slips. -/
theorem barePrefix_slips :
    (evaluate silentHost {} {} "0x + 1;").result = .error (.fault .malformed) ∧
      Failure.IsAllowed (.fault .malformed) := by
  have total : silentHost.IsTotal := fun _ _ => ⟨.undefined, rfl⟩
  have fails : (match (evaluate silentHost {} {} "0x + 1;").result with
      | .error failure => decide (failure = .fault .malformed)
      | .ok _ => false) = true := by
    decide +kernel
  split at fails
  case h_1 failure isFailure =>
    have same := of_decide_eq_true fails
    rw [same] at isFailure
    have templates : AreTemplates ({} : Bindings).macros := by simp [AreTemplates]
    have texts : AreTexts ({} : Bindings).fragments := by simp [AreTexts]
    exact ⟨isFailure, evaluate_fails_safely total templates texts isFailure⟩
  case h_2 => cases fails

end ScriptFold
