import ScriptFold.Proofs.Fold.Depth
import ScriptFold.Proofs.Fold.Sight

/-!
# Writes to what is known

A write is refused if its target is a name that is bound to a value, or a member of an object of
which folding sees a value.  A target may stand in parentheses and in patterns of any depth.  A
member of an object of which nothing is seen is let through, although the chain may begin at a
value.  That no program reaches a refused write and is folded nevertheless is said by watching:
whatever would be done on reaching such a write, a program is folded the same, or it fails.
-/

namespace ScriptFold

open FoldM (Returns Succeeds Refused Stops)

namespace Target

open Chain (Seen Sight Sees)

variable {walker : Walker}

/-! ### Targets that are known -/

/-- A name that is bound to a value, or a member of an object of which something is seen. -/
inductive Known (walker : Walker) : Node → Prop where
  | name {kind : Kind} {flags : Flags} {place : Option Place} {children : List (Child Node)}
      {name : Text} : (kind = .ident ∨ kind = .binding) →
      Name.of? (.tree kind flags place children) = some name →
      walker.context.values.binds name = true → walker.context.fragments.binds name = false →
      Known walker (.tree kind flags place children)
  | access {kind : Kind} {flags : Flags} {place : Option Place} {object : Child Node}
      {rest : List (Child Node)} {seen : Seen} : (kind = .member ∨ kind = .subscript) →
      Sees walker object.node seen → seen ≠ .folded (.shown none) →
      Known walker (.tree kind flags place (object :: rest))

/-- What a target without patterns writes to. -/
inductive Bare (part : Node) : Node → Prop where
  | here : Bare part part
  | paren {flags : Flags} {place : Option Place} {inner : Child Node} {rest : List (Child Node)} :
      Bare part inner.node → Bare part (.tree .paren flags place (inner :: rest))

/-- What a target writes to, at any depth of its patterns. -/
inductive Covers (part : Node) : Node → Prop where
  | here : Covers part part
  | paren {flags : Flags} {place : Option Place} {inner : Child Node} {rest : List (Child Node)} :
      Covers part inner.node → Covers part (.tree .paren flags place (inner :: rest))
  | array {flags : Flags} {place : Option Place} {elements : List (Child Node)}
      {element : Child Node} : element ∈ elements → Covers part element.node →
      Covers part (.tree .arrayPattern flags place elements)
  | object {flags : Flags} {place : Option Place} {properties : List (Child Node)}
      {property : Child Node} : property ∈ properties → Covers part property.node →
      Covers part (.tree .objectPattern flags place properties)
  | property {flags : Flags} {place : Option Place} {key target : Child Node}
      {rest : List (Child Node)} : Covers part target.node →
      Covers part (.tree .patternProperty flags place (key :: target :: rest))
  | default {flags : Flags} {place : Option Place} {target : Child Node}
      {rest : List (Child Node)} : Covers part target.node →
      Covers part (.tree .assignPattern flags place (target :: rest))
  | rest {flags : Flags} {place : Option Place} {target : Child Node}
      {rest : List (Child Node)} : Covers part target.node →
      Covers part (.tree .rest flags place (target :: rest))

theorem Bare.covers {part target : Node} (bare : Bare part target) : Covers part target := by
  induction bare with
  | here => exact .here
  | paren _ induction => exact .paren induction

section Access

variable {cause : FoldError} {kind : Kind} {flags : Flags} {place : Option Place}
  {object : Child Node} {rest : List (Child Node)} {seen : Seen}

/-- A member of an object of which something is seen is not written to. -/
theorem member_refused (steps : walker.Steps) (sees : Sees walker object.node seen)
    (visible : seen ≠ .folded (.shown none)) :
    Refused (member walker cause ⟨kind, flags, place, object :: rest⟩) := by
  have first : Branch.child ⟨kind, flags, place, object :: rest⟩ 0 = pure object := rfl
  have present := Chain.isAbsent_of_sees sees
  simp only [member, first, pure_bind]
  match seen with
  | .bound value =>
      simp only [Chain.value?_of_sees sees nofun, pure_bind]
      exact Refused.of_fail.bind
  | .folded .refused =>
      have folds : Refused (Slot.expression walker object) :=
        (Chain.walk_of_sees steps sees rfl).expression present
      exact Chain.refused_of_sees sees folds.bind
  | .folded (.shown none) => exact absurd rfl visible
  | .folded (.shown (some value)) =>
      simp only [Chain.value?_of_sees sees nofun, pure_bind]
      apply Succeeds.refused ((Chain.walk_of_sees steps sees rfl).expression present)
      intro child shows
      have isConstant : Literal.isConstant child.node = .ok true := by
        rw [Literal.isConstant, shows.known]
        rfl
      simp only [isConstant, FoldM.calculate, pure_bind, if_true]
      exact Refused.of_fail.bind

/-- A member of an object of which nothing is seen is let through. -/
theorem member_kept (steps : walker.Steps) (sees : Sees walker object.node (.folded (.shown none)))
    (keyFolds : kind = .subscript → ∃ key, rest.head? = some key ∧
      Succeeds (Slot.expression walker key) fun _ => True) :
    Succeeds (member walker cause ⟨kind, flags, place, object :: rest⟩) fun _ => True := by
  have first : Branch.child ⟨kind, flags, place, object :: rest⟩ 0 = pure object := rfl
  have folds := (Chain.walk_of_sees steps sees rfl).expression (Chain.isAbsent_of_sees sees)
  simp only [member, first, pure_bind, Chain.value?_of_sees sees nofun]
  apply Succeeds.bind folds
  intro child shows
  have notConstant : Literal.isConstant child.node = .ok false := by
    rw [Literal.isConstant, shows.known]
    rfl
  simp only [notConstant, FoldM.calculate, pure_bind]
  by_cases isSubscript : kind = .subscript
  · obtain ⟨key, isKey, keySucceeds⟩ := keyFolds isSubscript
    have second : Branch.child ⟨kind, flags, place, object :: rest⟩ 1 = pure key := by
      cases rest with
      | nil => cases isKey
      | cons head tail =>
          cases isKey
          rfl
    simp only [isSubscript, if_true] at second ⊢
    simp only [second, pure_bind]
    apply keySucceeds.bind
    intro _ _
    exact .of_pure trivial
  · simp only [isSubscript, if_false]
    exact .of_pure trivial

end Access

section Names

variable {flags : Flags} {place : Option Place} {children : List (Child Node)} {name : Text}
  (values : walker.context.values.binds name = true)
include values

theorem refuseKnown_refused
    (named : Name.of? (.tree .binding flags place children) = some name) :
    Refused (refuseKnown walker.context (.tree .binding flags place children)) := by
  simp only [refuseKnown, named, values, Bool.true_or, if_true]
  exact Refused.of_fail

/-- A name of a value stands for no identifier. -/
theorem resolve_refused {α : Type} {cause : FoldError} {next : Outcome → FoldM α}
    (named : Name.of? (.tree .ident flags place children) = some name)
    (notFragment : walker.context.fragments.binds name = false) :
    Refused (do
      match ← binding? walker (.tree .ident flags place children) with
      | some outcome => next outcome
      | none => FoldM.fail cause (.tree .ident flags place children)) := by
  obtain ⟨value, bound⟩ := Option.isSome_iff_exists.mp values
  have isIdent : (Node.tree .ident flags place children).isKind .ident = true := rfl
  simp only [binding?, Name.value?, isIdent, named, bound]
  by_cases callable : walker.context.functions.binds name = true ∨
      walker.context.macros.binds name = true
  · exact (Chain.refuseCallable_refused callable).bind.bind.bind
  · rw [not_or, Bool.not_eq_true, Bool.not_eq_true] at callable
    simp only [Name.refuseCallable, callable, notFragment]
    exact Refused.of_fail

end Names

/-! ### Walking targets -/

/-- A pattern that was not refused at once and whose parts were folded. -/
structure Passes (walker : Walker) (target : Node) : Prop where
  notRefused : Returns (refuseKnown walker.context target) ()
  folds : ∃ outcome, Returns (Aggregate.pattern walker target) outcome

/-- A target that is known is neither assigned to nor passed over in a pattern. -/
structure Blocked (walker : Walker) (target : Node) : Prop where
  assigned : Stops (assign walker target)
  passed : ¬ Passes walker target

/-- A kind of pattern that is not a name by itself. -/
def IsPattern (kind : Kind) : Prop :=
  kind = .arrayPattern ∨ kind = .objectPattern ∨ kind = .patternProperty ∨
    kind = .assignPattern ∨ kind = .rest

/-- A way to fold targets: names are resolved, members are looked at, parentheses are passed
through, and patterns are refused or assigned to. -/
structure Guards {α : Type} (walker : Walker) (write : Node → FoldM α) : Prop where
  name : ∀ flags place children, ∃ (cause : FoldError) (next : Outcome → FoldM α),
    write (.tree .ident flags place children) = (do
      match ← binding? walker (.tree .ident flags place children) with
      | some outcome => next outcome
      | none => FoldM.fail cause (.tree .ident flags place children))
  binding : ∀ flags place children,
    Refused (refuseKnown walker.context (.tree .binding flags place children)) →
      Refused (write (.tree .binding flags place children))
  access : ∀ kind flags place children, (kind = .member ∨ kind = .subscript) →
    ∃ (cause : FoldError) (wrap : Node → α), write (.tree kind flags place children) =
      (do return wrap (← member walker cause ⟨kind, flags, place, children⟩))
  paren : ∀ flags place (inner : Child Node) rest, ∃ wrap : α → α,
    write (.tree .paren flags place (inner :: rest)) = (do return wrap (← write inner.node))
  pattern : ∀ kind flags place children, IsPattern kind →
    Blocked walker (.tree kind flags place children) →
      Stops (write (.tree kind flags place children))

theorem guards_assign : Guards walker (assign walker) := by
  constructor
  case name => exact fun _ _ _ => ⟨_, _, rfl⟩
  case binding => exact fun _ _ _ refused => refused.bind
  case access =>
    rintro kind flags place children (rfl | rfl)
    · exact ⟨_, _, rfl⟩
    · exact ⟨_, _, rfl⟩
  case paren => exact fun _ _ _ _ => ⟨_, rfl⟩
  case pattern => exact fun _ _ _ _ _ blocked => blocked.assigned

theorem guards_update (op : Text) : Guards walker (update walker op) := by
  constructor
  case name => exact fun _ _ _ => ⟨_, _, rfl⟩
  case binding => exact fun _ _ _ _ => Refused.of_fail
  case access =>
    rintro kind flags place children (rfl | rfl)
    · exact ⟨_, _, rfl⟩
    · exact ⟨_, _, rfl⟩
  case paren => exact fun _ _ _ _ => ⟨_, rfl⟩
  case pattern =>
    rintro kind flags place children (rfl | rfl | rfl | rfl | rfl) _ <;>
      exact Refused.of_fail.stops

theorem guards_delete : Guards walker (delete walker) := by
  constructor
  case name => exact fun _ _ _ => ⟨_, _, rfl⟩
  case binding => exact fun _ _ _ _ => Refused.of_fail
  case access =>
    rintro kind flags place children (rfl | rfl)
    · exact ⟨_, id, (bind_pure _).symm⟩
    · exact ⟨_, id, (bind_pure _).symm⟩
  case paren => exact fun _ _ _ _ => ⟨_, rfl⟩
  case pattern =>
    rintro kind flags place children (rfl | rfl | rfl | rfl | rfl) _ <;>
      exact Refused.of_fail.stops

section Walking

variable {α : Type} {write : Node → FoldM α} {part target : Node}

theorem Guards.refused (guards : Guards walker write) (steps : walker.Steps)
    (known : Known walker part) (bare : Bare part target) : Refused (write target) := by
  induction bare with
  | here =>
      cases known with
      | name isName named values notFragment =>
          rcases isName with rfl | rfl
          · obtain ⟨cause, next, isWrite⟩ := guards.name _ _ _
            rw [isWrite]
            exact resolve_refused values named notFragment
          · exact guards.binding _ _ _ (refuseKnown_refused values named)
      | access isLink sees visible =>
          obtain ⟨cause, wrap, isWrite⟩ := guards.access _ _ _ _ isLink
          rw [isWrite]
          exact (member_refused steps sees visible).bind
  | paren _ induction =>
      obtain ⟨wrap, isWrite⟩ := guards.paren _ _ _ _
      rw [isWrite]
      exact induction.bind

/-- A member of an object of which nothing is seen. -/
inductive Unseen (walker : Walker) : Node → Prop where
  | access {kind : Kind} {flags : Flags} {place : Option Place} {object : Child Node}
      {rest : List (Child Node)} : (kind = .member ∨ kind = .subscript) →
      Sees walker object.node (.folded (.shown none)) →
      (kind = .subscript → ∃ key, rest.head? = some key ∧
        Succeeds (Slot.expression walker key) fun _ => True) →
      Unseen walker (.tree kind flags place (object :: rest))

theorem Guards.kept (guards : Guards walker write) (steps : walker.Steps)
    (unseen : Unseen walker part) (bare : Bare part target) :
    Succeeds (write target) fun _ => True := by
  induction bare with
  | here =>
      cases unseen with
      | access isLink sees keyFolds =>
          obtain ⟨cause, wrap, isWrite⟩ := guards.access _ _ _ _ isLink
          rw [isWrite]
          apply (member_kept steps sees keyFolds).bind
          intro _ _
          exact .of_pure trivial
  | paren _ induction =>
      obtain ⟨wrap, isWrite⟩ := guards.paren _ _ _ _
      rw [isWrite]
      apply induction.bind
      intro _ _
      exact .of_pure trivial

end Walking

/-! ### Patterns -/

theorem refuseAll_returns {context : Context} {elements : List (Child Node)} {element : Child Node}
    (returns : Returns (refuseAll context elements) ()) (there : element ∈ elements) :
    Returns (refuseKnown context element.node) () := by
  induction elements with
  | nil => cases there
  | cons first rest induction =>
      obtain ⟨_, firstReturns, restReturn⟩ := returns.of_bind
      rcases List.mem_cons.mp there with rfl | there
      · exact firstReturns
      · exact induction restReturn there

theorem patterns_returns {elements results : List (Child Node)} {element : Child Node}
    (returns : Returns (Aggregate.patterns walker elements) results) (there : element ∈ elements) :
    ∃ outcome, Returns (Aggregate.pattern walker element.node) outcome := by
  induction elements generalizing results with
  | nil => cases there
  | cons first rest induction =>
      obtain ⟨outcome, firstReturns, returns⟩ := returns.of_bind
      obtain ⟨others, restReturn, _⟩ := returns.of_bind
      rcases List.mem_cons.mp there with rfl | there
      · exact ⟨outcome, firstReturns⟩
      · exact induction restReturn there

/-- A pattern that does not pass is blocked. -/
theorem blocked_of_pattern (steps : walker.Steps) {kind : Kind} {flags : Flags}
    {place : Option Place} {children : List (Child Node)} (isPattern : IsPattern kind)
    (passed : ¬ Passes walker (.tree kind flags place children)) :
    Blocked walker (.tree kind flags place children) := by
  refine ⟨?_, passed⟩
  by_cases isProperty : kind = .patternProperty
  · subst isProperty
    exact Refused.of_fail.stops
  · have walked := steps ⟨kind, flags, place, children⟩
    rw [Branch.toNode] at walked
    have assigned : assign walker (.tree kind flags place children) =
        pattern walker (.tree kind flags place children) := by
      rcases isPattern with rfl | rfl | rfl | rfl | rfl <;> first | rfl | contradiction
    have stepped : Fold.step walker ⟨kind, flags, place, children⟩ =
        (do return (← Aggregate.pattern walker (.tree kind flags place children)).toFolded) := by
      rcases isPattern with rfl | rfl | rfl | rfl | rfl <;> rfl
    intro value returns
    rw [assigned] at returns
    obtain ⟨_, notRefused, returns⟩ := returns.of_bind
    obtain ⟨folded, folds, _⟩ := returns.of_bind
    rw [walked, stepped] at folds
    obtain ⟨outcome, folds, _⟩ := folds.of_locating.of_bind
    exact passed ⟨notRefused, outcome, folds⟩

/-- What is a target itself does not pass where it is not assigned to. -/
theorem not_passes_of_assign {kind : Kind} {flags : Flags} {place : Option Place}
    {children : List (Child Node)}
    (isTarget : kind = .ident ∨ kind = .member ∨ kind = .subscript ∨ kind = .paren)
    (stops : Stops (assign walker (.tree kind flags place children))) :
    ¬ Passes walker (.tree kind flags place children) := by
  rintro ⟨_, outcome, folds⟩
  have assigned : Aggregate.pattern walker (.tree kind flags place children) =
      assign walker (.tree kind flags place children) := by
    rcases isTarget with rfl | rfl | rfl | rfl <;> rfl
  rw [assigned] at folds
  exact stops outcome folds

/-- A pattern of elements passes only if all of them do. -/
theorem not_passes_of_element {kind : Kind} {flags : Flags} {place : Option Place}
    {elements : List (Child Node)} {element : Child Node}
    (isList : kind = .arrayPattern ∨ kind = .objectPattern) (there : element ∈ elements)
    (blocked : ¬ Passes walker element.node) :
    ¬ Passes walker (.tree kind flags place elements) := by
  rintro ⟨notRefused, outcome, folds⟩
  have refusesAll : refuseKnown walker.context (.tree kind flags place elements) =
      refuseAll walker.context elements := by
    rcases isList with rfl | rfl <;> rfl
  have foldsAll : Aggregate.pattern walker (.tree kind flags place elements) =
      (do return .same (.tree kind flags place (← Aggregate.patterns walker elements))) := by
    rcases isList with rfl | rfl <;> rfl
  rw [refusesAll] at notRefused
  rw [foldsAll] at folds
  obtain ⟨results, folds, _⟩ := folds.of_bind
  exact blocked ⟨refuseAll_returns notRefused there, patterns_returns folds there⟩

/-- A target with a default passes only if it does. -/
theorem not_passes_of_default {flags : Flags} {place : Option Place} {target : Child Node}
    {rest : List (Child Node)} (blocked : ¬ Passes walker target.node) :
    ¬ Passes walker (.tree .assignPattern flags place (target :: rest)) := by
  rintro ⟨notRefused, outcome, folds⟩
  apply blocked
  cases rest with
  | nil =>
      obtain ⟨outcome, folds, _⟩ := folds.of_bind
      exact ⟨notRefused, outcome, folds⟩
  | cons default rest =>
      obtain ⟨outcome, folds, _⟩ := folds.of_bind
      exact ⟨notRefused, outcome, folds⟩

/-- A target is blocked if any part of it is known, whatever patterns and parentheses the part is
in. -/
theorem blocked_of_covers (steps : walker.Steps) {part target : Node} (known : Known walker part)
    (covers : Covers part target) : Blocked walker target := by
  induction covers with
  | here =>
      have stops : Stops (assign walker part) := (guards_assign.refused steps known .here).stops
      refine ⟨stops, ?_⟩
      cases known with
      | name isName named values notFragment =>
          rcases isName with rfl | rfl
          · exact not_passes_of_assign (.inl rfl) stops
          · rintro ⟨notRefused, _⟩
            exact (refuseKnown_refused values named).stops _ notRefused
      | access isLink sees visible =>
          rcases isLink with rfl | rfl
          · exact not_passes_of_assign (.inr (.inl rfl)) stops
          · exact not_passes_of_assign (.inr (.inr (.inl rfl))) stops
  | @paren flags place inner rest _ induction =>
      have stops : Stops (assign walker (.tree .paren flags place (inner :: rest))) :=
        induction.assigned.bind
      exact ⟨stops, not_passes_of_assign (.inr (.inr (.inr rfl))) stops⟩
  | array there _ induction =>
      exact blocked_of_pattern steps (.inl rfl)
        (not_passes_of_element (.inl rfl) there induction.passed)
  | object there _ induction =>
      exact blocked_of_pattern steps (.inr (.inl rfl))
        (not_passes_of_element (.inr rfl) there induction.passed)
  | property _ induction =>
      apply blocked_of_pattern steps (.inr (.inr (.inl rfl)))
      rintro ⟨notRefused, _, folds⟩
      obtain ⟨key, _, folds⟩ := folds.of_bind
      obtain ⟨outcome, folds, _⟩ := folds.of_bind
      exact induction.passed ⟨notRefused, outcome, folds⟩
  | default _ induction =>
      exact blocked_of_pattern steps (.inr (.inr (.inr (.inl rfl))))
        (not_passes_of_default induction.passed)
  | rest _ induction =>
      apply blocked_of_pattern steps (.inr (.inr (.inr (.inr rfl))))
      rintro ⟨notRefused, _, folds⟩
      obtain ⟨outcome, folds, _⟩ := folds.of_bind
      exact induction.passed ⟨notRefused, outcome, folds⟩

theorem Guards.stops {α : Type} {write : Node → FoldM α} (guards : Guards walker write)
    (steps : walker.Steps) {part target : Node} (known : Known walker part)
    (covers : Covers part target) : Stops (write target) := by
  have blocked := blocked_of_covers steps known covers
  induction covers with
  | here => exact (guards.refused steps known .here).stops
  | paren covers induction =>
      obtain ⟨wrap, isWrite⟩ := guards.paren _ _ _ _
      rw [isWrite]
      exact (induction (blocked_of_covers steps known covers)).bind
  | array => exact guards.pattern _ _ _ _ (.inl rfl) blocked
  | object => exact guards.pattern _ _ _ _ (.inr (.inl rfl)) blocked
  | property => exact guards.pattern _ _ _ _ (.inr (.inr (.inl rfl))) blocked
  | default => exact guards.pattern _ _ _ _ (.inr (.inr (.inr (.inl rfl)))) blocked
  | rest => exact guards.pattern _ _ _ _ (.inr (.inr (.inr (.inr rfl)))) blocked

/-! ### Nodes that write -/

/-- A node that writes to a target: an assignment, an update, a deletion, or the head of a loop
that declares nothing. -/
inductive WritesTo (target : Child Node) : Branch → Prop where
  | assign {flags : Flags} {place : Option Place} {op value : Child Node} :
      WritesTo target ⟨.assign, flags, place, [target, op, value]⟩
  | prefixUpdate {flags : Flags} {place : Option Place} {op : Child Node}
      {rest : List (Child Node)} {word : Text} :
      Operation.operatorIn (op :: target :: rest) = some word →
      WritesTo target ⟨.prefixUpdate, flags, place, op :: target :: rest⟩
  | postfixUpdate {flags : Flags} {place : Option Place} {rest : List (Child Node)}
      {word : Text} : Operation.operatorIn (target :: rest) = some word →
      WritesTo target ⟨.postfixUpdate, flags, place, target :: rest⟩
  | delete {flags : Flags} {place : Option Place} {op : Child Node} {rest : List (Child Node)}
      {word : Text} : Operation.operatorIn (op :: target :: rest) = some word →
      word.isString "delete" = true →
      WritesTo target ⟨.unary, flags, place, op :: target :: rest⟩
  | forEach {kind : Kind} {flags : Flags} {place : Option Place} {right body : Child Node} :
      (kind = .forInStmt ∨ kind = .forOfStmt) → target.node.isKind .varDecl = false →
      WritesTo target ⟨kind, flags, place, [target, right, body]⟩

/-- The step of a node that writes begins with the target. -/
theorem step_of_writesTo {target : Child Node} {branch : Branch}
    (writes : WritesTo target branch) :
    ∃ (α : Type) (write : Node → FoldM α) (next : α → FoldM Folded),
      Guards walker write ∧ Fold.step walker branch = write target.node >>= next := by
  cases writes with
  | assign => exact ⟨_, assign walker, _, guards_assign, rfl⟩
  | @prefixUpdate flags place op rest word isOp =>
      let branch : Branch := ⟨.prefixUpdate, flags, place, op :: target :: rest⟩
      have isWord : Operation.operatorOf branch.kind branch.children = pure word := by
        simp [Operation.operatorOf, branch, isOp]
      have stepped : Fold.step walker branch = (do
          let op ← Operation.operatorOf branch.kind branch.children
          let outcome ← update walker op target.node
          return branch.keep (branch.children.set 1 (outcome.inSeat target.seat))) := rfl
      rw [isWord, pure_bind] at stepped
      exact ⟨_, update walker word, _, guards_update word, stepped⟩
  | @postfixUpdate flags place rest word isOp =>
      let branch : Branch := ⟨.postfixUpdate, flags, place, target :: rest⟩
      have isWord : Operation.operatorOf branch.kind branch.children = pure word := by
        simp [Operation.operatorOf, branch, isOp]
      have stepped : Fold.step walker branch = (do
          let op ← Operation.operatorOf branch.kind branch.children
          let outcome ← update walker op target.node
          return branch.keep (branch.children.set 0 (outcome.inSeat target.seat))) := rfl
      rw [isWord, pure_bind] at stepped
      exact ⟨_, update walker word, _, guards_update word, stepped⟩
  | @delete flags place op rest word isOp isDelete =>
      let branch : Branch := ⟨.unary, flags, place, op :: target :: rest⟩
      have isWord : Operation.operatorOf branch.kind branch.children = pure word := by
        simp [Operation.operatorOf, branch, isOp]
      have stepped : Fold.step walker branch = foldUnary walker branch := rfl
      simp only [foldUnary, isWord, pure_bind, isDelete, if_true] at stepped
      exact ⟨_, delete walker, _, guards_delete, stepped⟩
  | @forEach kind flags place right body isLoop notDeclared =>
      have stepped : Fold.step walker ⟨kind, flags, place, [target, right, body]⟩ =
          Control.forEachLoop walker ⟨kind, flags, place, [target, right, body]⟩ := by
        rcases isLoop with rfl | rfl <;> rfl
      simp only [Control.forEachLoop, notDeclared, Bool.false_eq_true, if_false, map_eq_pure_bind,
        bind_assoc] at stepped
      exact ⟨_, assign walker, _, guards_assign, stepped⟩

end Target

namespace Fold

open Chain (Seen Sight Sees)
open Target (Known Unseen Bare Covers WritesTo)

/-! ### Reaching a write -/

/-- The walker with a number of expansions left. -/
def walkerWithin (left : Nat) (context : Context) : Walker :=
  ⟨context, expandWithin left context, foldWithin left context⟩

theorem walkerWithin_steps (left : Nat) (context : Context) :
    (walkerWithin left context).Steps := by
  intro branch
  have walks : foldWithin left context = walk context (expandWithin left) := by
    funext node
    exact foldWithin_eq_walk left context node
  rw [walkerWithin, walks]
  exact walk_tree context (expandWithin left) _ _ _ _

/-- A node writes to something known, when it is folded with a number of expansions left. -/
def WritesToKnown (left : Nat) (context : Context) (branch : Branch) : Prop :=
  ∃ target part, WritesTo target branch ∧ Covers part target.node ∧
    Known (walkerWithin left context) part

theorem foldWithin_stops {left : Nat} {context : Context} {branch : Branch}
    (writes : WritesToKnown left context branch) :
    Stops (foldWithin left context branch.toNode) := by
  have steps := walkerWithin_steps left context
  obtain ⟨target, part, writes, covers, known⟩ := writes
  obtain ⟨α, write, next, guards, stepped⟩ := Target.step_of_writesTo writes
  have walked := steps branch
  rw [stepped] at walked
  show Stops ((walkerWithin left context).walk branch.toNode)
  rw [walked]
  exact (guards.stops steps known covers).bind.locating

theorem foldWithin_refused {left : Nat} {context : Context} {branch : Branch}
    {target : Child Node} {part : Node} (writes : WritesTo target branch)
    (known : Known (walkerWithin left context) part) (bare : Bare part target.node) :
    Refused (foldWithin left context branch.toNode) := by
  have steps := walkerWithin_steps left context
  obtain ⟨α, write, next, guards, stepped⟩ := Target.step_of_writesTo writes
  have walked := steps branch
  rw [stepped] at walked
  show Refused ((walkerWithin left context).walk branch.toNode)
  rw [walked]
  exact (guards.refused steps known bare).bind.locating

/-- What is done on reaching a tree, with a number of expansions left. -/
abbrev Watch := (left : Nat) → Context → Branch → FoldM Unit

/-- Fold a node with this many levels below it, and watch every tree that is reached. -/
def watchedAt (watch : Branch → FoldM Unit) (context : Context) (expand : Expander) :
    (levels : Nat) → Node → FoldM Folded
  | levels + 1, .tree kind flags place children =>
      let walker : Walker := ⟨context, expand context, watchedAt watch context expand levels⟩
      FoldM.locating (.tree kind flags place children) do
        watch ⟨kind, flags, place, children⟩
        step walker ⟨kind, flags, place, children⟩
  | _, node => pure (.same node)

/-- Fold a node with a number of expansions left, and watch every tree that is reached. -/
def watchedWithin (watch : Watch) : (left : Nat) → Context → Node → FoldM Folded
  | 0, context, node => watchedAt (watch 0 context) context tooDeep node.height node
  | left + 1, context, node =>
      watchedAt (watch (left + 1) context) context (expandWith (watchedWithin watch left))
        node.height node

/-- Fold a program, and watch every tree that is reached. -/
def programWatched (watch : Watch) (context : Context) (node : Node) : FoldM Node := do
  if greatestDepthLimit < context.depthLimit then throw (.fault .tooLarge)
  match ← watchedWithin watch context.depthLimit.toNat context node with
  | .same folded => return folded
  | _ => throw (.fault .rootReplaced)

def Fails {α : Type} (step : FoldM α) (before : List Diagnostic) : Prop :=
  ∃ failure after, step.run.run before = (.error failure, after)

/-- A step is the same as another, or fails. -/
def unlessFails : Likeness :=
  .unlessFails (fun _ => True) fun _ _ _ => trivial

private theorem unlessFails_of_stops {α : Type} {first second : FoldM α} {results : α → Prop}
    (stops : Stops first) : unlessFails.alike first second results := by
  refine ⟨fun before => .inr ?_, fun value returns => absurd returns (stops value)⟩
  cases ran : first.run.run before with
  | mk outcome after =>
      cases outcome with
      | error failure => exact ⟨failure, after, rfl, trivial⟩
      | ok value => exact absurd ⟨before, after, ran⟩ (stops value)

/-- Nothing is done on reaching a node unless it writes to something known. -/
def Watch.OnlyKnown (watch : Watch) : Prop :=
  ∀ left context branch, ¬ WritesToKnown left context branch → watch left context branch = pure ()

variable {watch : Watch}

/-- Watching a fold for writes to what is known changes nothing, unless the fold fails. -/
theorem watchedAt_alike (only : watch.OnlyKnown) {left : Nat} {context : Context}
    {expand : Expander}
    (expands : ∀ call name, unlessFails.alike (expandWithin left context call name)
      (expand context call name) (Folded.Placed fun _ => True))
    {levels : Nat} {node : Node} (within : node.height ≤ levels) :
    unlessFails.alike (foldWithin left context node)
      (watchedAt (watch left context) context expand levels node)
      (Folded.Placed fun _ => True) := by
  induction levels generalizing node with
  | zero =>
      have same : watchedAt (watch left context) context expand 0 node = pure (.same node) := by
        cases node <;> rfl
      cases node with
      | absent | leaf =>
          rw [same, foldWithin_eq_walk]
          exact unlessFails.of_pure (Folded.placed_anywhere _)
      | tree => cases within
  | succ levels induction =>
      cases node with
      | absent | leaf =>
          rw [foldWithin_eq_walk]
          exact unlessFails.of_pure (Folded.placed_anywhere _)
      | tree kind flags place children =>
          by_cases writes : WritesToKnown left context ⟨kind, flags, place, children⟩
          · exact unlessFails_of_stops (foldWithin_stops writes)
          · have coupled : Coupled unlessFails (fun _ => True) levels (walkerWithin left context)
                ⟨context, expand context, watchedAt (watch left context) context expand levels⟩ :=
              ⟨rfl, fun entry _ => entry.2.placed_anywhere, fun node near => induction near.height,
                fun call name _ => expands call name⟩
            have walked : foldWithin left context (.tree kind flags place children) =
                FoldM.locating (.tree kind flags place children)
                  (step (walkerWithin left context) ⟨kind, flags, place, children⟩) :=
              walkerWithin_steps left context ⟨kind, flags, place, children⟩
            have near : Near (fun _ => True) (levels + 1) (.tree kind flags place children) :=
              ⟨Node.placed_anywhere _, within⟩
            rw [watchedAt, only left context _ writes, pure_bind, walked]
            apply unlessFails.locating
            exact step_alike coupled ⟨kind, flags, place, children⟩ near

private theorem watchedWithin_alike (only : watch.OnlyKnown) (left : Nat) (context : Context)
    (node : Node) :
    unlessFails.alike (foldWithin left context node) (watchedWithin watch left context node)
      (Folded.Placed fun _ => True) := by
  induction left generalizing context node with
  | zero =>
      apply watchedAt_alike only _ (Nat.le_refl _)
      exact fun call name => unlessFails.of_fail
  | succ left induction =>
      apply watchedAt_alike only _ (Nat.le_refl _)
      intro call name
      apply expandWith_alike _ (fun entry _ => entry.2.placed_anywhere) _ _
        call.toNode.placed_anywhere
      · exact fun fragments _ node _ => induction { context with fragments } node
      · exact fun _ tree _ _ => tree.placed_anywhere
      · exact fun _ _ _ _ _ expansion _ _ => expansion_placed_anywhere expansion

theorem programWatched_alike (only : watch.OnlyKnown) (context : Context) (node : Node) :
    unlessFails.alike (program context node) (programWatched watch context node)
      (fun _ => True) := by
  unfold program programWatched
  split
  · exact unlessFails.of_throw
  · apply unlessFails.bind (watchedWithin_alike only _ context node)
    intro folded _
    exact unlessFails.weaken (unlessFails.refl _) fun _ _ => trivial

/-! ### The guard -/

/-- A name that is bound to a value, or links over one, with parentheses anywhere. -/
inductive Rooted (context : Context) : Node → Prop where
  | name {kind : Kind} {flags : Flags} {place : Option Place} {children : List (Child Node)}
      {name : Text} : (kind = .ident ∨ kind = .binding) →
      Name.of? (.tree kind flags place children) = some name →
      context.values.binds name = true → context.fragments.binds name = false →
      Rooted context (.tree kind flags place children)
  | paren {flags : Flags} {place : Option Place} {inner : Child Node} {rest : List (Child Node)} :
      Rooted context inner.node → Rooted context (.tree .paren flags place (inner :: rest))
  | link {kind : Kind} {flags : Flags} {place : Option Place} {object : Child Node}
      {rest : List (Child Node)} : (kind = .member ∨ kind = .subscript) →
      Rooted context object.node → Rooted context (.tree kind flags place (object :: rest))

/-- Only what begins at a value is seen. -/
theorem rooted_of_sees {walker : Walker} {node : Node} {seen : Seen}
    (sees : Sees walker node seen) : Rooted walker.context node := by
  induction sees with
  | name named _ notFragment bound =>
      exact .name (.inl rfl) named (by simp [Table.binds, bound]) notFragment
  | callable named values _ notFragment => exact .name (.inl rfl) named values notFragment
  | paren _ _ induction => exact .paren induction
  | refused isLink _ induction => exact .link isLink induction
  | link isLink _ _ _ _ _ induction => exact .link isLink induction

private theorem rooted_of_known {walker : Walker} {part : Node} (known : Known walker part) :
    Rooted walker.context part := by
  cases known with
  | name isName named values notFragment => exact .name isName named values notFragment
  | access isLink sees _ => exact .link isLink (rooted_of_sees sees)

/-- A node that writes is refused if its target is known, even if the target is only a part of a
pattern, and no target of a member is refused of whose object nothing is seen.  A program that is
folded has reached no write to anything known: whatever would be done there, it is folded the
same. -/
theorem writes_to_known_refused (context : Context) :
    (∀ left target part branch, WritesTo target branch → Known (walkerWithin left context) part →
      Rooted context part ∧
      (Covers part target.node → Stops (foldWithin left context branch.toNode)) ∧
      (Bare part target.node → Refused (foldWithin left context branch.toNode))) ∧
    (∀ left part target, Unseen (walkerWithin left context) part → Bare part target →
      Succeeds (Target.assign (walkerWithin left context) target) (fun _ => True) ∧
      (∀ op, Succeeds (Target.update (walkerWithin left context) op target) fun _ => True) ∧
      Succeeds (Target.delete (walkerWithin left context) target) fun _ => True) ∧
    ∀ watch : Watch, watch.OnlyKnown → ∀ node before,
      (program context node).run.run before = (programWatched watch context node).run.run before ∨
        Fails (program context node) before := by
  refine ⟨?_, ?_, ?_⟩
  · intro left target part branch writes known
    refine ⟨rooted_of_known known, ?_, ?_⟩
    · exact fun covers => foldWithin_stops ⟨target, part, writes, covers, known⟩
    · exact foldWithin_refused writes known
  · intro left part target unseen bare
    have steps := walkerWithin_steps left context
    refine ⟨?_, fun op => ?_, ?_⟩
    · exact Target.guards_assign.kept steps unseen bare
    · exact (Target.guards_update op).kept steps unseen bare
    · exact Target.guards_delete.kept steps unseen bare
  · intro watch only node before
    rcases (programWatched_alike only context node).1 before with same | failed
    · exact .inl same
    · obtain ⟨failure, after, failed, _⟩ := failed
      exact .inr ⟨failure, after, failed⟩

/-- A context in which `x` is a record with a record in it. -/
def nestedRecord : Context :=
  let inner : Value := .record [(.string "b", .int 1)]
  ⟨Host.none, [("x", .record [(.string "a", inner)])], [], [], [], 100⟩

def memberOf (object : Node) (name : Text) : Node :=
  .made .member [object, .word .name name]

def assignsOne (target : Node) : Branch :=
  ⟨.assign, {}, none,
    [⟨none, target⟩, ⟨none, .word .assignOp "="⟩, ⟨none, Literal.ofWord .number "1"⟩]⟩

private theorem nestedRecord_known (left : Nat) :
    Known (walkerWithin left nestedRecord) (memberOf (memberOf (identOf "x") "a") "b") := by
  let inner : Value := .record [(.string "b", .int 1)]
  have named : Name.of? (identOf "x") = some "x" := rfl
  have seesName : Sees (walkerWithin left nestedRecord) (identOf "x")
      (.bound (.record [(.string "a", inner)])) :=
    .name named ⟨rfl, rfl⟩ rfl rfl
  have key : Succeeds (Chain.memberKey (walkerWithin left nestedRecord)
      ⟨.member, {}, none, Node.unseated [identOf "x", .word .name "a"]⟩) (·.2 = some "a") :=
    .of_pure rfl
  have seesMember : Sees (walkerWithin left nestedRecord) (memberOf (identOf "x") "a")
      (.folded (.shown (some inner))) :=
    .link (.inl rfl) seesName nofun key rfl nofun
  exact .access (.inl rfl) seesMember nofun

/-- The assignment `x.a.b = 1` is refused. -/
theorem nestedRecord_refused :
    Known (walkerWithin 100 nestedRecord) (memberOf (memberOf (identOf "x") "a") "b") ∧
      Refused (foldWithin 100 nestedRecord
        (assignsOne (memberOf (memberOf (identOf "x") "a") "b")).toNode) := by
  have known := nestedRecord_known 100
  have guarded := (writes_to_known_refused nestedRecord).1
  exact ⟨known, (guarded 100 _ _ _ .assign known).2.2 .here⟩

/-- The target `x[k].b`. -/
def dynamicMember : Node :=
  memberOf (.made .subscript [identOf "x", identOf "k"]) "b"

/-- The assignment `x[k].b = 1` is let through, although its target begins at a value. -/
theorem dynamicKey_written :
    ¬ ∀ (left : Nat) (context : Context) (target : Child Node) (part : Node) (branch : Branch),
      WritesTo target branch → Covers part target.node → Rooted context part →
        Stops (foldWithin left context branch.toNode) := by
  intro guarded
  have named : Name.of? (identOf "x") = some "x" := rfl
  have rootedName : Rooted nestedRecord (identOf "x") := .name (.inl rfl) named rfl rfl
  have rooted : Rooted nestedRecord dynamicMember :=
    .link (.inl rfl) (.link (.inr rfl) rootedName)
  have stops := guarded 0 nestedRecord _ dynamicMember (assignsOne dynamicMember) .assign .here
    rooted
  have isSome : ((foldWithin 0 nestedRecord (assignsOne dynamicMember).toNode).run.run
      []).1.toOption.isSome := by
    decide +kernel
  obtain ⟨folded, returns⟩ := returns_of_isSome isSome
  exact stops folded returns

end Fold

end ScriptFold
