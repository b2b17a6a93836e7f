import ScriptFold.Fold.Callable
import ScriptFold.Fold.Chain
import ScriptFold.Proofs.Whole.Target

/-!
# Patterns, functions and classes of whole trees

Patterns, functions, classes and declarations of whole trees fold safely and stay where they are.
-/

namespace ScriptFold

open Calculation (Slips slips_ok)
open FoldM (Safe)

variable {walker : Walker} {node former : Node} {child : Child Node} {children : List (Child Node)}
variable {kind : Kind} {flags : Flags} {place : Option Place}

/-! ### Patterns -/

namespace Aggregate

/-- What folding makes of a pattern: a whole node, and the node itself if it is steady. -/
structure Matches (former : Node) (outcome : Outcome) : Prop where
  whole : outcome.IsWhole
  stays : former.isSteady = true → ∃ node, outcome = .same node ∧ node.kind? = former.kind?

theorem Matches.same {other : Node} (whole : other.Whole) (sameKind : other.kind? = former.kind?) :
    Matches former (.same other) :=
  ⟨whole, fun _ => ⟨other, rfl, sameKind⟩⟩

theorem pattern_safe (safe : walker.IsSafe) (whole : node.Whole) :
    Safe (pattern walker node) (Matches node) := by
  revert whole
  refine pattern.induct (fun node => node.Whole → Safe (pattern walker node) (Matches node))
    (fun elements => AllWhole elements → Safe (patterns walker elements) AllWhole)
    ?absent ?leaf ?binding ?array ?params ?object ?property ?shortProperty ?default ?shortDefault
    ?rest ?target ?malformed ?unexpected ?none ?cons node
  case absent =>
    intro whole
    exact .of_pure (.same whole rfl)
  case leaf =>
    intro token whole
    exact .of_pure (.same whole rfl)
  case binding =>
    intro flags place children whole
    exact .of_pure (.same whole rfl)
  case array | params | object =>
    intro flags place elements induction whole
    apply (induction whole.all).bind
    intro results resultsAre
    exact .of_pure (.same (.tree (.unlisted rfl (fun _ _ _ => rfl) rfl) resultsAre) rfl)
  case property =>
    intro flags place first seat target rest induction whole
    apply (key_safe safe whole.head).bind
    intro newFirst firstIs
    apply (induction whole.second).bind
    intro outcome isMatch
    have targetIs : (outcome.inSeat seat).node.Whole := Operation.inSeat_whole isMatch.whole
    exact .of_pure (.same ((whole.set rfl 0 firstIs rfl).set rfl 1 targetIs rfl) rfl)
  case shortProperty =>
    intro flags place first whole
    cases whole.holds.counts
  case default =>
    intro flags place seat target default rest induction whole
    apply (induction whole.head).bind
    intro outcome isMatch
    apply (Slot.expression_safe safe whole.second).bind
    intro newDefault refolds
    have targetIs : (outcome.inSeat seat).node.Whole := Operation.inSeat_whole isMatch.whole
    exact .of_pure (.same ((whole.set rfl 0 targetIs rfl).set rfl 1 refolds.whole rfl) rfl)
  case shortDefault =>
    intro flags place seat target induction whole
    cases whole.holds.counts
  case rest =>
    intro flags place seat target rest induction whole
    apply (induction whole.head).bind
    intro outcome isMatch
    have targetIs : (outcome.inSeat seat).node.Whole := Operation.inSeat_whole isMatch.whole
    exact .of_pure (.same (whole.set rfl 0 targetIs rfl) rfl)
  case target =>
    intro kind flags place children _ _ _ _ _ _ _ _ _ node isTarget whole
    rw [pattern]
    · rw [if_pos isTarget]
      apply (Target.assign_safe safe whole).mono
      intro outcome outcomeIs
      refine ⟨outcomeIs, fun steady => ?_⟩
      have notSteady : ∀ kind, kind ∈ [Kind.ident, .member, .subscript, .paren] →
          kind.isSteady = false := by decide
      obtain ⟨inner, there, isKind⟩ := kind?_of_isOneOf isTarget
      rw [isSteady_of_kind (show node.kind? = some inner from isKind),
        notSteady inner there] at steady
      cases steady
    all_goals assumption
  case malformed =>
    intro kind flags place children _ _ _ _ notProperty notSingle notDefault notShort notRest node
      notTarget isMalformed whole
    obtain ⟨inner, there, isKind⟩ := kind?_of_isOneOf isMalformed
    cases isKind
    have counts := whole.holds.counts
    simp only [List.mem_cons, List.not_mem_nil, or_false] at there
    obtain rfl | rfl | rfl := there
    · obtain ⟨first, ⟨seat, target⟩, rfl⟩ := List.length_eq_two.mp (beq_iff_eq.mp counts)
      exact (notProperty first seat target [] rfl rfl).elim
    · obtain ⟨⟨seat, target⟩, default, rfl⟩ := List.length_eq_two.mp (beq_iff_eq.mp counts)
      exact (notDefault seat target default [] rfl rfl).elim
    · obtain ⟨⟨seat, target⟩, rfl⟩ := List.length_eq_one_iff.mp (beq_iff_eq.mp counts)
      exact (notRest seat target [] rfl rfl).elim
  case unexpected =>
    intro kind flags place children _ _ _ _ _ _ _ _ _ node notTarget notMalformed whole
    rw [pattern]
    · rw [if_neg notTarget, if_neg notMalformed]
      apply Safe.of_report.bind
      intro _ _
      exact .of_pure (.same whole rfl)
    all_goals assumption
  case none =>
    intro _
    exact .of_pure .nil
  case cons =>
    intro seat node rest nodeIs restAre all
    apply (nodeIs all.head).bind
    intro outcome isMatch
    apply (restAre all.tail).bind
    intro others othersAre
    exact .of_pure (.cons (Operation.inSeat_whole isMatch.whole) othersAre)

theorem foldPattern_safe (safe : walker.IsSafe) (whole : node.Whole)
    (steady : node.isSteady = true) :
    Safe (do return (← pattern walker node).toFolded) (FoldsWhole node) := by
  apply (pattern_safe safe whole).bind
  intro outcome isMatch
  obtain ⟨other, rfl, sameKind⟩ := isMatch.stays steady
  apply Safe.of_pure
  refine ⟨isMatch.whole, ?_, fun _ => ⟨other, rfl⟩⟩
  intro same isSame
  cases isSame
  exact sameKind

end Aggregate

/-! ### Functions, classes and declarations -/

namespace Callable

/-- A part that stays where it is still fits there. -/
theorem takes_of_same {index : Nat} {result : Child Node}
    (takes : ∀ node, kind.takes index node = node.isSteady)
    (steady : child.node.isSteady = true) (sameKind : result.node.kind? = child.node.kind?) :
    kind.takes index result.node = true := by
  rw [takes, Node.isSteady, sameKind]
  exact steady

/-- Folding a part that stays where it is. -/
theorem anyNode_safe {index : Nat} (safe : walker.IsSafe) (whole : child.node.Whole)
    (takes : ∀ node, kind.takes index node = node.isSteady)
    (fits : kind.takes index child.node = true) :
    Safe (Slot.anyNode walker child) fun result =>
      result.node.Whole ∧ kind.takes index result.node = true := by
  have steady : child.node.isSteady = true := (takes _).symm.trans fits
  apply (Slot.anyNode_safe safe whole steady).mono
  rintro result ⟨resultIs, sameKind⟩
  exact ⟨resultIs, takes_of_same takes steady sameKind⟩

/-- The body of an arrow function: a block or an expression. -/
theorem body_safe (safe : walker.IsSafe) (whole : child.node.Whole) :
    Safe (if child.node.isKind .block then Slot.anyNode walker child
      else Slot.expression walker child) fun result => result.node.Whole := by
  split
  case isTrue isBlock =>
    have steady : child.node.isSteady = true := isSteady_of_kind (beq_iff_eq.mp isBlock)
    exact (Slot.anyNode_safe safe whole steady).mono fun _ is => is.1
  case isFalse => exact (Slot.expression_safe safe whole).mono fun _ refolds => refolds.whole

theorem function_safe (safe : walker.IsSafe)
    (whole : (Node.tree kind flags place children).Whole)
    (isFunction : kind = .functionDecl ∨ kind = .functionExpr) :
    Safe (fold walker ⟨kind, flags, place, children⟩)
      (FoldsWhole (.tree kind flags place children)) := by
  have shape : kind.counts children.length = (children.length == 3) ∧
      Printer.listHead? kind = none ∧ (∀ node, kind.takes 1 node = node.isSteady) ∧
      ∀ node, kind.takes 2 node = node.isSteady := by
    obtain rfl | rfl := isFunction <;> exact ⟨rfl, rfl, fun _ => rfl, fun _ => rfl⟩
  obtain ⟨counts, noList, atParams, atBody⟩ := shape
  obtain ⟨name, params, body, rfl⟩ :=
    List.length_eq_three.mp (beq_iff_eq.mp (counts.symm.trans whole.holds.counts))
  have folds : Safe (do
      let params ← Slot.anyNode walker params
      let body ← Slot.anyNode walker body
      return Branch.keep ⟨kind, flags, place, [name, params, body]⟩ [name, params, body])
      (FoldsWhole (.tree kind flags place [name, params, body])) := by
    have paramsAre := whole.at_index 1 rfl
    have bodyIs := whole.at_index 2 rfl
    apply (anyNode_safe safe paramsAre.1 atParams paramsAre.2).bind
    rintro newParams ⟨newParamsAre, paramsFit⟩
    apply (anyNode_safe safe bodyIs.1 atBody bodyIs.2).bind
    rintro newBody ⟨newBodyIs, bodyFits⟩
    exact .of_pure
      (.keep ((whole.set noList 1 newParamsAre paramsFit).set noList 2 newBodyIs bodyFits))
  obtain rfl | rfl := isFunction <;> exact folds

theorem arrow_safe (safe : walker.IsSafe) (whole : (Node.tree .arrow flags place children).Whole) :
    Safe (fold walker ⟨.arrow, flags, place, children⟩)
      (FoldsWhole (.tree .arrow flags place children)) := by
  obtain ⟨params, body, rfl⟩ := List.length_eq_two.mp (beq_iff_eq.mp whole.holds.counts)
  have paramsAre := whole.at_index 0 rfl
  apply (anyNode_safe safe paramsAre.1 (fun _ => rfl) paramsAre.2).bind
  rintro newParams ⟨newParamsAre, paramsFit⟩
  apply (body_safe safe whole.second).either
  intro newBody newBodyIs
  exact .of_pure (.keep ((whole.set rfl 0 newParamsAre paramsFit).set rfl 1 newBodyIs rfl))

theorem class_safe (safe : walker.IsSafe) (whole : (Node.tree kind flags place children).Whole)
    (isClass : kind = .classDecl ∨ kind = .classExpr) :
    Safe (fold walker ⟨kind, flags, place, children⟩)
      (FoldsWhole (.tree kind flags place children)) := by
  have shape : kind.counts children.length = (children.length == 3) ∧
      Printer.listHead? kind = none ∧ (∀ node, kind.takes 1 node = true) ∧
      ∀ node, kind.takes 2 node = node.isSteady := by
    obtain rfl | rfl := isClass <;> exact ⟨rfl, rfl, fun _ => rfl, fun _ => rfl⟩
  obtain ⟨counts, noList, free, atBody⟩ := shape
  obtain ⟨name, superclass, body, rfl⟩ :=
    List.length_eq_three.mp (beq_iff_eq.mp (counts.symm.trans whole.holds.counts))
  have folds : Safe (do
      let superclass ← Slot.expression walker superclass
      let body ← Slot.anyNode walker body
      return Branch.keep ⟨kind, flags, place, [name, superclass, body]⟩ [name, superclass, body])
      (FoldsWhole (.tree kind flags place [name, superclass, body])) := by
    have bodyIs := whole.at_index 2 rfl
    apply (Slot.expression_safe safe whole.second).bind
    intro newSuperclass refolds
    apply (anyNode_safe safe bodyIs.1 atBody bodyIs.2).bind
    rintro newBody ⟨newBodyIs, bodyFits⟩
    exact .of_pure
      (.keep ((whole.set noList 1 refolds.whole (free _)).set noList 2 newBodyIs bodyFits))
  obtain rfl | rfl := isClass <;> exact folds

theorem fold_safe (safe : walker.IsSafe) (whole : (Node.tree kind flags place children).Whole)
    (isCallable : kind.category? = some .function) :
    Safe (fold walker ⟨kind, flags, place, children⟩)
      (FoldsWhole (.tree kind flags place children)) := by
  cases kind <;> cases isCallable
  case functionDecl => exact function_safe safe whole (.inl rfl)
  case functionExpr => exact function_safe safe whole (.inr rfl)
  case arrow => exact arrow_safe safe whole
  case classDecl => exact class_safe safe whole (.inl rfl)
  case classExpr => exact class_safe safe whole (.inr rfl)
  case classBody =>
    have members : Safe (children.mapM (Slot.anyNode walker)) fun results =>
        (Node.tree .classBody flags place results).Whole :=
      Slot.steadyChildren_safe whole rfl (fun _ _ => rfl) fun _ childIs steady =>
        Slot.anyNode_safe safe childIs steady
    exact members.bind fun _ membersAre => .of_pure (.keep membersAre)
  case method =>
    obtain ⟨first, _, isFirst, firstIs, _⟩ :=
      whole.branch (show Kind.method.needs 0 = true from rfl)
    obtain ⟨params, _, areParams, paramsAre, paramsFit⟩ :=
      whole.branch (show Kind.method.needs 1 = true from rfl)
    obtain ⟨body, _, isBody, bodyIs, bodyFits⟩ :=
      whole.branch (show Kind.method.needs 2 = true from rfl)
    unfold fold
    dsimp only
    rw [isFirst, pure_bind]
    apply (Aggregate.key_safe safe firstIs).bind
    intro newFirst newFirstIs
    rw [areParams, pure_bind]
    apply (anyNode_safe safe paramsAre (fun _ => rfl) paramsFit).bind
    rintro newParams ⟨newParamsAre, newParamsFit⟩
    rw [isBody, pure_bind]
    apply (anyNode_safe safe bodyIs (fun _ => rfl) bodyFits).bind
    rintro newBody ⟨newBodyIs, newBodyFits⟩
    have withParams := (whole.set rfl 0 newFirstIs rfl).set rfl 1 newParamsAre newParamsFit
    exact .of_pure (.keep (withParams.set rfl 2 newBodyIs newBodyFits))
  case classField =>
    obtain ⟨first, _, isFirst, firstIs, _⟩ :=
      whole.branch (show Kind.classField.needs 0 = true from rfl)
    obtain ⟨value, _, isValue, valueIs, _⟩ :=
      whole.branch (show Kind.classField.needs 1 = true from rfl)
    unfold fold
    dsimp only
    rw [isFirst, pure_bind]
    apply (Aggregate.key_safe safe firstIs).bind
    intro newFirst newFirstIs
    rw [isValue, pure_bind]
    apply (Slot.expression_safe safe valueIs).bind
    intro newValue refolds
    exact .of_pure (.keep ((whole.set rfl 0 newFirstIs rfl).set rfl 1 refolds.whole rfl))
  case staticBlock =>
    obtain ⟨body, _, isBody, bodyIs, bodyFits⟩ :=
      whole.branch (show Kind.staticBlock.needs 0 = true from rfl)
    unfold fold
    dsimp only
    rw [isBody, pure_bind]
    apply (anyNode_safe safe bodyIs (fun _ => rfl) bodyFits).bind
    rintro newBody ⟨newBodyIs, newBodyFits⟩
    exact .of_pure (.keep (whole.set rfl 0 newBodyIs newBodyFits))

/-- A declaration stays a declaration, and a declarator a declarator. -/
theorem declared_safe (safe : walker.IsSafe) (whole : node.Whole)
    (isDeclaration : node.kind? = some .varDecl ∨ node.kind? = some .declarator) :
    Safe (declared walker node) fun result => result.Whole ∧ result.kind? = node.kind? := by
  revert whole isDeclaration
  refine declared.induct
    (fun node => node.Whole → node.kind? = some .varDecl ∨ node.kind? = some .declarator →
      Safe (declared walker node) fun result => result.Whole ∧ result.kind? = node.kind?)
    (fun declarators => AllWhole declarators →
      (∀ child, child ∈ declarators → child.node.kind? = some .declarator) →
      Safe (declaredAll walker declarators) fun results => results.length = declarators.length ∧
        AllWhole results ∧ ∀ child, child ∈ results → child.node.kind? = some .declarator)
    ?empty ?declaration ?declarator ?malformed ?other ?none ?cons node
  case empty =>
    intro flags place whole
    cases whole.holds.counts
  case declaration =>
    intro flags place word declarators induction whole _
    have areDeclarators : ∀ child, child ∈ declarators → child.node.kind? = some .declarator := by
      intro child there
      obtain ⟨index, found⟩ := List.getElem?_of_mem there
      exact beq_iff_eq.mp (whole.at_index (index + 1) found).2
    apply (induction (AllWhole.tail whole.all) areDeclarators).bind
    rintro results ⟨sameLength, resultsAre, areResults⟩
    apply Safe.of_pure
    refine ⟨whole.replace rfl (congrArg Nat.succ sameLength) ?_ (.cons whole.head resultsAre), rfl⟩
    intro index child found
    cases index with
    | zero => rfl
    | succ index => exact beq_iff_eq.mpr (areResults child (List.mem_of_getElem? found))
  case declarator =>
    intro kind flags place target initial notDeclaration whole isDeclaration
    obtain rfl : kind = .declarator := by
      rcases isDeclaration with isKind | isKind
      · exact (notDeclaration (Option.some.inj isKind)).elim
      · exact Option.some.inj isKind
    have targetIs := whole.at_index 0 rfl
    rw [declared]
    · apply (anyNode_safe safe targetIs.1 (fun _ => rfl) targetIs.2).bind
      rintro newTarget ⟨newTargetIs, targetFits⟩
      apply (Slot.expression_safe safe whole.second).bind
      intro newInitial refolds
      exact .of_pure
        ⟨(whole.set rfl 0 newTargetIs targetFits).set rfl 1 refolds.whole rfl, rfl⟩
    all_goals assumption
  case malformed =>
    intro kind flags place children notEmpty notDeclaration notDeclarator whole isDeclaration
    rcases isDeclaration with isKind | isKind
    · cases isKind
      cases children with
      | nil => exact (notEmpty rfl rfl).elim
      | cons word declarators => exact (notDeclaration word declarators rfl rfl).elim
    · cases isKind
      obtain ⟨target, initial, rfl⟩ := List.length_eq_two.mp (beq_iff_eq.mp whole.holds.counts)
      exact (notDeclarator target initial rfl).elim
  case other =>
    intro node _ _ _ notTree _ isDeclaration
    cases node with
    | absent | leaf => rcases isDeclaration with isKind | isKind <;> cases isKind
    | tree kind flags place children => exact (notTree kind flags place children rfl).elim
  case none =>
    intro _ _
    exact .of_pure ⟨rfl, .nil, nofun⟩
  case cons =>
    intro seat node rest nodeIs restAre all areDeclarators
    rw [List.forall_mem_cons] at areDeclarators
    apply (nodeIs all.head (.inr areDeclarators.1)).bind
    rintro first ⟨firstIs, sameKind⟩
    apply (restAre all.tail areDeclarators.2).bind
    rintro others ⟨sameLength, othersAre, areOthers⟩
    apply Safe.of_pure
    refine ⟨congrArg Nat.succ sameLength, .cons firstIs othersAre, ?_⟩
    exact List.forall_mem_cons.mpr ⟨sameKind.trans areDeclarators.1, areOthers⟩

theorem declaration_safe (safe : walker.IsSafe)
    (whole : (Node.tree kind flags place children).Whole)
    (isDeclaration : kind.category? = some .declaration) :
    Safe (declaration walker ⟨kind, flags, place, children⟩)
      (FoldsWhole (.tree kind flags place children)) := by
  have isOne : kind = .varDecl ∨ kind = .declarator := by
    cases kind <;> first | decide | cases isDeclaration
  apply (declared_safe safe whole (isOne.imp (congrArg some) (congrArg some))).bind
  rintro result ⟨resultIs, sameKind⟩
  apply Safe.of_pure
  refine ⟨resultIs, ?_, fun _ => ⟨result, rfl⟩⟩
  intro same isSame
  cases isSame
  exact sameKind

end Callable

end ScriptFold
