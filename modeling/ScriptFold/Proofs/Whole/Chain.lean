import ScriptFold.Proofs.Whole.Callable

/-!
# Calls and members of whole trees

Calls and members of whole trees fold safely if the functions of the host have answers.
-/

namespace ScriptFold

open Calculation (Slips slips_ok)
open FoldM (Safe)

variable {walker : Walker} {node former : Node} {child : Child Node} {children : List (Child Node)}
variable {kind : Kind} {flags : Flags} {place : Option Place}

namespace Chain

/-! ### Arguments -/

theorem argument_safe (safe : walker.IsSafe) (whole : child.node.Whole) :
    Safe (argument walker child) fun result => result.1.node.Whole := by
  obtain ⟨seat, node⟩ := child
  unfold argument
  split
  case h_1 flags place inner rest isNode =>
    cases isNode
    apply (Slot.expression_safe safe whole.head).bind
    intro newInner refolds
    exact .of_pure (whole.set rfl 0 refolds.whole rfl)
  case h_2 flags place isNode =>
    cases isNode
    cases whole.holds.counts
  case h_3 =>
    apply (Slot.expression_safe safe whole).bind
    intro folded refolds
    apply (Slot.valueOf_safe refolds.whole).bind
    intro value _
    exact .of_pure refolds.whole

private theorem arguments_safe (safe : walker.IsSafe) (all : AllWhole children) :
    Safe (arguments walker children) fun results => AllWhole results.1 := by
  induction children with
  | nil => exact .of_pure .nil
  | cons child rest induction =>
      apply (argument_safe safe all.head).bind
      rintro ⟨first, value⟩ firstIs
      apply (induction all.tail).bind
      rintro ⟨others, values⟩ othersAre
      exact .of_pure (.cons firstIs othersAre)

def isCall (kind : Kind) : Prop :=
  kind = .call ∨ kind = .newExpr

/-- The arguments of a call: a list of arguments, or none. -/
theorem callArguments_safe (safe : walker.IsSafe)
    (whole : (Node.tree kind flags place children).Whole) (isOne : isCall kind) :
    Safe (callArguments walker ⟨kind, flags, place, children⟩) fun results =>
      results.1.node.Whole ∧ kind.takes 1 results.1.node = true := by
  have shape : kind.needs 1 = true ∧
      ∀ node, kind.takes 1 node = (node.isKind .args || node.isAbsent) := by
    obtain rfl | rfl := isOne <;> exact ⟨rfl, fun _ => rfl⟩
  obtain ⟨needs, takes⟩ := shape
  obtain ⟨⟨seat, args⟩, _, isChild, argsAre, fits⟩ := whole.branch needs
  unfold callArguments
  rw [isChild, pure_bind]
  cases args with
  | absent => exact .of_pure ⟨argsAre, fits⟩
  | leaf =>
      rw [takes] at fits
      cases fits
  | tree inner innerFlags innerPlace parts =>
      have isArgs : inner = .args := by
        rw [takes] at fits
        simpa [Node.isKind, Node.kind?, Node.isAbsent] using fits
      subst isArgs
      apply (arguments_safe safe argsAre.all).bind
      rintro ⟨results, values⟩ resultsAre
      have newArgs : (Node.tree .args innerFlags innerPlace results).Whole :=
        .tree (.unlisted rfl (fun _ _ _ => rfl) rfl) resultsAre
      refine .of_pure ⟨newArgs, ?_⟩
      rw [takes]
      rfl

theorem attempt_safe (safe : walker.IsSafe) (name : String) (arguments : List Value) :
    Safe (FoldM.attempt (walker.context.host.call name arguments)) fun _ => True := by
  obtain ⟨value, isValue⟩ := safe.answers name arguments
  rw [isValue]
  exact .of_pure trivial

theorem callFunction_safe {name : Text} {hostName : String} (safe : walker.IsSafe)
    (whole : (Node.tree kind flags place children).Whole) (isOne : isCall kind) :
    Safe (callFunction walker ⟨kind, flags, place, children⟩ name hostName)
      (FoldsWhole (.tree kind flags place children)) := by
  apply (callArguments_safe safe whole isOne).bind
  rintro ⟨args, values⟩ _
  dsimp only
  split
  · exact .of_fail
  · apply (attempt_safe safe _ _).bind
    intro result _
    apply (Slot.nodeOf_safe result).bind
    intro literal literalIs
    cases literal with
    | none => exact .of_fail
    | some literal =>
        have notSteady : (Node.tree kind flags place children).isSteady = false := by
          obtain rfl | rfl := isOne <;> rfl
        exact .of_pure (.of_isNew (literalIs literal rfl) notSteady)

theorem callMethod_safe {receiver : Value} {name : Text} {values : List (Option Value)}
    (safe : walker.IsSafe) :
    Safe (callMethod walker node receiver name values) fun _ => True := by
  unfold callMethod
  dsimp only
  split
  · split
    · exact .of_fail
    · apply (attempt_safe safe _ _).bind
      intro value _
      exact .of_pure trivial
  · exact .of_pure trivial
  · split
    case h_1 method isMethod =>
      split
      · exact .of_pure trivial
      · split
        · exact .of_pure trivial
        · exact .of_pure trivial
        · rename_i fault fails
          exact .of_throw (.inl (Method.find?_settles isMethod _ _ fails))
    case h_2 =>
      split
      · split
        · exact .of_pure trivial
        · exact .of_fail
      · exact .of_pure trivial

/-! ### Keys and objects -/

/-- The kinds of nodes that read from an object. -/
def isLink (kind : Kind) : Prop :=
  kind = .member ∨ kind = .subscript

theorem memberKey_safe (safe : walker.IsSafe)
    (whole : (Node.tree kind flags place children).Whole) (isOne : isLink kind) :
    Safe (memberKey walker ⟨kind, flags, place, children⟩) fun result => result.1.node.Whole := by
  have needs : kind.needs 1 = true := by
    obtain rfl | rfl := isOne <;> rfl
  obtain ⟨key, _, isKey, keyIs, _⟩ := whole.branch needs
  unfold memberKey
  rw [isKey, pure_bind]
  split
  · apply Safe.of_pure
    split <;> exact keyIs
  · apply (Slot.expression_safe safe keyIs).bind
    intro newKey refolds
    apply (Slot.valueOf_safe refolds.whole).bind
    intro value _
    split
    · exact .of_pure refolds.whole
    · apply Safe.bind (Safe.of_calculate Value.propertyKey_slips)
      intro name _
      exact .of_pure refolds.whole

theorem receiver_safe (safe : walker.IsSafe) (whole : child.node.Whole) :
    Safe (receiver walker child) fun read => read.object.node.Whole := by
  apply Name.value?_safe.bind
  intro value _
  split
  · exact .of_pure whole
  · apply (Slot.expression_safe safe whole).bind
    intro folded refolds
    apply (Slot.valueOf_safe refolds.whole).bind
    intro value _
    exact .of_pure refolds.whole

theorem settle_safe {read : Receiver} (safe : walker.IsSafe) (whole : read.object.node.Whole) :
    Safe (read.settle walker) fun object => object.node.Whole := by
  unfold Receiver.settle
  split
  · exact .of_pure whole
  · exact (Slot.expression_safe safe whole).mono fun _ refolds => refolds.whole

/-- A member with another object and another key. -/
theorem link_whole {object key : Child Node} (whole : (Node.tree kind flags place children).Whole)
    (isOne : isLink kind) (objectIs : object.node.Whole) (keyIs : key.node.Whole) :
    (Node.tree kind flags place ((children.set 0 object).set 1 key)).Whole := by
  obtain rfl | rfl := isOne
  · exact (whole.set rfl 0 objectIs rfl).set rfl 1 keyIs rfl
  · exact (whole.set rfl 0 objectIs rfl).set rfl 1 keyIs rfl

/-- A call with another callee and other arguments. -/
theorem call_whole {callee args : Child Node} (whole : (Node.tree kind flags place children).Whole)
    (isOne : isCall kind) (calleeIs : callee.node.Whole) (argsAre : args.node.Whole)
    (fits : kind.takes 1 args.node = true) :
    (Node.tree kind flags place ((children.set 0 callee).set 1 args)).Whole := by
  obtain rfl | rfl := isOne
  · exact (whole.set rfl 0 calleeIs rfl).set rfl 1 argsAre fits
  · exact (whole.set rfl 0 calleeIs rfl).set rfl 1 argsAre fits

theorem methodCall_safe {callee : Child Node} {linkKind : Kind} {linkFlags : Flags}
    {linkPlace : Option Place} {parts : List (Child Node)} (safe : walker.IsSafe)
    (whole : (Node.tree .call flags place children).Whole)
    (linkIs : (Node.tree linkKind linkFlags linkPlace parts).Whole) (isOne : isLink linkKind) :
    Safe (methodCall walker ⟨.call, flags, place, children⟩ callee
      ⟨linkKind, linkFlags, linkPlace, parts⟩) (FoldsWhole (.tree .call flags place children)) := by
  have needs : linkKind.needs 0 = true := by
    obtain rfl | rfl := isOne <;> rfl
  obtain ⟨object, _, isObject, objectIs, _⟩ := linkIs.branch needs
  unfold methodCall
  rw [isObject, pure_bind]
  apply (receiver_safe safe objectIs).bind
  intro read readIs
  apply (memberKey_safe safe linkIs isOne).bind
  rintro ⟨key, name⟩ keyIs
  apply (callArguments_safe safe whole (.inl rfl)).bind
  rintro ⟨args, values⟩ ⟨argsAre, fits⟩
  have kept : Safe (do
      let object ← read.settle walker
      let link := Node.tree linkKind linkFlags linkPlace ((parts.set 0 object).set 1 key)
      return Branch.keep ⟨.call, flags, place, children⟩
        ((children.set 0 ⟨callee.seat, link⟩).set 1 args))
          (FoldsWhole (.tree .call flags place children)) := by
    apply (settle_safe safe readIs).bind
    intro newObject newObjectIs
    exact .of_pure (.keep (call_whole whole (.inl rfl) (link_whole linkIs isOne newObjectIs keyIs)
      argsAre fits))
  dsimp only
  split
  · apply (callMethod_safe safe).bind
    intro result _
    cases result with
    | none => exact kept
    | some result =>
        rw [pure_bind]
        apply (Slot.nodeOf_safe result).bind
        intro literal literalIs
        cases literal with
        | none => exact .of_fail
        | some literal => exact .of_pure (.of_isNew (literalIs literal rfl) rfl)
  · exact kept

theorem call_safe (safe : walker.IsSafe)
    (whole : (Node.tree kind flags place children).Whole) (isOne : isCall kind) :
    Safe (call walker ⟨kind, flags, place, children⟩)
      (FoldsWhole (.tree kind flags place children)) := by
  have needs : kind.needs 0 = true := by
    obtain rfl | rfl := isOne <;> rfl
  obtain ⟨callee, -, isCallee, calleeIs, -⟩ := whole.branch needs
  unfold call
  rw [isCallee, pure_bind]
  split
  · exact callFunction_safe safe whole isOne
  · exact safe.expand _ _ whole isOne
  · dsimp only
    split
    case h_1 isNode =>
      rw [isNode] at calleeIs
      exact methodCall_safe safe whole calleeIs (.inl rfl)
    case h_2 isNode =>
      rw [isNode] at calleeIs
      exact methodCall_safe safe whole calleeIs (.inr rfl)
    case h_3 =>
      have folds : Safe (if callee.node.isKind .ident then pure callee
          else Slot.expression walker callee) fun result => result.node.Whole := by
        split
        · exact .of_pure calleeIs
        · exact (Slot.expression_safe safe calleeIs).mono fun _ refolds => refolds.whole
      apply folds.either
      intro newCallee newCalleeIs
      apply (callArguments_safe safe whole isOne).bind
      rintro ⟨args, values⟩ ⟨argsAre, fits⟩
      exact .of_pure (.keep (call_whole whole isOne newCalleeIs argsAre fits))

/-! ### Members -/

theorem readProperty_safe {branch : Branch} {value : Value} {name : Text} :
    Safe (readProperty branch value name) fun found => ∀ node, found = some node → node.Whole := by
  unfold readProperty
  split
  · apply Safe.of_pure
    intro node is
    cases is
    exact Slot.voidZero_whole
  · apply Safe.bind (Safe.of_calculate Property.read_slips)
    intro reading _
    split
    · exact .of_fail
    · exact .of_pure nofun
    · apply (Slot.nodeOf_safe _).bind
      intro literal literalIs
      cases literal with
      | some literal => exact .of_pure literalIs
      | none =>
          apply Safe.of_report.bind
          intro _ _
          exact .of_pure nofun

theorem member_safe (safe : walker.IsSafe)
    (whole : (Node.tree kind flags place children).Whole) (isOne : isLink kind) :
    Safe (member walker ⟨kind, flags, place, children⟩)
      (FoldsWhole (.tree kind flags place children)) := by
  have needs : kind.needs 0 = true := by
    obtain rfl | rfl := isOne <;> rfl
  have notSteady : (Node.tree kind flags place children).isSteady = false := by
    obtain rfl | rfl := isOne <;> rfl
  obtain ⟨object, _, isObject, objectIs, _⟩ := whole.branch needs
  unfold member
  rw [isObject, pure_bind]
  apply (receiver_safe safe objectIs).bind
  intro read readIs
  apply (memberKey_safe safe whole isOne).bind
  rintro ⟨key, name⟩ keyIs
  have kept : Safe (do
      let object ← read.settle walker
      return Branch.keep ⟨kind, flags, place, children⟩ ((children.set 0 object).set 1 key))
      (FoldsWhole (.tree kind flags place children)) := by
    apply (settle_safe safe readIs).bind
    intro newObject newObjectIs
    exact .of_pure (.keep (link_whole whole isOne newObjectIs keyIs))
  dsimp only
  split
  · apply readProperty_safe.bind
    intro found foundIs
    cases found with
    | none => exact kept
    | some node => exact .of_pure (.of_isNew (foundIs node rfl) notSteady)
  · exact kept

end Chain

end ScriptFold
