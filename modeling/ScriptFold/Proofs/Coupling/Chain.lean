import ScriptFold.Fold.Chain
import ScriptFold.Proofs.Coupling.Basic

/-!
# Calls and members under coupled walkers

An object that is bound to a value is looked at before it is folded, so it is carried along
as it was read until the read turns out to stay.
-/

namespace ScriptFold

variable {likeness : Likeness} {fits : Place → Prop} {levels : Nat} {first second : Walker}
variable {branch : Branch}

namespace Chain

private theorem argument_alike (coupled : Coupled likeness fits levels first second)
    {child : Child Node} (near : Near fits levels child.node) :
    likeness.alike (argument first child) (argument second child)
      fun result => result.1.node.Placed fits := by
  unfold argument
  split
  case h_1 flags place inner rest isSpread =>
    rw [isSpread] at near
    apply likeness.bind
      (Slot.expression_alike coupled (near.higher.child List.mem_cons_self))
    intro inner innerIs
    exact likeness.of_pure (near.placed.keep (.cons innerIs near.placed.all.tail))
  case h_2 => exact likeness.of_throw
  case h_3 =>
    apply likeness.bind (Slot.expression_alike coupled near)
    intro folded placed
    apply likeness.after
    intro value
    exact likeness.of_pure placed

private theorem arguments_alike (coupled : Coupled likeness fits levels first second)
    {children : List (Child Node)}
    (near : ∀ child, child ∈ children → Near fits levels child.node) :
    likeness.alike (arguments first children) (arguments second children)
      fun result => AllPlaced fits result.1 := by
  induction children with
  | nil => exact likeness.of_pure .nil
  | cons child rest induction =>
      rw [List.forall_mem_cons] at near
      apply likeness.bind (argument_alike coupled near.1)
      intro result resultIs
      apply likeness.bind (induction near.2)
      intro others othersAre
      exact likeness.of_pure (.cons resultIs othersAre)

theorem callArguments_alike (coupled : Coupled likeness fits levels first second)
    (near : Near fits (levels + 1) branch.toNode) :
    likeness.alike (callArguments first branch) (callArguments second branch)
      fun result => result.1.node.Placed fits := by
  apply likeness.bind likeness.of_child
  intro args there
  have argsAre := near.part there
  split
  case h_1 kind flags place children isTree =>
    rw [isTree] at argsAre
    apply likeness.bind
      (arguments_alike coupled fun child there => argsAre.higher.child there)
    intro result resultIs
    exact likeness.of_pure (argsAre.placed.keep resultIs)
  case h_2 => exact likeness.of_pure argsAre.placed
  case h_3 => exact likeness.of_throw

theorem callFunction_alike (coupled : Coupled likeness fits levels first second) {name : Text}
    {hostName : String} (near : Near fits (levels + 1) branch.toNode) :
    likeness.alike (callFunction first branch name hostName)
      (callFunction second branch name hostName) (Folded.Placed fits) := by
  unfold callFunction
  rw [coupled.context]
  apply likeness.bind (callArguments_alike coupled near)
  intro result _
  dsimp only
  split
  · exact likeness.of_fail
  · apply likeness.after
    intro value
    apply likeness.bind likeness.of_nodeOf
    intro literal literalIs
    split
    · exact likeness.of_pure (literalIs _ rfl)
    · exact likeness.of_fail

theorem callMethod_eq (coupled : Coupled likeness fits levels first second) (node : Node)
    (receiver : Value) (name : Text) (values : List (Option Value)) :
    callMethod first node receiver name values = callMethod second node receiver name values := by
  unfold callMethod
  rw [coupled.context]

theorem memberKey_alike (coupled : Coupled likeness fits levels first second)
    (near : Near fits (levels + 1) branch.toNode) :
    likeness.alike (memberKey first branch) (memberKey second branch)
      fun result => result.1.node.Placed fits := by
  apply likeness.bind likeness.of_child
  intro key there
  have keyIs := near.part there
  split
  · apply likeness.of_pure
    split
    · exact keyIs.placed
    · exact keyIs.placed
  · apply likeness.bind (Slot.expression_alike coupled keyIs)
    intro key placed
    apply likeness.after
    intro value
    split
    · exact likeness.of_pure placed
    · apply likeness.after
      intro name
      exact likeness.of_pure placed

/-- The object of a read is folded or still as low as it was. -/
def Receiver.Ready (fits : Place → Prop) (levels : Nat) (read : Receiver) : Prop :=
  if read.isFolded then read.object.node.Placed fits else Near fits levels read.object.node

theorem receiver_alike (coupled : Coupled likeness fits levels first second)
    {object : Child Node} (near : Near fits levels object.node) :
    likeness.alike (receiver first object) (receiver second object)
      (Receiver.Ready fits levels) := by
  unfold receiver
  rw [coupled.context]
  apply likeness.after
  intro known
  split
  · exact likeness.of_pure near
  · apply likeness.bind (Slot.expression_alike coupled near)
    intro folded placed
    apply likeness.after
    intro value
    exact likeness.of_pure placed

private theorem settle_alike (coupled : Coupled likeness fits levels first second) {read : Receiver}
    (ready : read.Ready fits levels) :
    likeness.alike (read.settle first) (read.settle second)
      fun child => child.node.Placed fits := by
  unfold Receiver.settle
  unfold Receiver.Ready at ready
  split
  case isTrue isFolded =>
    rw [if_pos isFolded] at ready
    exact likeness.of_pure ready
  case isFalse notFolded =>
    rw [if_neg notFolded] at ready
    exact Slot.expression_alike coupled ready

/-- A link of a chain that stays, with its object and its key. -/
theorem kept_alike (coupled : Coupled likeness fits levels first second)
    (rebuild : Node → Folded) {read : Receiver} {key : Child Node} (ready : read.Ready fits levels)
    (near : Near fits (levels + 1) branch.toNode) (keyIs : key.node.Placed fits)
    (rebuilt : ∀ node : Node, node.Placed fits → (rebuild node).Placed fits) :
    likeness.alike
      (do
        let object ← read.settle first
        return rebuild (.tree branch.kind branch.flags branch.place
          ((branch.children.set 0 object).set 1 key)))
      (do
        let object ← read.settle second
        return rebuild (.tree branch.kind branch.flags branch.place
          ((branch.children.set 0 object).set 1 key)))
      (Folded.Placed fits) := by
  apply likeness.bind (settle_alike coupled ready)
  intro object objectIs
  exact likeness.of_pure
    (rebuilt _ (near.placed.keep ((near.parts.set objectIs).set keyIs)))

theorem methodCall_alike (coupled : Coupled likeness fits levels first second)
    {callee : Child Node} (link : Branch) (near : Near fits (levels + 1) branch.toNode)
    (linkIs : Near fits (levels + 1) link.toNode) :
    likeness.alike (methodCall first branch callee link) (methodCall second branch callee link)
      (Folded.Placed fits) := by
  unfold methodCall
  apply likeness.bind likeness.of_child
  intro object there
  apply likeness.bind (receiver_alike coupled (linkIs.part there))
  intro read ready
  apply likeness.bind (memberKey_alike coupled linkIs)
  intro key keyIs
  apply likeness.bind (callArguments_alike coupled near)
  intro args argsAre
  have kept := kept_alike coupled
    (fun link => branch.keep ((branch.children.set 0 ⟨callee.seat, link⟩).set 1 args.1))
    ready linkIs keyIs fun link linkIs => near.keep ((near.parts.set linkIs).set argsAre)
  dsimp only
  split
  · rw [callMethod_eq coupled]
    apply likeness.after
    intro result
    split
    · apply likeness.bind likeness.of_nodeOf
      intro literal literalIs
      split
      · exact likeness.of_pure (literalIs _ rfl)
      · exact likeness.of_fail
    · exact kept
  · exact kept

theorem call_alike (coupled : Coupled likeness fits levels first second)
    (near : Near fits (levels + 1) branch.toNode) :
    likeness.alike (call first branch) (call second branch) (Folded.Placed fits) := by
  unfold call
  rw [coupled.context]
  apply likeness.bind likeness.of_child
  intro callee there
  have calleeIs := near.part there
  split
  · exact callFunction_alike coupled near
  · exact coupled.expand branch _ near.placed
  · split
    case h_1 flags place children _ isMember =>
      rw [isMember] at calleeIs
      exact methodCall_alike coupled ⟨.member, flags, place, children⟩ near calleeIs.higher
    case h_2 flags place children _ isSubscript =>
      rw [isSubscript] at calleeIs
      exact methodCall_alike coupled ⟨.subscript, flags, place, children⟩ near calleeIs.higher
    case h_3 =>
      have calleeOf : likeness.alike
          (if callee.node.isKind .ident then pure callee else Slot.expression first callee)
          (if callee.node.isKind .ident then pure callee else Slot.expression second callee)
          fun child => child.node.Placed fits := by
        split
        · exact likeness.of_pure calleeIs.placed
        · exact Slot.expression_alike coupled calleeIs
      apply likeness.either calleeOf
      intro callee calleeIs
      apply likeness.bind (callArguments_alike coupled near)
      intro args argsAre
      exact likeness.of_pure (near.keep ((near.parts.set calleeIs).set argsAre))

private theorem readProperty_alike {value : Value} {name : Text} :
    likeness.alike (readProperty branch value name) (readProperty branch value name)
      fun result => ∀ node, result = some node → node.Placed fits := by
  unfold readProperty
  split
  · apply likeness.of_pure
    intro node is
    cases is
    exact voidZero_placed
  · apply likeness.after
    intro property
    split
    · exact likeness.of_fail
    · exact likeness.of_pure nofun
    · apply likeness.bind likeness.of_nodeOf
      intro literal literalIs
      split
      · exact likeness.of_pure literalIs
      · apply likeness.after
        intro _
        exact likeness.of_pure nofun

theorem member_alike (coupled : Coupled likeness fits levels first second)
    (near : Near fits (levels + 1) branch.toNode) :
    likeness.alike (member first branch) (member second branch) (Folded.Placed fits) := by
  unfold member
  apply likeness.bind likeness.of_child
  intro object there
  apply likeness.bind (receiver_alike coupled (near.part there))
  intro read ready
  apply likeness.bind (memberKey_alike coupled near)
  intro key keyIs
  have kept := kept_alike coupled .same ready near keyIs fun _ placed => placed
  dsimp only
  split
  · apply likeness.bind readProperty_alike
    intro found foundIs
    split
    · exact likeness.of_pure (foundIs _ rfl)
    · exact kept
  · exact kept

end Chain

end ScriptFold
