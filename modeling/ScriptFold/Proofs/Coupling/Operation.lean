import ScriptFold.Fold.Operation
import ScriptFold.Proofs.Coupling.Basic

/-!
# Operators under coupled walkers

What an operation comes down to is one of its folded operands, a literal, or the operation
with its folded operands.
-/

namespace ScriptFold

variable {likeness : Likeness} {fits : Place → Prop} {levels : Nat} {first second : Walker}
variable {branch : Branch}

namespace Operation

theorem replaceBy_alike {result : Folded} {value : Value} (placed : result.Placed fits) :
    likeness.alike (replaceBy result value) (replaceBy result value) (Folded.Placed fits) := by
  apply likeness.bind likeness.of_nodeOf
  intro literal literalIs
  apply likeness.of_pure
  split
  · exact literalIs _ rfl
  · exact placed

theorem foldBinaryValues_alike {node : Node} {result : Folded} {op : Text} {left right : Value}
    (placed : result.Placed fits) :
    likeness.alike (foldBinaryValues node result op left right)
      (foldBinaryValues node result op left right) (Folded.Placed fits) := by
  unfold foldBinaryValues
  split
  · apply likeness.after
    intro found
    split
    · exact replaceBy_alike placed
    · exact likeness.of_pure placed
  · split
    · exact likeness.of_pure placed
    · split
      · apply likeness.after
        intro value
        exact replaceBy_alike placed
      · apply likeness.after
        intro _
        exact likeness.of_pure placed

/-- Three children in a row. -/
theorem forall_mem_three {holds : Child Node → Prop} {left middle right : Child Node}
    (all : ∀ child, child ∈ [left, middle, right] → holds child) :
    holds left ∧ holds middle ∧ holds right := by
  simpa using all

theorem foldBinary_alike (coupled : Coupled likeness fits levels first second)
    (near : Near fits (levels + 1) branch.toNode) :
    likeness.alike (foldBinary first branch) (foldBinary second branch) (Folded.Placed fits) := by
  unfold foldBinary
  split
  case h_1 left op right isChildren =>
    have among : ∀ child, child ∈ [left, op, right] → Near fits levels child.node :=
      fun child there => near.part (isChildren ▸ there)
    obtain ⟨leftIs, opIs, rightIs⟩ := forall_mem_three among
    apply likeness.bind (Slot.expression_alike coupled leftIs)
    intro left leftIs
    apply likeness.bind (Slot.expression_alike coupled rightIs)
    intro right rightIs
    have kept := near.keep (.cons leftIs (.cons opIs.placed (.cons rightIs .nil)))
    apply likeness.after
    intro leftValue
    apply likeness.after
    intro rightValue
    split
    · exact foldBinaryValues_alike kept
    · exact likeness.of_pure kept
  case h_2 => exact likeness.of_throw

/-- What is left of two nodes is one of them. -/
theorem fromLeft_alike {op : Text} {left right : Node} (leftIs : left.Placed fits)
    (rightIs : right.Placed fits) :
    likeness.alike (fromLeft op left right) (fromLeft op left right)
      fun result => ∀ node, result = some node → node.Placed fits := by
  have either : ∀ condition : Bool, ∀ node,
      some (if condition then right else left) = some node → node.Placed fits := by
    intro condition node is
    cases is
    cases condition
    · exact leftIs
    · exact rightIs
  unfold fromLeft
  apply likeness.after
  intro value
  split
  · exact likeness.of_pure nofun
  · split
    · exact likeness.of_pure (either _)
    · split
      · apply likeness.of_pure
        intro node is
        cases is
        split
        · exact leftIs
        · exact rightIs
      · split
        · exact likeness.of_pure (either _)
        · exact likeness.of_pure nofun

theorem foldLogical_alike (coupled : Coupled likeness fits levels first second)
    (near : Near fits (levels + 1) branch.toNode) :
    likeness.alike (foldLogical first branch) (foldLogical second branch)
      (Folded.Placed fits) := by
  unfold foldLogical
  apply likeness.bind likeness.of_child
  intro left there
  apply likeness.bind (Slot.expression_alike coupled (near.part there))
  intro left leftIs
  apply likeness.bind likeness.of_child
  intro right there
  apply likeness.bind (Slot.expression_alike coupled (near.part there))
  intro right rightIs
  split
  case h_1 _ op _ isChildren =>
    apply likeness.bind (fromLeft_alike leftIs rightIs)
    intro result resultIs
    split
    · exact likeness.of_pure (Folded.placed_ofNode (resultIs _ rfl))
    · have opIs : op.node.Placed fits := near.parts op (by simp [isChildren])
      exact likeness.of_pure (near.keep (.cons leftIs (.cons opIs (.cons rightIs .nil))))
  case h_2 => exact likeness.of_throw

private theorem fromRight_alike {op : Text} {left right : Node} (leftIs : left.Placed fits)
    (rightIs : right.Placed fits) :
    likeness.alike (fromRight op left right) (fromRight op left right)
      fun result => ∀ node, result = some node → node.Placed fits := by
  unfold fromRight
  apply likeness.after
  intro value
  split
  · exact likeness.of_pure nofun
  · split
    · apply likeness.of_pure
      intro node is
      cases is
      exact leftIs
    · apply likeness.after
      intro isPure
      apply likeness.of_pure
      intro node is
      split at is <;> cases is
      exact rightIs

theorem reduceLogical_alike {left op right : Child Node}
    (placed : branch.toNode.Placed fits) (leftIs : left.node.Placed fits)
    (opIs : op.node.Placed fits) (rightIs : right.node.Placed fits) :
    likeness.alike (reduceLogical branch left op right) (reduceLogical branch left op right)
      fun outcome => outcome.node.Placed fits := by
  unfold reduceLogical
  apply likeness.bind (fromLeft_alike leftIs rightIs)
  intro result resultIs
  split
  · exact likeness.of_pure (resultIs _ rfl)
  · apply likeness.bind (fromRight_alike leftIs rightIs)
    intro result resultIs
    split
    · exact likeness.of_pure (resultIs _ rfl)
    · exact likeness.of_pure (placed.keep (.cons leftIs (.cons opIs (.cons rightIs .nil))))

private theorem negated_alike {result operand : Node} (placed : result.Placed fits) :
    likeness.alike (negated result operand) (negated result operand)
      fun outcome => outcome.node.Placed fits := by
  unfold negated
  apply likeness.after
  intro value
  split
  · apply likeness.bind likeness.of_nodeOf
    intro literal literalIs
    apply likeness.of_pure
    split
    · exact literalIs _ rfl
    · exact placed
  · exact likeness.of_pure placed

theorem reduce_alike {node : Node} (placed : node.Placed fits) :
    likeness.alike (reduce node) (reduce node) fun outcome => outcome.node.Placed fits := by
  induction node using reduce.induct
  case case1 flags place seat inner rest induction =>
    apply likeness.bind (induction placed.all.head)
    intro outcome outcomeIs
    apply likeness.after
    intro isPrimitive
    split
    · exact likeness.of_pure outcomeIs
    · exact likeness.of_pure
        (placed.keep (.cons (Outcome.placed_inSeat outcomeIs seat) placed.all.tail))
  case case2 => exact likeness.of_throw
  case case3 flags place op seat operand rest induction =>
    have opIs := placed.all.head
    have operandIs := placed.all.tail.head
    have restAre := placed.all.tail.tail
    apply likeness.after
    intro word
    split
    · exact likeness.of_pure placed
    · apply likeness.bind (induction operandIs)
      intro outcome outcomeIs
      exact negated_alike
        (placed.keep (.cons opIs (.cons (Outcome.placed_inSeat outcomeIs seat) restAre)))
  case case4 =>
    rw [reduce]
    · apply likeness.after
      intro word
      split
      · exact likeness.of_throw
      · exact likeness.of_pure placed
    all_goals assumption
  case case5 flags place leftSeat left op rightSeat right rest leftInduction rightInduction =>
    have leftIs := placed.all.head
    have opIs := placed.all.tail.head
    have rightIs := placed.all.tail.tail.head
    apply likeness.after
    intro word
    split
    · exact likeness.of_pure placed
    · apply likeness.bind (leftInduction leftIs)
      intro left leftIs
      apply likeness.bind (rightInduction rightIs)
      intro right rightIs
      split
      · exact likeness.of_throw
      · exact reduceLogical_alike (placed.keep .nil) (Outcome.placed_inSeat leftIs leftSeat) opIs
          (Outcome.placed_inSeat rightIs rightSeat)
  case case6 flags place seat left rest _ induction =>
    rw [reduce]
    · apply likeness.after
      intro word
      split
      · exact likeness.of_pure placed
      · apply likeness.bind (induction placed.all.head)
        intro outcome _
        exact likeness.of_throw
    all_goals assumption
  case case7 => exact likeness.of_throw
  case case8 =>
    rw [reduce]
    · exact likeness.of_pure placed
    all_goals assumption

theorem test_alike (coupled : Coupled likeness fits levels first second) {child : Child Node}
    (near : Near fits levels child.node) :
    likeness.alike (test first child) (test second child) fun child => child.node.Placed fits := by
  apply likeness.bind (Slot.expression_alike coupled near)
  intro folded placed
  apply likeness.bind (reduce_alike placed)
  intro outcome outcomeIs
  exact likeness.of_pure (Outcome.placed_inSeat outcomeIs folded.seat)

theorem applyUnary_alike {op : Text} {operand : Child Node}
    (near : Near fits (levels + 1) branch.toNode) (placed : operand.node.Placed fits) :
    likeness.alike (applyUnary branch op operand) (applyUnary branch op operand)
      (Folded.Placed fits) := by
  have kept : (branch.keep (branch.children.set 1 operand)).Placed fits :=
    near.keep (near.parts.set placed)
  unfold applyUnary
  apply likeness.after
  intro value
  split
  · exact likeness.of_pure kept
  · split
    · dsimp only
      split
      · exact likeness.of_pure kept
      · exact likeness.of_pure (near.keep (near.parts.set (ofWord_placed _ _)))
    · split
      · apply likeness.after
        intro result
        exact replaceBy_alike kept
      · apply likeness.after
        intro _
        exact likeness.of_pure kept

theorem foldUnary_alike {op : Text} (coupled : Coupled likeness fits levels first second)
    (near : Near fits (levels + 1) branch.toNode) :
    likeness.alike (foldUnary first branch op) (foldUnary second branch op)
      (Folded.Placed fits) := by
  unfold foldUnary
  apply likeness.bind likeness.of_child
  intro operand there
  have operandIs := near.part there
  split
  · apply likeness.bind (test_alike coupled operandIs)
    intro folded placed
    exact applyUnary_alike near placed
  · apply likeness.bind (Slot.expression_alike coupled operandIs)
    intro folded placed
    exact applyUnary_alike near placed

theorem foldParen_alike (coupled : Coupled likeness fits levels first second)
    (near : Near fits (levels + 1) branch.toNode) :
    likeness.alike (foldParen first branch) (foldParen second branch) (Folded.Placed fits) := by
  apply likeness.bind likeness.of_child
  intro inner there
  apply likeness.bind (Slot.expression_alike coupled (near.part there))
  intro folded placed
  apply likeness.after
  intro isPrimitive
  split
  · exact likeness.of_pure placed
  · exact likeness.of_pure (near.keep (near.parts.set placed))

/-- Parts that are alike stay alike behind one more. -/
theorem pieceThen_alike {later others : FoldM (List (Child Node) × Option Text)}
    (alike : likeness.alike later others fun result => AllPlaced fits result.1)
    {folded : Child Node} (placed : folded.node.Placed fits) (piece : Option Text) :
    likeness.alike
      (do
        let (children, text) ← later
        return (folded :: children, do return (← piece) ++ (← text)))
      (do
        let (children, text) ← others
        return (folded :: children, do return (← piece) ++ (← text)))
      fun result => AllPlaced fits result.1 := by
  apply likeness.bind alike
  intro results are
  exact likeness.of_pure (.cons placed are)

private theorem foldPieces_alike (coupled : Coupled likeness fits levels first second) {index : Nat}
    {children : List (Child Node)}
    (near : ∀ child, child ∈ children → Near fits levels child.node) :
    likeness.alike (foldPieces first index children) (foldPieces second index children)
      fun result => AllPlaced fits result.1 := by
  induction children generalizing index with
  | nil => exact likeness.of_pure .nil
  | cons child rest induction =>
      rw [List.forall_mem_cons] at near
      unfold foldPieces
      split
      · apply likeness.after
        intro piece
        apply likeness.bind (induction near.2)
        intro others othersAre
        exact likeness.of_pure (.cons near.1.placed othersAre)
      · apply likeness.bind (Slot.expression_alike coupled near.1)
        intro folded placed
        apply likeness.after
        intro value
        dsimp only
        split
        · apply likeness.after
          intro text
          exact pieceThen_alike (induction near.2) placed (some text)
        · exact pieceThen_alike (induction near.2) placed none

theorem foldTemplate_alike (coupled : Coupled likeness fits levels first second)
    (near : Near fits (levels + 1) branch.toNode) :
    likeness.alike (foldTemplate first branch) (foldTemplate second branch)
      (Folded.Placed fits) := by
  unfold foldTemplate
  apply likeness.bind (foldPieces_alike coupled fun child there => near.part there)
  intro result resultIs
  have kept := near.keep resultIs
  dsimp only
  split
  · split
    · exact likeness.of_pure kept
    · exact replaceBy_alike kept
  · exact likeness.of_pure kept

theorem foldTagged_alike (coupled : Coupled likeness fits levels first second)
    (near : Near fits (levels + 1) branch.toNode) :
    likeness.alike (foldTagged first branch) (foldTagged second branch) (Folded.Placed fits) := by
  unfold foldTagged
  apply likeness.bind likeness.of_child
  intro tag there
  apply likeness.bind (Slot.expression_alike coupled (near.part there))
  intro tag tagIs
  apply likeness.bind likeness.of_child
  intro quasi there
  have quasiIs := near.part there
  split
  case h_1 kind flags place parts isQuasi =>
    rw [isQuasi] at quasiIs
    have each : ∀ item, item ∈ parts.zipIdx → likeness.alike
        (if item.2 % 2 = 1 then Slot.expression first item.1 else pure item.1)
        (if item.2 % 2 = 1 then Slot.expression second item.1 else pure item.1)
        fun child => child.node.Placed fits := by
      intro item there
      have partIs := quasiIs.higher.child (List.fst_mem_of_mem_zipIdx there)
      split
      · exact Slot.expression_alike coupled partIs
      · exact likeness.of_pure partIs.placed
    apply likeness.bind (likeness.mapM each)
    intro parts partsAre
    exact likeness.of_pure
      (near.keep ((near.parts.set tagIs).set (quasiIs.placed.keep partsAre)))
  case h_2 => exact likeness.of_throw

end Operation

end ScriptFold
