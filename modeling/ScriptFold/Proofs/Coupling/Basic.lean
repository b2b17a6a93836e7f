import ScriptFold.Fold.Context
import ScriptFold.Fold.Name
import ScriptFold.Proofs.Fold.Meets
import ScriptFold.Proofs.Fold.Returns
import ScriptFold.Proofs.Tree.Placed
import ScriptFold.Tree.Basic

/-!
# Walkers that fold alike

Two walkers are coupled if they fold alike the nodes of at most so many levels and expand
alike the calls of macros.  Every step of folding hands only lower nodes to its walker, so
coupled walkers take the same steps, and the places in what they give are those of the node,
of the fragments that are bound, and of the expansions.
-/

namespace ScriptFold

/-- A tree of at most so many levels, whose places are as wanted. -/
structure Near (fits : Place → Prop) (levels : Nat) (node : Node) : Prop where
  placed : node.Placed fits
  height : node.height ≤ levels

/-- What folding gives has places as wanted. -/
def Folded.Placed (fits : Place → Prop) : Folded → Prop
  | .same node | .instead node => node.Placed fits
  | .statements nodes => ArePlaced fits nodes
  | .removed => True

/-- Walkers with the same bindings that fold and expand alike. -/
structure Coupled (likeness : Likeness) (fits : Place → Prop) (levels : Nat)
    (first second : Walker) : Prop where
  context : first.context = second.context
  fragments : ∀ entry, entry ∈ second.context.fragments → entry.2.Placed fits
  walk : ∀ node, Near fits levels node →
    likeness.alike (first.walk node) (second.walk node) (Folded.Placed fits)
  expand : ∀ call name, call.toNode.Placed fits →
    likeness.alike (first.expand call name) (second.expand call name) (Folded.Placed fits)

variable {likeness : Likeness} {fits : Place → Prop} {levels : Nat} {first second : Walker}
variable {kind : Kind} {flags : Flags} {place : Option Place}

namespace Near

variable {inner : Child Node} {children : List (Child Node)} {branch : Branch}

theorem child (near : Near fits (levels + 1) (.tree kind flags place children))
    (there : inner ∈ children) : Near fits levels inner.node :=
  ⟨near.placed.all inner there,
    Nat.le_of_lt_succ (Nat.lt_of_lt_of_le (height_lt_of_mem there) near.height)⟩

theorem part (near : Near fits (levels + 1) branch.toNode) (there : inner ∈ branch.children) :
    Near fits levels inner.node :=
  near.child there

theorem parts (near : Near fits (levels + 1) branch.toNode) : AllPlaced fits branch.children :=
  near.placed.all

theorem higher {node : Node} (near : Near fits levels node) : Near fits (levels + 1) node :=
  ⟨near.placed, Nat.le_succ_of_le near.height⟩

/-- The same node with other children. -/
theorem keep (near : Near fits (levels + 1) branch.toNode) (all : AllPlaced fits children) :
    (branch.keep children).Placed fits :=
  near.placed.keep all

end Near

theorem Folded.placed_ofNode {node : Node} (placed : node.Placed fits) :
    (Folded.ofNode node).Placed fits := by
  cases node with
  | absent => exact trivial
  | leaf | tree => exact placed

theorem Folded.placed_anywhere (folded : Folded) : folded.Placed fun _ => True := by
  cases folded with
  | same node | «instead» node => exact node.placed_anywhere
  | statements nodes => exact fun node _ => node.placed_anywhere
  | removed => exact trivial

/-- Folding steps that are the same are alike wherever their results were read. -/
theorem Likeness.of_eq {first second : FoldM Folded} (same : first = second) :
    Likeness.equality.alike first second (Folded.Placed fun _ => True) :=
  ⟨same, fun folded _ => folded.placed_anywhere⟩

theorem Likeness.of_child {branch : Branch} {index : Nat} :
    likeness.alike (branch.child index) (branch.child index) (· ∈ branch.children) := by
  unfold Branch.child
  split
  case h_1 child found => exact likeness.of_pure (List.mem_of_getElem? found)
  case h_2 => exact likeness.of_throw

theorem Likeness.of_nodeOf {value : Value} :
    likeness.alike (Slot.nodeOf value) (Slot.nodeOf value)
      fun result => ∀ node, result = some node → node.Placed fits := by
  apply likeness.weaken likeness.of_calculate
  rintro _ written node rfl
  exact makesLiterals_placed.ofValue? written

theorem Outcome.placed_inSeat {outcome : Outcome} (placed : outcome.node.Placed fits)
    (seat : Option Nat) : (outcome.inSeat seat).node.Placed fits := by
  rw [node_inSeat]
  exact placed

namespace Slot

/-! ### Splicing -/

theorem splice_placed {node : Node} (placed : node.Placed fits) : ArePlaced fits (splice node) := by
  refine splice.induct (fun node => node.Placed fits → ArePlaced fits (splice node))
    (fun children => AllPlaced fits children → ArePlaced fits (spliceAll children))
    ?absent ?leaf ?emptyStmt ?program ?emptyBlock ?statement ?expression ?nil ?cons node placed
  case absent | emptyStmt | emptyBlock | nil => simp [splice, spliceAll, ArePlaced]
  case leaf => exact fun token => .single
  case program =>
    intro flags place children induction placed
    exact induction placed.all
  case statement =>
    intro kind flags place children notEmpty notProgram notBlock isStatement placed
    rw [splice]
    · rw [if_pos isStatement]
      exact .single placed
    all_goals assumption
  case expression =>
    intro kind flags place children notEmpty notProgram notBlock notStatement placed
    rw [splice]
    · rw [if_neg notStatement]
      exact .single (.made (.single placed))
    all_goals assumption
  case cons =>
    intro seat node rest nodeIs restAre all
    exact .append (nodeIs all.head) (restAre all.tail)

theorem splices_placed {nodes : List Node} (all : ArePlaced fits nodes) :
    ArePlaced fits (nodes.flatMap splice) := by
  intro node there
  obtain ⟨former, isFormer, there⟩ := List.mem_flatMap.mp there
  exact splice_placed (all former isFormer) node there

theorem spliceFolded_placed {folded : Folded} (placed : folded.Placed fits) (seat : Option Nat) :
    AllPlaced fits (spliceFolded seat folded) := by
  cases folded with
  | removed => exact .nil
  | statements nodes => exact .unseated (splices_placed placed)
  | «instead» node => exact .unseated (splice_placed placed)
  | same node =>
      rw [spliceFolded]
      split
      · exact .cons placed .nil
      · exact .unseated (splice_placed placed)

theorem single_placed {nodes : List Node} (all : ArePlaced fits nodes) :
    (single nodes).Placed fits := by
  unfold single
  split
  · exact .made .nil
  · exact all _ List.mem_cons_self
  · exact .made all

theorem statementOf_placed (seat : Option Nat) (outcome : Outcome)
    (placed : outcome.node.Placed fits) : (statementOf seat outcome).node.Placed fits := by
  have inSeat := Outcome.placed_inSeat placed seat
  unfold statementOf
  split
  · exact .made placed.children
  · split
    · exact inSeat
    · exact .made (.single placed)
  · split
    · exact .made .nil
    · exact inSeat

/-! ### Positions -/

theorem expressionOf_alike {former : Node} {seat : Option Nat} {outcome : Outcome}
    (placed : outcome.node.Placed fits) :
    likeness.alike (expressionOf former seat outcome) (expressionOf former seat outcome)
      fun child => child.node.Placed fits := by
  have inSeat := Outcome.placed_inSeat placed seat
  unfold expressionOf
  split
  · split
    · split
      · apply likeness.bind likeness.of_calculate
        intro inner found
        exact likeness.of_pure (placed.childAt found)
      · exact likeness.of_fail
    · exact likeness.of_pure inSeat
  · exact likeness.of_pure inSeat

theorem expression_alike (coupled : Coupled likeness fits levels first second)
    {child : Child Node} (near : Near fits levels child.node) :
    likeness.alike (expression first child) (expression second child)
      fun child => child.node.Placed fits := by
  unfold expression
  split
  · exact likeness.of_pure near.placed
  · apply likeness.bind (coupled.walk child.node near)
    intro folded placed
    split
    · exact likeness.of_pure voidZero_placed
    · exact likeness.of_pure voidZero_placed
    · exact likeness.of_fail
    · exact expressionOf_alike placed
    · exact expressionOf_alike placed

theorem statement_alike (coupled : Coupled likeness fits levels first second)
    {child : Child Node} (near : Near fits levels child.node) :
    likeness.alike (statement first child) (statement second child)
      fun child => child.node.Placed fits := by
  unfold statement
  split
  · exact likeness.of_pure near.placed
  · apply likeness.bind (coupled.walk child.node near)
    intro folded placed
    split
    · exact likeness.of_pure (.made .nil)
    · exact likeness.of_pure (single_placed (splices_placed placed))
    · exact likeness.of_pure (statementOf_placed _ (.same _) placed)
    · exact likeness.of_pure (statementOf_placed _ (.instead _) placed)

theorem anyNode_alike (coupled : Coupled likeness fits levels first second)
    {child : Child Node} (near : Near fits levels child.node) :
    likeness.alike (anyNode first child) (anyNode second child)
      fun child => child.node.Placed fits := by
  unfold anyNode
  apply likeness.bind (coupled.walk child.node near)
  intro folded placed
  split
  · exact likeness.of_pure placed
  · exact likeness.of_pure placed
  · exact likeness.of_pure .absent
  · exact likeness.of_throw

theorem statements_alike (coupled : Coupled likeness fits levels first second)
    {children : List (Child Node)}
    (near : ∀ child, child ∈ children → Near fits levels child.node) :
    likeness.alike (statements first children) (statements second children) (AllPlaced fits) := by
  induction children with
  | nil => exact likeness.of_pure .nil
  | cons child rest induction =>
      rw [List.forall_mem_cons] at near
      apply likeness.bind (coupled.walk child.node near.1)
      intro folded placed
      apply likeness.bind (induction near.2)
      intro others othersAre
      exact likeness.of_pure (.append (spliceFolded_placed placed _) othersAre)

section Lists

variable {branch : Branch}

private theorem anyChild_alike (coupled : Coupled likeness fits levels first second) {child
    : Child Node}
    (near : Near fits levels child.node) :
    likeness.alike
      (match child.node.kind? with
        | none => pure child
        | some kind => if kind.isStatement then statement first child else expression first child)
      (match child.node.kind? with
        | none => pure child
        | some kind =>
            if kind.isStatement then statement second child else expression second child)
      fun child => child.node.Placed fits := by
  split
  · exact likeness.of_pure near.placed
  · split
    · exact statement_alike coupled near
    · exact expression_alike coupled near

theorem everyChild_alike (coupled : Coupled likeness fits levels first second)
    (near : Near fits (levels + 1) branch.toNode) :
    likeness.alike (everyChild first branch) (everyChild second branch) (Folded.Placed fits) := by
  apply likeness.bind (likeness.mapM fun _ there => anyChild_alike coupled (near.part there))
  intro children all
  exact likeness.of_pure (near.keep all)

theorem statementList_alike (coupled : Coupled likeness fits levels first second)
    (near : Near fits (levels + 1) branch.toNode) :
    likeness.alike (statementList first branch) (statementList second branch)
      (Folded.Placed fits) := by
  unfold statementList
  split
  · split
    case h_1 test rest isChildren =>
      have among : ∀ child, child ∈ test :: rest → Near fits levels child.node := by
        intro child there
        exact near.part (isChildren ▸ there)
      rw [List.forall_mem_cons] at among
      apply likeness.bind (expression_alike coupled among.1)
      intro folded placed
      apply likeness.bind (statements_alike coupled among.2)
      intro others othersAre
      exact likeness.of_pure (near.keep (.cons placed othersAre))
    case h_2 => exact likeness.of_throw
  · apply likeness.bind (statements_alike coupled fun child there => near.part there)
    intro children all
    exact likeness.of_pure (near.keep all)

end Lists

theorem unwrapBlock_alike {node : Node} (placed : node.Placed fits) :
    likeness.alike (unwrapBlock node) (unwrapBlock node) (Folded.Placed fits) := by
  unfold unwrapBlock
  split
  · exact likeness.of_pure trivial
  · exact likeness.of_pure trivial
  · apply likeness.after
    intro declares
    apply likeness.of_pure
    split
    · exact placed
    · exact placed.children
  · exact likeness.of_pure placed

end Slot

namespace Name

theorem unwrapStatement_placed {node inner : Node} (placed : node.Placed fits)
    (found : unwrapStatement node = .ok inner) : inner.Placed fits := by
  unfold unwrapStatement at found
  split at found
  · exact placed.childAt found
  · cases found
    exact placed

private theorem insertable_placed {fragment : Node} {folded : Folded} (placed
    : fragment.Placed fits)
    (found : insertable fragment = .ok folded) : folded.Placed fits := by
  have copied := placed.copy
  unfold insertable at found
  dsimp only at found
  split at found
  · split at found
    case h_1 =>
      cases found
      exact trivial
    case h_2 single isSingle =>
      obtain ⟨inner, isInner, found⟩ := Calculation.of_bind_eq_ok found
      cases found
      have among : ArePlaced fits [single] := isSingle ▸ copied.children
      exact Folded.placed_ofNode
        (unwrapStatement_placed (among single List.mem_cons_self) isInner)
    case h_3 =>
      cases found
      exact copied.children
  · obtain ⟨inner, isInner, found⟩ := Calculation.of_bind_eq_ok found
    cases found
    exact Folded.placed_ofNode (unwrapStatement_placed copied isInner)

theorem fold_alike (coupled : Coupled likeness fits levels first second) {branch : Branch}
    (near : Near fits (levels + 1) branch.toNode) :
    likeness.alike (fold first branch) (fold second branch) (Folded.Placed fits) := by
  unfold fold
  rw [coupled.context]
  dsimp only
  split
  · exact likeness.of_pure near.placed
  · apply likeness.after
    intro _
    split
    case h_1 _ fragment isFragment =>
      apply likeness.weaken likeness.of_calculate
      intro folded found
      have fragmentIs := coupled.fragments _ (Table.mem_of_lookup isFragment)
      exact insertable_placed fragmentIs found
    case h_2 =>
      apply likeness.bind likeness.of_nodeOf
      intro literal placed
      split
      · exact likeness.of_pure (placed _ rfl)
      · apply likeness.after
        intro _
        exact likeness.of_pure near.placed
    case h_3 => exact likeness.of_pure near.placed

end Name

end ScriptFold
