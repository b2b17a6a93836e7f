import ScriptFold.Proofs.Coupling.Walk

/-!
# Depths of expansion

A script is folded at depth zero, and what a macro expands to one deeper than its call.  A
round folds one node at one depth, given how all others are folded; it looks only at lower
nodes of the same depth and, below the limit, at the next depth.  So rounds have just one
solution, no depth beyond the limit takes part in it, and whatever would be done at the
limit, the fold is the same or has failed there.
-/

namespace ScriptFold

namespace Fold

/-- How trees are folded at every depth. -/
abbrev DepthFold := Nat → Context → Node → FoldM Folded

/-- Refuse to expand a macro. -/
def tooDeep : Expander := fun context call name =>
  FoldM.fail (.expansionTooDeep name context.depthLimit) call.toNode

/-- How a call is expanded with a number of expansions left. -/
def expandWithin : (left : Nat) → Expander
  | 0 => tooDeep
  | left + 1 => expandWith (foldWithin left)

theorem foldWithin_eq_walk (left : Nat) (context : Context) (node : Node) :
    foldWithin left context node = walk context (expandWithin left) node := by
  cases left <;> rfl

/-- Expand a call at a depth, one deeper unless the limit is reached. -/
def expandAt (limit : Nat) (refuse : Expander) (fold : DepthFold) (depth : Nat) : Expander :=
  if depth < limit then expandWith (fold (depth + 1)) else refuse

/-- Fold one node at a depth, given how all others are folded. -/
def round (limit : Nat) (refuse : Expander) (fold : DepthFold) (depth : Nat)
    (context : Context) : Node → FoldM Folded
  | .tree kind flags place children =>
      FoldM.locating (.tree kind flags place children)
        (step ⟨context, expandAt limit refuse fold depth context, fold depth context⟩
          ⟨kind, flags, place, children⟩)
  | node => pure (.same node)

/-- A fold that goes by rounds up to the limit.  Nothing is said about greater depths. -/
def GoesByRounds (limit : Nat) (refuse : Expander) (fold : DepthFold) : Prop :=
  ∀ depth, depth ≤ limit → ∀ context node,
    fold depth context node = round limit refuse fold depth context node

/-- A node that folding another one may lead to: one at a greater depth, or a lower one at
the same depth. -/
def Before (limit : Nat) (inner outer : Nat × Node) : Prop :=
  (outer.1 < inner.1 ∧ inner.1 ≤ limit) ∨
    (inner.1 = outer.1 ∧ inner.2.height < outer.2.height)

theorem before_wellFounded (limit : Nat) : WellFounded (Before limit) := by
  have lexicographic : WellFounded (Prod.Lex (· < ·) (· < ·) : Nat × Nat → Nat × Nat → Prop) :=
    (Prod.lex ⟨_, Nat.lt_wfRel.wf⟩ ⟨_, Nat.lt_wfRel.wf⟩).wf
  refine Subrelation.wf ?_
    (InvImage.wf (fun pair : Nat × Node => (limit - pair.1, pair.2.height)) lexicographic)
  rintro ⟨innerDepth, inner⟩ ⟨outerDepth, outer⟩ (⟨deeper, within⟩ | ⟨same, lower⟩)
  · apply Prod.Lex.left
    dsimp only at deeper within
    omega
  · obtain rfl : innerDepth = outerDepth := same
    exact Prod.Lex.right _ lower

/-- Folds that are the same on the nodes before one go through its round alike. -/
theorem round_congr {limit : Nat} {refuse : Expander} {fold other : DepthFold} {depth : Nat}
    {node : Node} (context : Context)
    (same : ∀ pair, Before limit pair (depth, node) → ∀ context,
      fold pair.1 context pair.2 = other pair.1 context pair.2) :
    round limit refuse fold depth context node = round limit refuse other depth context node := by
  cases node with
  | absent | leaf => rfl
  | tree kind flags place children =>
      have expands : expandAt limit refuse fold depth = expandAt limit refuse other depth := by
        unfold expandAt
        split
        case isTrue below =>
          have deeper : fold (depth + 1) = other (depth + 1) := by
            funext context node
            exact same (depth + 1, node) (.inl ⟨Nat.lt_succ_self depth, below⟩) context
          rw [deeper]
        case isFalse => rfl
      have coupled : Coupled .equality (fun _ => True) (Node.heightAll children)
          ⟨context, expandAt limit refuse fold depth context, fold depth context⟩
          ⟨context, expandAt limit refuse other depth context, other depth context⟩ := by
        refine ⟨rfl, fun entry _ => entry.2.placed_anywhere, fun node near => ?_,
          fun call name _ => Likeness.of_eq (by rw [expands])⟩
        refine Likeness.of_eq (same (depth, node) (.inr ⟨rfl, ?_⟩) context)
        exact Nat.lt_succ_of_le near.height
      rw [round, round]
      congr 1
      exact (step_alike coupled _ ⟨Node.placed_anywhere _, Nat.le_refl _⟩).1

/-- Folding with a number of expansions left, and something else to do when none is. -/
def foldBy (refuse : Expander) : (left : Nat) → Context → Node → FoldM Folded
  | 0, context, node => walk context refuse node
  | left + 1, context, node => walk context (expandWith (foldBy refuse left)) node

theorem foldBy_tooDeep (left : Nat) : foldBy tooDeep left = foldWithin left := by
  induction left with
  | zero => rfl
  | succ left induction =>
      funext context node
      rw [foldBy, foldWithin, induction]

private theorem walk_eq_round {limit depth : Nat} {refuse : Expander} (fold : DepthFold)
    {context : Context}
    (walks : fold depth context = walk context (expandAt limit refuse fold depth))
    (node : Node) : fold depth context node = round limit refuse fold depth context node := by
  cases node with
  | absent | leaf =>
      rw [walks]
      rfl
  | tree kind flags place children => rw [round, walks, walk_tree]

/-- Folding with the expansions that are left at a depth goes by rounds. -/
theorem foldBy_goesByRounds (limit : Nat) (refuse : Expander) :
    GoesByRounds limit refuse fun depth => foldBy refuse (limit - depth) := by
  intro depth within context node
  have walks : foldBy refuse (limit - depth) context =
      walk context (expandAt limit refuse (fun depth => foldBy refuse (limit - depth)) depth) := by
    funext node
    by_cases below : depth < limit
    · have left : limit - depth = limit - (depth + 1) + 1 := by omega
      rw [expandAt, if_pos below, left, foldBy]
    · have left : limit - depth = 0 := by omega
      rw [expandAt, if_neg below, left, foldBy]
  exact walk_eq_round (fun depth => foldBy refuse (limit - depth)) walks node

/-- There is only one way to go by rounds. -/
theorem GoesByRounds.unique {limit : Nat} {refuse : Expander} {fold other : DepthFold}
    (goes : GoesByRounds limit refuse fold) (otherGoes : GoesByRounds limit refuse other)
    {depth : Nat} (within : depth ≤ limit) (context : Context) (node : Node) :
    fold depth context node = other depth context node := by
  have all : ∀ pair : Nat × Node, pair.1 ≤ limit → ∀ context,
      fold pair.1 context pair.2 = other pair.1 context pair.2 := by
    intro pair
    induction pair using (before_wellFounded limit).induction with
    | h outer induction =>
        intro within context
        rw [goes outer.1 within, otherGoes outer.1 within]
        apply round_congr
        intro inner before
        apply induction inner before
        rcases before with ⟨_, least⟩ | ⟨same, _⟩
        · exact least
        · exact same ▸ within
  exact all (depth, node) within context

/-! ### The limit -/

/-- A run failed because macros expanded too deep. -/
def FailsTooDeep {α : Type} (limit : Int) (step : FoldM α) (before : List Diagnostic) : Prop :=
  ∃ name position after,
    step.run.run before = (.error (.fold (.expansionTooDeep name limit) position), after)

/-- A failure because macros expanded too deep. -/
def IsTooDeep (limit : Int) (failure : Failure) : Prop :=
  ∃ name position, failure = .fold (.expansionTooDeep name limit) position

/-- A step is the same as another, or fails because macros expanded too deep. -/
def unlessTooDeep (limit : Int) : Likeness :=
  .unlessFails (IsTooDeep limit) (by
    rintro _ position ⟨name, found, rfl⟩
    cases found <;> exact ⟨name, _, rfl⟩)

theorem failsTooDeep_of_failure {α : Type} {limit : Int} {step : FoldM α}
    {before : List Diagnostic}
    (fails : ∃ failure after, step.run.run before = (.error failure, after) ∧
      IsTooDeep limit failure) : FailsTooDeep limit step before := by
  obtain ⟨_, after, failed, name, position, rfl⟩ := fails
  exact ⟨name, position, after, failed⟩

theorem expansion_placed_anywhere (expansion : Expansion) :
    ExpansionPlaced (fun _ => True) expansion := by
  refine foldExpansion.induct (ExpansionPlaced fun _ => True)
    (fun items => ∀ item, item ∈ items → ExpansionPlaced (fun _ => True) item)
    ?nothing ?many ?other ?absent ?leaf ?tree ?nil ?cons expansion
  case nothing => exact .nothing
  case many => exact fun items all => .many all
  case other => exact fun _ => .other
  case absent => exact .node .absent
  case leaf => exact fun _ => .node .leaf
  case tree => exact fun _ _ _ _ => .node (Node.placed_anywhere _)
  case nil => simp
  case cons =>
    intro item rest itemIs restAre
    rw [List.forall_mem_cons]
    exact ⟨itemIs, restAre⟩

/-- Whatever is done instead of expanding a macro at the limit, a fold is the same or fails
because macros expanded too deep. -/
theorem foldBy_alike (refuse : Expander) (left : Nat) (context : Context) (node : Node) :
    (unlessTooDeep context.depthLimit).alike (foldBy tooDeep left context node)
      (foldBy refuse left context node) (Folded.Placed fun _ => True) := by
  have anywhere : ∀ (context : Context) entry, entry ∈ context.fragments →
      entry.2.Placed fun _ => True :=
    fun _ entry _ => entry.2.placed_anywhere
  induction left generalizing context node with
  | zero =>
      apply walkAt_alike (anywhere context) _ (Nat.le_refl _) ⟨node.placed_anywhere, Nat.le_refl _⟩
      intro call name _
      constructor
      · intro before
        exact .inr ⟨_, before, rfl, name, _, rfl⟩
      · exact fun folded _ => folded.placed_anywhere
  | succ left induction =>
      apply walkAt_alike (anywhere context) _ (Nat.le_refl _) ⟨node.placed_anywhere, Nat.le_refl _⟩
      intro call name placed
      apply expandWith_alike _ (anywhere context) _ _ placed
      · exact fun fragments _ node _ => induction { context with fragments } node
      · exact fun _ tree _ _ => tree.placed_anywhere
      · exact fun _ _ _ _ _ expansion _ _ => expansion_placed_anywhere expansion

end Fold

end ScriptFold
