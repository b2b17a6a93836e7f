import ScriptFold.Fold.Aggregate
import ScriptFold.Fold.Callable
import ScriptFold.Proofs.Coupling.Operation

/-!
# Targets and aggregates under coupled walkers

A target is followed through its parentheses, and a pattern through its parts; what is
folded on the way are nodes below them.
-/

namespace ScriptFold

variable {likeness : Likeness} {fits : Place → Prop} {levels : Nat} {first second : Walker}
variable {branch : Branch} {node : Node}

namespace Target

theorem binding?_alike (coupled : Coupled likeness fits levels first second)
    (near : Near fits levels node) :
    likeness.alike (binding? first node) (binding? second node)
      fun result => ∀ outcome, result = some outcome → outcome.node.Placed fits := by
  unfold binding?
  rw [coupled.context]
  apply likeness.after
  intro known
  split
  · exact likeness.of_pure nofun
  · apply likeness.bind (coupled.walk node near)
    intro folded placed
    split
    · apply likeness.of_pure
      intro outcome is
      split at is <;> cases is
      exact placed
    · apply likeness.of_pure
      intro outcome is
      split at is <;> cases is
      exact placed
    · exact likeness.of_pure nofun

theorem member_alike (coupled : Coupled likeness fits levels first second) {cause : FoldError}
    (branch : Branch) (near : Near fits (levels + 1) branch.toNode) :
    likeness.alike (member first cause branch) (member second cause branch)
      (Node.Placed fits) := by
  unfold member
  rw [coupled.context]
  apply likeness.bind likeness.of_child
  intro object there
  apply likeness.after
  intro known
  apply likeness.refusing
  apply likeness.bind (Slot.expression_alike coupled (near.part there))
  intro object objectIs
  apply likeness.after
  intro isConstant
  apply likeness.refusing
  dsimp only
  split
  · apply likeness.bind likeness.of_child
    intro key there
    apply likeness.bind (Slot.expression_alike coupled (near.part there))
    intro key keyIs
    exact likeness.of_pure (near.placed.keep ((near.parts.set objectIs).set keyIs))
  · exact likeness.of_pure (near.placed.keep (near.parts.set objectIs))

/-- A name in the place of a target, or a refusal. -/
theorem resolve_alike (coupled : Coupled likeness fits levels first second) {cause : FoldError}
    (near : Near fits levels node) :
    likeness.alike
      (do
        match ← binding? first node with
        | some outcome => return outcome
        | none => FoldM.fail cause node)
      (do
        match ← binding? second node with
        | some outcome => return outcome
        | none => FoldM.fail cause node)
      fun outcome => outcome.node.Placed fits := by
  apply likeness.bind (binding?_alike coupled near)
  intro result resultIs
  split
  · exact likeness.of_pure (resultIs _ rfl)
  · exact likeness.of_fail

theorem update_alike (coupled : Coupled likeness fits levels first second) {op : Text}
    (near : Near fits levels node) :
    likeness.alike (update first op node) (update second op node)
      fun outcome => outcome.node.Placed fits := by
  induction node using update.induct
  case case1 => exact resolve_alike coupled near
  case case2 | case3 =>
    apply likeness.bind (member_alike coupled ⟨_, _, _, _⟩ near.higher)
    intro folded placed
    exact likeness.of_pure placed
  case case4 flags place seat inner rest induction =>
    apply likeness.bind (induction (near.higher.child List.mem_cons_self))
    intro outcome placed
    exact likeness.of_pure
      (near.placed.keep (.cons (Outcome.placed_inSeat placed seat) near.placed.all.tail))
  case case5 => exact likeness.of_throw
  case case6 =>
    rw [update, update]
    · exact likeness.of_fail
    all_goals assumption

theorem delete_alike (coupled : Coupled likeness fits levels first second)
    (near : Near fits levels node) :
    likeness.alike (delete first node) (delete second node) (Node.Placed fits) := by
  induction node using delete.induct
  case case1 =>
    apply likeness.bind (binding?_alike coupled near)
    intro result _
    split
    · exact likeness.of_pure near.placed
    · exact likeness.of_fail
  case case2 | case3 => exact member_alike coupled ⟨_, _, _, _⟩ near.higher
  case case4 flags place seat inner rest induction =>
    apply likeness.bind (induction (near.higher.child List.mem_cons_self))
    intro folded placed
    exact likeness.of_pure (near.placed.keep (.cons placed near.placed.all.tail))
  case case5 => exact likeness.of_throw
  case case6 =>
    rw [delete, delete]
    · exact likeness.of_fail
    all_goals assumption

theorem pattern_alike (coupled : Coupled likeness fits levels first second)
    (near : Near fits levels node) :
    likeness.alike (pattern first node) (pattern second node)
      fun outcome => outcome.node.Placed fits := by
  unfold pattern
  rw [coupled.context]
  apply likeness.after
  intro _
  apply likeness.bind (coupled.walk node near)
  intro folded placed
  split
  · exact likeness.of_pure placed
  · exact likeness.of_pure placed
  · exact likeness.of_pure .absent
  · exact likeness.of_throw

theorem assign_alike (coupled : Coupled likeness fits levels first second)
    (near : Near fits levels node) :
    likeness.alike (assign first node) (assign second node)
      fun outcome => outcome.node.Placed fits := by
  induction node using assign.induct
  case case1 => exact resolve_alike coupled near
  case case2 | case3 =>
    apply likeness.bind (member_alike coupled ⟨_, _, _, _⟩ near.higher)
    intro folded placed
    exact likeness.of_pure placed
  case case4 flags place seat inner rest induction =>
    apply likeness.bind (induction (near.higher.child List.mem_cons_self))
    intro outcome placed
    exact likeness.of_pure
      (near.placed.keep (.cons (Outcome.placed_inSeat placed seat) near.placed.all.tail))
  case case5 => exact likeness.of_throw
  case case6 isPattern =>
    rw [assign, assign]
    · rw [if_pos isPattern, if_pos isPattern]
      exact pattern_alike coupled near
    all_goals assumption
  case case7 notPattern =>
    rw [assign, assign]
    · rw [if_neg notPattern, if_neg notPattern]
      exact likeness.of_fail
    all_goals assumption

theorem foldAssign_alike (coupled : Coupled likeness fits levels first second)
    (near : Near fits (levels + 1) branch.toNode) :
    likeness.alike (foldAssign first branch) (foldAssign second branch) (Folded.Placed fits) := by
  unfold foldAssign
  split
  case h_1 target op value isChildren =>
    have among : ∀ child, child ∈ [target, op, value] → Near fits levels child.node :=
      fun child there => near.part (isChildren ▸ there)
    obtain ⟨targetIs, opIs, valueIs⟩ := Operation.forall_mem_three among
    apply likeness.bind (assign_alike coupled targetIs)
    intro outcome outcomeIs
    apply likeness.bind (Slot.expression_alike coupled valueIs)
    intro value valueIs
    exact likeness.of_pure (near.keep
      (.cons (Outcome.placed_inSeat outcomeIs _) (.cons opIs.placed (.cons valueIs .nil))))
  case h_2 => exact likeness.of_throw

theorem foldUpdate_alike (coupled : Coupled likeness fits levels first second)
    (near : Near fits (levels + 1) branch.toNode) :
    likeness.alike (foldUpdate first branch) (foldUpdate second branch) (Folded.Placed fits) := by
  apply likeness.bind likeness.of_child
  intro target there
  apply likeness.after
  intro op
  apply likeness.bind (update_alike coupled (near.part there))
  intro outcome outcomeIs
  exact likeness.of_pure (near.keep (near.parts.set (Outcome.placed_inSeat outcomeIs _)))

theorem foldUnary_alike (coupled : Coupled likeness fits levels first second)
    (near : Near fits (levels + 1) branch.toNode) :
    likeness.alike (foldUnary first branch) (foldUnary second branch) (Folded.Placed fits) := by
  apply likeness.after
  intro op
  split
  · apply likeness.bind likeness.of_child
    intro target there
    apply likeness.bind (delete_alike coupled (near.part there))
    intro folded placed
    exact likeness.of_pure (near.keep (near.parts.set placed))
  · exact Operation.foldUnary_alike coupled near

end Target

namespace Aggregate

theorem key_alike (coupled : Coupled likeness fits levels first second) {child : Child Node}
    (near : Near fits levels child.node) :
    likeness.alike (key first child) (key second child) fun child => child.node.Placed fits := by
  unfold key
  split
  case h_1 flags place inner rest isKey =>
    rw [isKey] at near
    apply likeness.bind
      (Slot.expression_alike coupled (near.higher.child List.mem_cons_self))
    intro inner innerIs
    exact likeness.of_pure (near.placed.keep (.cons innerIs near.placed.all.tail))
  case h_2 => exact likeness.of_throw
  case h_3 => exact likeness.of_pure near.placed

private theorem withKey_alike (coupled : Coupled likeness fits levels first second)
    (near : Near fits (levels + 1) branch.toNode) :
    likeness.alike (withKey first branch) (withKey second branch) (AllPlaced fits) := by
  apply likeness.bind likeness.of_child
  intro child there
  apply likeness.bind (key_alike coupled (near.part there))
  intro key placed
  exact likeness.of_pure (near.parts.set placed)

private theorem shorthand_alike (coupled : Coupled likeness fits levels first second)
    (near : Near fits (levels + 1) branch.toNode) :
    likeness.alike (shorthand first branch) (shorthand second branch) (Folded.Placed fits) := by
  apply likeness.bind likeness.of_child
  intro ident there
  have identIs := near.part there
  have seated : Near fits levels (⟨some 0, ident.node⟩ : Child Node).node := identIs
  apply likeness.bind (Slot.expression_alike coupled seated)
  intro value valueIs
  split
  · exact likeness.of_pure (near.keep (near.parts.set valueIs))
  · apply likeness.bind likeness.of_calculate
    intro name found
    exact likeness.of_pure (.made (.cons (identIs.placed.childAt found) (.single valueIs)))

/-- A member of an object.  Only members that are not properties are walked themselves. -/
theorem objectMember_alike (coupled : Coupled likeness fits levels first second)
    (branch : Branch) (near : Near fits (levels + 1) branch.toNode)
    (low : branch.kind = .property ∨ branch.kind = .shorthandProperty ∨
      Near fits levels branch.toNode) :
    likeness.alike (objectMember first branch) (objectMember second branch)
      (Folded.Placed fits) := by
  unfold objectMember
  split
  case h_1 =>
    apply likeness.bind (withKey_alike coupled near)
    intro children childrenAre
    apply likeness.bind likeness.of_child
    intro value there
    apply likeness.bind (Slot.expression_alike coupled (near.part there))
    intro value valueIs
    exact likeness.of_pure (near.keep (childrenAre.set valueIs))
  case h_2 => exact shorthand_alike coupled near
  case h_3 isMethod =>
    rw [isMethod] at low
    rcases low with is | is | low
    · cases is
    · cases is
    · exact coupled.walk branch.toNode low
  case h_4 =>
    apply likeness.bind likeness.of_child
    intro value there
    apply likeness.bind (Slot.expression_alike coupled (near.part there))
    intro value valueIs
    exact likeness.of_pure (near.keep (near.parts.set valueIs))
  case h_5 notProperty notShorthand _ _ =>
    have low : Near fits levels (⟨some 0, branch.toNode⟩ : Child Node).node := by
      rcases low with is | is | low
      · exact absurd is notProperty
      · exact absurd is notShorthand
      · exact low
    apply likeness.bind (Slot.expression_alike coupled low)
    intro folded placed
    apply likeness.of_pure
    split
    · exact placed
    · exact placed

private theorem memberChild_alike (coupled : Coupled likeness fits levels first second)
    {child : Child Node} (near : Near fits levels child.node) :
    likeness.alike (memberChild first child) (memberChild second child)
      fun child => child.node.Placed fits := by
  unfold memberChild
  split
  case h_1 kind flags place children isTree =>
    rw [isTree] at near
    apply likeness.bind (objectMember_alike coupled ⟨kind, flags, place, children⟩ near.higher
      (.inr (.inr near)))
    intro folded placed
    split
    · exact likeness.of_pure placed
    · exact likeness.of_pure placed
    · exact likeness.of_pure .absent
    · exact likeness.of_throw
  case h_2 => exact likeness.of_throw

theorem fold_alike (coupled : Coupled likeness fits levels first second)
    (near : Near fits (levels + 1) branch.toNode) :
    likeness.alike (fold first branch) (fold second branch) (Folded.Placed fits) := by
  unfold fold
  split
  case h_1 | h_2 =>
    apply likeness.bind
      (likeness.mapM fun child there => Slot.expression_alike coupled (near.part there))
    intro children all
    exact likeness.of_pure (near.keep all)
  case h_3 =>
    apply likeness.bind
      (likeness.mapM fun child there => memberChild_alike coupled (near.part there))
    intro children all
    exact likeness.of_pure (near.keep all)
  case h_4 =>
    apply likeness.bind likeness.of_child
    intro inner there
    apply likeness.bind (Slot.expression_alike coupled (near.part there))
    intro inner innerIs
    exact likeness.of_pure (near.keep (near.parts.set innerIs))
  case h_5 isProperty => exact objectMember_alike coupled branch near (.inl isProperty)
  case h_6 isShorthand => exact objectMember_alike coupled branch near (.inr (.inl isShorthand))
  case h_7 => exact likeness.of_pure near.placed

/-- A pattern.  Names, members and parentheses among its parts are targets, so they have to
be lower than what is folded. -/
theorem pattern_alike (coupled : Coupled likeness fits levels first second)
    (near : Near fits (levels + 1) node)
    (low : node.isOneOf [.ident, .member, .subscript, .paren] → Near fits levels node) :
    likeness.alike (pattern first node) (pattern second node)
      fun outcome => outcome.node.Placed fits := by
  refine pattern.induct
    (fun node => Near fits (levels + 1) node →
      (node.isOneOf [.ident, .member, .subscript, .paren] → Near fits levels node) →
      likeness.alike (pattern first node) (pattern second node)
        fun outcome => outcome.node.Placed fits)
    (fun children => (∀ child, child ∈ children → Near fits levels child.node) →
      likeness.alike (patterns first children) (patterns second children) (AllPlaced fits))
    ?absent ?leaf ?binding ?array ?params ?object ?property ?keyOnly ?default ?targetOnly ?rest
    ?target ?missing ?other ?nil ?cons node near low
  case absent => exact fun _ _ => likeness.of_pure .absent
  case leaf => exact fun token _ _ => likeness.of_pure .leaf
  case binding => exact fun flags place children near _ => likeness.of_pure near.placed
  case array | params | object =>
    intro flags place elements induction near _
    apply likeness.bind (induction fun child there => near.child there)
    intro elements all
    exact likeness.of_pure (near.placed.keep all)
  case property =>
    intro flags place key seat target rest induction near _
    have keyIs := near.child List.mem_cons_self
    have targetIs := near.child (List.mem_cons_of_mem _ List.mem_cons_self)
    apply likeness.bind (key_alike coupled keyIs)
    intro key keyIs
    apply likeness.bind (induction targetIs.higher fun _ => targetIs)
    intro outcome outcomeIs
    exact likeness.of_pure (near.placed.keep (.cons keyIs
      (.cons (Outcome.placed_inSeat outcomeIs seat) near.placed.all.tail.tail)))
  case keyOnly =>
    intro flags place key near _
    apply likeness.bind (key_alike coupled (near.child List.mem_cons_self))
    intro _ _
    exact likeness.of_throw
  case default =>
    intro flags place seat target default rest induction near _
    have targetIs := near.child List.mem_cons_self
    have defaultIs := near.child (List.mem_cons_of_mem _ List.mem_cons_self)
    apply likeness.bind (induction targetIs.higher fun _ => targetIs)
    intro outcome outcomeIs
    apply likeness.bind (Slot.expression_alike coupled defaultIs)
    intro default defaultIs
    exact likeness.of_pure (near.placed.keep (.cons (Outcome.placed_inSeat outcomeIs seat)
      (.cons defaultIs near.placed.all.tail.tail)))
  case targetOnly =>
    intro flags place seat target induction near _
    have targetIs := near.child List.mem_cons_self
    apply likeness.bind (induction targetIs.higher fun _ => targetIs)
    intro _ _
    exact likeness.of_throw
  case rest =>
    intro flags place seat target rest induction near _
    have targetIs := near.child List.mem_cons_self
    apply likeness.bind (induction targetIs.higher fun _ => targetIs)
    intro outcome outcomeIs
    exact likeness.of_pure
      (near.placed.keep (.cons (Outcome.placed_inSeat outcomeIs seat) near.placed.all.tail))
  case target =>
    intro kind flags place children _ _ _ _ _ _ _ _ _ node isTarget near low
    rw [pattern, pattern]
    · rw [if_pos isTarget, if_pos isTarget]
      exact Target.assign_alike coupled (low isTarget)
    all_goals assumption
  case missing =>
    intro kind flags place children _ _ _ _ _ _ _ _ _ node notTarget isMissing near low
    rw [pattern, pattern]
    · rw [if_neg notTarget, if_neg notTarget, if_pos isMissing]
      exact likeness.of_throw
    all_goals assumption
  case other =>
    intro kind flags place children _ _ _ _ _ _ _ _ _ node notTarget notMissing near low
    rw [pattern, pattern]
    · rw [if_neg notTarget, if_neg notTarget, if_neg notMissing]
      apply likeness.after
      intro _
      exact likeness.of_pure near.placed
    all_goals assumption
  case cons =>
    intro seat node rest nodeIs restAre near
    rw [List.forall_mem_cons] at near
    apply likeness.bind (nodeIs near.1.higher fun _ => near.1)
    intro outcome outcomeIs
    apply likeness.bind (restAre near.2)
    intro others othersAre
    exact likeness.of_pure (.cons (Outcome.placed_inSeat outcomeIs seat) othersAre)
  case nil => exact fun _ => likeness.of_pure .nil

end Aggregate

end ScriptFold

/-!
## Functions, classes and declarations under coupled walkers

Their parts are folded one by one, each below the node it belongs to.
-/

namespace ScriptFold

variable {likeness : Likeness} {fits : Place → Prop} {levels : Nat} {first second : Walker}
variable {branch : Branch}

namespace Callable

theorem fold_alike (coupled : Coupled likeness fits levels first second)
    (near : Near fits (levels + 1) branch.toNode) :
    likeness.alike (fold first branch) (fold second branch) (Folded.Placed fits) := by
  unfold fold
  split
  case h_1 name params body _ isChildren | h_2 name params body _ isChildren =>
    have among : ∀ child, child ∈ [name, params, body] → Near fits levels child.node :=
      fun child there => near.part (isChildren ▸ there)
    obtain ⟨nameIs, paramsAre, bodyIs⟩ := Operation.forall_mem_three among
    apply likeness.bind (Slot.anyNode_alike coupled paramsAre)
    intro params paramsAre
    apply likeness.bind (Slot.anyNode_alike coupled bodyIs)
    intro body bodyIs
    exact likeness.of_pure
      (near.keep (.cons nameIs.placed (.cons paramsAre (.cons bodyIs .nil))))
  case h_3 params body _ isChildren =>
    have among : ∀ child, child ∈ [params, body] → Near fits levels child.node :=
      fun child there => near.part (isChildren ▸ there)
    simp only [List.forall_mem_cons] at among
    obtain ⟨paramsAre, bodyIs, _⟩ := among
    have bodyOf : likeness.alike
        (if body.node.isKind .block then Slot.anyNode first body
          else Slot.expression first body)
        (if body.node.isKind .block then Slot.anyNode second body
          else Slot.expression second body)
        fun child => child.node.Placed fits := by
      split
      · exact Slot.anyNode_alike coupled bodyIs
      · exact Slot.expression_alike coupled bodyIs
    apply likeness.bind (Slot.anyNode_alike coupled paramsAre)
    intro params paramsAre
    apply likeness.either bodyOf
    intro body bodyIs
    exact likeness.of_pure (near.keep (.cons paramsAre (.cons bodyIs .nil)))
  case h_4 name superclass body _ isChildren | h_5 name superclass body _ isChildren =>
    have among : ∀ child, child ∈ [name, superclass, body] → Near fits levels child.node :=
      fun child there => near.part (isChildren ▸ there)
    obtain ⟨nameIs, superclassIs, bodyIs⟩ := Operation.forall_mem_three among
    apply likeness.bind (Slot.expression_alike coupled superclassIs)
    intro superclass superclassIs
    apply likeness.bind (Slot.anyNode_alike coupled bodyIs)
    intro body bodyIs
    exact likeness.of_pure
      (near.keep (.cons nameIs.placed (.cons superclassIs (.cons bodyIs .nil))))
  case h_6 =>
    apply likeness.bind
      (likeness.mapM fun child there => Slot.anyNode_alike coupled (near.part there))
    intro members all
    exact likeness.of_pure (near.keep all)
  case h_7 =>
    apply likeness.bind likeness.of_child
    intro key there
    apply likeness.bind (Aggregate.key_alike coupled (near.part there))
    intro key keyIs
    apply likeness.bind likeness.of_child
    intro params there
    apply likeness.bind (Slot.anyNode_alike coupled (near.part there))
    intro params paramsAre
    apply likeness.bind likeness.of_child
    intro body there
    apply likeness.bind (Slot.anyNode_alike coupled (near.part there))
    intro body bodyIs
    exact likeness.of_pure
      (near.keep (((near.parts.set keyIs).set paramsAre).set bodyIs))
  case h_8 =>
    apply likeness.bind likeness.of_child
    intro key there
    apply likeness.bind (Aggregate.key_alike coupled (near.part there))
    intro key keyIs
    apply likeness.bind likeness.of_child
    intro value there
    apply likeness.bind (Slot.expression_alike coupled (near.part there))
    intro value valueIs
    exact likeness.of_pure (near.keep ((near.parts.set keyIs).set valueIs))
  case h_9 =>
    apply likeness.bind likeness.of_child
    intro body there
    apply likeness.bind (Slot.anyNode_alike coupled (near.part there))
    intro body bodyIs
    exact likeness.of_pure (near.keep (near.parts.set bodyIs))
  case h_10 => exact likeness.of_throw

theorem declared_alike (coupled : Coupled likeness fits levels first second) {node : Node}
    (near : Near fits (levels + 1) node) :
    likeness.alike (declared first node) (declared second node) (Node.Placed fits) := by
  refine declared.induct
    (fun node => Near fits (levels + 1) node →
      likeness.alike (declared first node) (declared second node) (Node.Placed fits))
    (fun children => (∀ child, child ∈ children → Near fits levels child.node) →
      likeness.alike (declaredAll first children) (declaredAll second children)
        (AllPlaced fits))
    ?empty ?declaration ?declarator ?malformed ?other ?nil ?cons node near
  case empty => exact fun flags place near => likeness.of_pure near.placed
  case declaration =>
    intro flags place word declarators induction near
    apply likeness.bind (induction fun child there => near.child (List.mem_cons_of_mem _ there))
    intro declarators all
    exact likeness.of_pure (near.placed.keep (.cons near.placed.all.head all))
  case declarator =>
    intro kind flags place target initial notDeclaration near
    have targetIs := near.child List.mem_cons_self
    have initialIs := near.child (List.mem_cons_of_mem _ List.mem_cons_self)
    rw [declared, declared]
    · apply likeness.bind (Slot.anyNode_alike coupled targetIs)
      intro target targetIs
      apply likeness.bind (Slot.expression_alike coupled initialIs)
      intro initial initialIs
      exact likeness.of_pure (near.placed.keep (.cons targetIs (.cons initialIs .nil)))
    all_goals assumption
  case malformed =>
    intro kind flags place children _ _ _ _
    rw [declared, declared]
    · exact likeness.of_throw
    all_goals assumption
  case other =>
    intro node _ _ _ _ _
    rw [declared, declared]
    · exact likeness.of_throw
    all_goals assumption
  case cons =>
    intro seat node rest nodeIs restAre near
    rw [List.forall_mem_cons] at near
    apply likeness.bind (nodeIs near.1.higher)
    intro folded placed
    apply likeness.bind (restAre near.2)
    intro others othersAre
    exact likeness.of_pure (.cons placed othersAre)
  case nil => exact fun _ => likeness.of_pure .nil

theorem declaration_alike (coupled : Coupled likeness fits levels first second)
    (near : Near fits (levels + 1) branch.toNode) :
    likeness.alike (declaration first branch) (declaration second branch)
      (Folded.Placed fits) := by
  apply likeness.bind (declared_alike coupled near)
  intro folded placed
  exact likeness.of_pure placed

end Callable

end ScriptFold
