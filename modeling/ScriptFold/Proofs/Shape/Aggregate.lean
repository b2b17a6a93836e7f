import ScriptFold.Fold.Aggregate
import ScriptFold.Proofs.Shape.Target

/-!
# Folded aggregates

Arrays, arguments, objects and their members are formed once their parts are folded.  A
shorthand property whose name stands for something else is written in full.
-/

namespace ScriptFold

open FoldM (Meets EachFrom)

variable {law : Law} {levels : Nat} {walker : Walker} {given : Prop}
variable {kind : Kind} {flags : Flags} {place : Option Place} {index : Nat}

/-! ### Keys and members of objects -/

theorem Slotted.of_key {child : Child Node} (formed : Formed law child.node)
    (isComputed : child.node.kind? = some .computedKey) (isKey : kind.role index = .key) :
    Slotted law kind place index child := by
  refine ⟨⟨?_, ?_, ?_, fun forbidden => absurd forbidden (Law.not_forbids_of_kind ?_)⟩, formed⟩
  · rw [isKey]
    exact .inr isComputed
  · rw [isKey]
    nofun
  · rw [isKey]
    nofun
  · rw [isComputed]
    rfl

private theorem Slotted.fixed_key {child : Child Node} (slotted
    : Slotted .loose kind place index child)
    (isKey : kind.role index = .key) (inert : child.node.isInert = true) :
    Slotted law kind place index child := by
  have notFoldable := not_isFoldable_of_isInert inert
  refine ⟨⟨slotted.fits.admitted, ?_, ?_,
    fun forbidden => absurd forbidden (Law.not_forbids_of_kind notFoldable)⟩,
    slotted.formed.of_inert inert⟩
  · rw [isKey]
    nofun
  · rw [isKey]
    nofun

theorem key_meets (sound : Sound law levels walker) {children : List (Child Node)}
    {child : Child Node} (index : Nat) (isKey : kind.role index = .key)
    (found : given → FoundAt law levels kind flags place children index child) :
    Meets given (Aggregate.key walker child) (Slotted law kind place index) := by
  unfold Aggregate.key
  split
  case h_1 innerFlags innerPlace inner rest isNode =>
    have below : given →
        Below law levels (.tree .computedKey innerFlags innerPlace (inner :: rest)) :=
      fun known => isNode ▸ ((found known).1.slotted (found known).2).2
    refine (operand_meets sound 0 rfl fun known => ⟨(below known).succ, rfl⟩).bind
      fun inner' => .of_pure fun known => .of_key ?_ rfl isKey
    exact (Patched.refl.set 0 known.2).formed (below known.1).formed rfl
  case h_2 => exact .of_throw
  case h_3 notComputed emptyKey =>
    refine .of_pure fun known => ?_
    obtain ⟨slotted, _⟩ := (found known).1.slotted (found known).2
    have admitted := slotted.fits.admitted
    rw [isKey] at admitted
    refine slotted.fixed_key isKey (admitted.resolve_right fun isComputed => ?_)
    obtain ⟨seat, node⟩ := child
    cases node with
    | absent | leaf => cases isComputed
    | tree kind flags place children =>
        cases isComputed
        cases children with
        | nil => exact emptyKey _ _ rfl
        | cons inner rest => exact notComputed _ _ _ _ rfl

theorem property_meets (sound : Sound law levels walker) {children : List (Child Node)} :
    Meets (Below law (levels + 1) (.tree .property flags place children))
      (Aggregate.objectMember walker ⟨.property, flags, place, children⟩)
      (Walked law (.tree .property flags place children)) := by
  have keyed : Meets (Below law (levels + 1) (.tree .property flags place children))
      (Aggregate.withKey walker ⟨.property, flags, place, children⟩)
      (Patched law .property place children [0]) :=
    Meets.of_child.bind fun first => (key_meets sound 0 rfl id).bind fun first' =>
      .of_pure fun known => Patched.refl.set 0 known.2
  refine keyed.bind fun children' => Meets.of_child.bind fun value => ?_
  refine (operand_meets sound 1 rfl fun known => ⟨known.1.1, known.2⟩).bind
    fun value' => .of_pure fun known => ?_
  exact .kept ((known.1.1.2.set 1 known.2).formed known.1.1.1.formed rfl)
    (Law.not_forbids_of_kind rfl)

/-- The word of a name. -/
theorem ident_word {node word : Node} (formed : Formed law node)
    (isIdent : node.kind? = some .ident) (found : node.childAt 0 = .ok word) :
    word.isTree = false := by
  cases node with
  | absent | leaf => cases isIdent
  | tree kind flags place children =>
      cases isIdent
      rw [Node.childAt] at found
      split at found
      case h_1 child isChild =>
        cases found
        exact (formed.slotted isChild).fits.admitted
      case h_2 => cases found

theorem shorthand_meets (sound : Sound law levels walker) {children : List (Child Node)} :
    Meets (Below law (levels + 1) (.tree .shorthandProperty flags place children))
      (Aggregate.shorthand walker ⟨.shorthandProperty, flags, place, children⟩)
      (Walked law (.tree .shorthandProperty flags place children)) := by
  refine Meets.of_child.bind fun ident => ?_
  have isIdent : Below law (levels + 1) (.tree .shorthandProperty flags place children) ∧
      children[0]? = some ident → ident.node.kind? = some .ident := fun known =>
    (known.1.slotted known.2).1.fits.admitted
  refine ((expression_meets sound ⟨some 0, ident.node⟩).weaken fun known =>
    ⟨(known.1.slotted known.2).2, .inl (isTree_of_kind (isIdent known))⟩).bind fun value => ?_
  have isFull : (Below law (levels + 1) (.tree .shorthandProperty flags place children) ∧
      children[0]? = some ident) ∧ Filled law ⟨some 0, ident.node⟩ value →
      Operand law value.node ∧ (value.seat.isSome = true → value.node.kind? = some .ident) := by
    rintro ⟨known, filled⟩
    cases filled with
    | empty isAbsent =>
        have is := isIdent known
        rw [show ident.node = .absent from isAbsent] at is
        cases is
    | full operand same => exact ⟨operand, fun isSome => (same isSome).trans (isIdent known)⟩
  show Meets _ (if _ then _ else _) _
  split
  case isTrue isSome =>
    refine .of_pure fun known => .kept ?_ (Law.not_forbids_of_kind rfl)
    obtain ⟨operand, same⟩ := isFull known
    have named : Slotted law .shorthandProperty place 0 ⟨ident.seat, value.node⟩ :=
      .of_name operand.good (same isSome) rfl
    exact (Patched.refl.set 0 named).formed known.1.1.formed rfl
  case isFalse =>
    refine Meets.of_calculate.bind fun word => .of_pure fun known => .instead ?_ rfl rfl
    have wordIs := ident_word (known.1.1.1.slotted known.1.1.2).1.formed (isIdent known.1.1) known.2
    exact property_good (isInert_of_not_isTree wordIs) (formed_of_not_isTree wordIs)
      (isFull known.1).1

theorem spread_meets (sound : Sound law levels walker) {children : List (Child Node)} :
    Meets (Below law (levels + 1) (.tree .spread flags place children))
      (Aggregate.objectMember walker ⟨.spread, flags, place, children⟩)
      (Walked law (.tree .spread flags place children)) :=
  Meets.of_child.bind fun _ => (operand_meets sound 0 rfl id).bind fun _ => .of_pure fun known =>
    .kept ((Patched.refl.set 0 known.2).formed known.1.1.formed rfl) (Law.not_forbids_of_kind rfl)

/-- What folding leaves in the place of a member of an object. -/
def LeavesGood (law : Law) : Folded → Prop
  | .same node | .instead node => Good law node
  | .statements _ | .removed => True

theorem Walked.leavesGood {former : Node} {folded : Folded} (walked : Walked law former folded) :
    LeavesGood law folded := by
  cases walked with
  | same good _ => exact good
  | instead good _ _ => exact good
  | statements | removed => trivial

private theorem objectMember_meets (sound : Sound law levels walker) {children : List
    (Child Node)} :
    Meets (Below law levels (.tree kind flags place children))
      (Aggregate.objectMember walker ⟨kind, flags, place, children⟩) (LeavesGood law) := by
  have other : Meets (Below law levels (.tree kind flags place children)) (do
      let folded ← Slot.expression walker ⟨some 0, .tree kind flags place children⟩
      return if folded.seat.isSome then .same folded.node else .instead folded.node)
      (LeavesGood law) := by
    refine ((expression_meets sound ⟨some 0, .tree kind flags place children⟩).weaken
      fun below => ⟨below, .inl rfl⟩).bind fun folded => .of_pure ?_
    rintro ⟨_, filled⟩
    have good : Good law folded.node := by
      cases filled with
      | empty isAbsent => cases isAbsent
      | full operand _ => exact operand.good
    split <;> exact good
  unfold Aggregate.objectMember
  split
  case h_1 isKind =>
    cases isKind
    exact ((property_meets sound).weaken Below.succ).mono fun _ _ => Walked.leavesGood
  case h_2 isKind =>
    cases isKind
    exact ((shorthand_meets sound).weaken Below.succ).mono fun _ _ => Walked.leavesGood
  case h_3 isKind =>
    exact (sound.walk _).mono fun _ _ => Walked.leavesGood
  case h_4 isKind =>
    cases isKind
    exact ((spread_meets sound).weaken Below.succ).mono fun _ _ => Walked.leavesGood
  case h_5 => exact other

theorem memberChild_meets (sound : Sound law levels walker) (child : Child Node) :
    Meets (Below law levels child.node) (Aggregate.memberChild walker child)
      fun result => Good law result.node := by
  obtain ⟨seat, node⟩ := child
  cases node with
  | absent | leaf => exact .of_throw
  | tree kind flags place children =>
      refine (objectMember_meets sound).bind fun folded => ?_
      cases folded with
      | same node => exact .of_pure And.right
      | instead node => exact .of_pure And.right
      | removed => exact .of_pure fun _ => .absent
      | statements => exact .of_throw

/-! ### Aggregates -/

theorem Below.each {children : List (Child Node)} {child : Child Node}
    (below : Below law (levels + 1) (.tree kind flags place children)) (there : child ∈ children) :
    ∃ index, Slotted .loose kind place index child ∧ Below law levels child.node := by
  obtain ⟨index, found⟩ := List.mem_iff_getElem?.mp there
  exact ⟨index, below.slotted found⟩

/-- A list of operands. -/
theorem operands_meets (sound : Sound law levels walker) {children : List (Child Node)}
    (areOperands : ∀ index, (kind.role index).isOperand = true) :
    Meets (Below law (levels + 1) (.tree kind flags place children))
      (children.mapM (Slot.expression walker)) (SlottedFrom law kind place 0) := by
  refine (Meets.mapM fun child there => (expression_meets sound child).weaken fun below => ?_).mono
    fun results below each index result found => ?_
  · obtain ⟨index, slotted, inner⟩ := below.each there
    exact ⟨inner, slotted.isTree_or_absent (areOperands index)⟩
  · obtain ⟨child, isChild, filled⟩ := each index result found
    rw [Nat.zero_add]
    exact filled.slotted (below.slotted isChild).1 (areOperands index)

/-- A list of nodes that takes whatever they become. -/
theorem anything_meets {children : List (Child Node)} {act : Child Node → FoldM (Child Node)}
    (acts : ∀ child, Meets (Below law levels child.node) (act child) fun result =>
      Good law result.node)
    (areAny : ∀ index, kind.role index = .any) :
    Meets (Below law (levels + 1) (.tree kind flags place children)) (children.mapM act)
      (SlottedFrom law kind place 0) := by
  refine (Meets.mapM fun child there => (acts child).weaken fun below => below.child there).mono
    fun results below each index result found => ?_
  obtain ⟨child, isChild, good⟩ := each index result found
  exact .of_any good (areAny _)

theorem aggregate_meets (sound : Sound law levels walker) {children : List (Child Node)}
    (isAggregate : kind.category? = some .aggregate) :
    Meets (Below law (levels + 1) (.tree kind flags place children))
      (Aggregate.fold walker ⟨kind, flags, place, children⟩)
      (Walked law (.tree kind flags place children)) := by
  cases kind <;> cases isAggregate
  case array | args =>
    exact (operands_meets sound fun _ => rfl).bind fun _ => .of_pure fun known =>
      .kept (formed_iff_slotted.mpr known.2) (Law.not_forbids_of_kind rfl)
  case object =>
    exact (anything_meets (memberChild_meets sound) fun _ => rfl).bind fun _ => .of_pure
      fun known => .kept (formed_iff_slotted.mpr known.2) (Law.not_forbids_of_kind rfl)
  case computedKey =>
    exact Meets.of_child.bind fun _ => (operand_meets sound 0 rfl id).bind fun _ =>
      .of_pure fun known => .kept ((Patched.refl.set 0 known.2).formed known.1.1.formed rfl)
        (Law.not_forbids_of_kind rfl)
  case property => exact property_meets sound
  case shorthandProperty => exact shorthand_meets sound

end ScriptFold
