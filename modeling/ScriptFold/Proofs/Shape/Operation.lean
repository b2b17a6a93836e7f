import ScriptFold.Fold.Operation
import ScriptFold.Proofs.Meaning.Folding
import ScriptFold.Proofs.Shape.Walked

/-!
# Folded operations

What folding makes of operators, tests, parentheses and templates is formed, and an
operation that is left has an operand that is not known.
-/

namespace ScriptFold

open FoldM (Meets EachFrom)

variable {law : Law} {levels : Nat} {walker : Walker} {given : Prop}
variable {flags : Flags} {place : Option Place} {former : Node}

theorem not_isConstant {node : Node} (unknown : Literal.value? node = .ok none) :
    ¬ IsConstant node := by
  rintro ⟨value, known⟩
  rw [unknown] at known
  cases known

/-- A node that is kept with new children. -/
theorem Walked.kept {kind : Kind} {children others : List (Child Node)}
    (formed : Formed law (.tree kind flags place others))
    (folded : ¬ law.forbids (.tree kind flags place others)) :
    Walked law (.tree kind flags place children) (.same (.tree kind flags place others)) :=
  .same ⟨formed, folded⟩ rfl

theorem Walked.of_operand {node : Node} (operand : Operand law node)
    (unstable : former.isStable = false) : Walked law former (.instead node) :=
  .instead operand.good (isTree_of_isOperand operand.isOperand) unstable

theorem Walked.of_ofNode {node : Node} (operand : Operand law node)
    (unstable : former.isStable = false) : Walked law former (.ofNode node) := by
  cases node with
  | absent => cases operand.isOperand
  | leaf => cases operand.isOperand
  | tree => exact .of_operand operand unstable

theorem valueOf_meets {node : Node} :
    Meets given (Slot.valueOf node) fun value => Literal.value? node = .ok value :=
  .of_calculate

theorem nodeOf_meets {value : Value} :
    Meets given (Slot.nodeOf value) fun node => Literal.ofValue? value = .ok node :=
  .of_calculate

/-- A primitive value takes the place of a node. -/
theorem replaceBy_meets {result : Folded} {value : Value} (unstable : former.isStable = false)
    (primitive : given → value.isPrimitive = true) :
    Meets given (Operation.replaceBy result value) (Walked law former) := by
  refine nodeOf_meets.bind fun literal => .of_pure ?_
  rintro ⟨known, written⟩
  cases literal with
  | none => exact absurd written (Meaning.ofValue?_ne_none (primitive known))
  | some node => exact .of_operand (ofValue?_operand written) unstable

/-! ### Binary expressions -/

theorem foldBinaryValues_meets {node : Node} {result : Folded} {op : Text} {left right : Value}
    (unstable : former.isStable = false)
    (kept : given → BinaryOp.ofText? op = none → Walked law former result) :
    Meets given (Operation.foldBinaryValues node result op left right) (Walked law former) := by
  have notKnown : op.isString "in" = true ∨ op.isString "instanceof" = true →
      BinaryOp.ofText? op = none := by
    intro spelled
    cases isKnown : BinaryOp.ofText? op with
    | none => rfl
    | some known =>
        have isOp : (BinaryOp.ofText? op).isSome = true := by
          rw [isKnown]
          rfl
        have unspelled := Meaning.binaryOp_known isOp
        rw [unspelled.1, unspelled.2] at spelled
        simp at spelled
  unfold Operation.foldBinaryValues
  split
  case isTrue isIn =>
    refine Meets.of_calculate.bind fun found => ?_
    cases found with
    | none => exact .of_pure fun known => kept known.1 (notKnown (.inl isIn))
    | some found => exact replaceBy_meets unstable fun _ => rfl
  case isFalse =>
    split
    case isTrue isInstance => exact .of_pure fun known => kept known (notKnown (.inr isInstance))
    case isFalse =>
      split
      case h_1 known _ =>
        exact Meets.of_calculate.bind fun value =>
          replaceBy_meets unstable fun is => BinaryOp.apply_isPrimitive is.2
      case h_2 isNone => exact Meets.of_report.bind fun _ => .of_pure fun is => kept is.1 isNone

theorem binary_good {left op right : Child Node} (leftIs : Slotted law .binary place 0 left)
    (opIs : Slotted .loose .binary place 1 op) (rightIs : Slotted law .binary place 2 right)
    (unknown : ¬ IsConstant left.node ∨ ¬ IsConstant right.node ∨
      BinaryOp.ofText? op.node.description = none) :
    Good law (.tree .binary flags place [left, op, right]) := by
  refine ⟨formed_iff_slotted.mpr (.cons leftIs (.cons (opIs.fixed rfl) (.cons rightIs .nil))), ?_⟩
  rintro ⟨_, residue⟩
  cases residue with
  | binary isKnown leftConstant rightConstant =>
      rcases unknown with leftUnknown | rightUnknown | opUnknown
      · exact leftUnknown leftConstant
      · exact rightUnknown rightConstant
      · rw [opUnknown] at isKnown
        cases isKnown

theorem binary_meets (sound : Sound law levels walker) {children : List (Child Node)} :
    Meets (Below law (levels + 1) (.tree .binary flags place children))
      (Operation.foldBinary walker ⟨.binary, flags, place, children⟩)
      (Walked law (.tree .binary flags place children)) := by
  rcases children with _ | ⟨left, _ | ⟨op, _ | ⟨right, _ | _⟩⟩⟩
  case cons.cons.cons.nil =>
    refine (operand_meets sound 0 rfl fun below => ⟨below, rfl⟩).bind fun left' => ?_
    refine (operand_meets sound 2 rfl fun known => ⟨known.1, rfl⟩).bind fun right' => ?_
    refine valueOf_meets.bind fun leftValue => valueOf_meets.bind fun rightValue => ?_
    cases leftValue with
    | none =>
        refine .of_pure ?_
        rintro ⟨⟨⟨⟨below, leftIs⟩, rightIs⟩, unknown⟩, _⟩
        exact .same (binary_good leftIs (below.slotted rfl).1 rightIs
          (.inl (not_isConstant unknown))) rfl
    | some leftValue =>
        cases rightValue with
        | none =>
            refine .of_pure ?_
            rintro ⟨⟨⟨⟨below, leftIs⟩, rightIs⟩, _⟩, unknown⟩
            exact .same (binary_good leftIs (below.slotted rfl).1 rightIs
              (.inr (.inl (not_isConstant unknown)))) rfl
        | some rightValue =>
            refine foldBinaryValues_meets rfl ?_
            rintro ⟨⟨⟨⟨below, leftIs⟩, rightIs⟩, _⟩, _⟩ unknown
            exact .same (binary_good leftIs (below.slotted rfl).1 rightIs
              (.inr (.inr unknown))) rfl
  all_goals exact .of_throw

/-! ### Logical expressions -/

/-- A known left operand decides a logical expression. -/
theorem fromLeft_meets {op : Text} {left right : Node} :
    Meets given (Operation.fromLeft op left right) fun result =>
      (∀ node, result = some node → node = left ∨ node = right) ∧
        (result = none → op ∈ logicalSpellings → ¬ IsConstant left) := by
  refine valueOf_meets.bind fun value => ?_
  cases value with
  | none => exact .of_pure fun known => ⟨nofun, fun _ _ => not_isConstant known.2⟩
  | some value =>
      have chosen : ∀ {choice : Bool} {first second : Node},
          (first = left ∨ first = right) → (second = left ∨ second = right) →
          (∀ node, some (if choice then first else second) = some node →
            node = left ∨ node = right) ∧
          (some (if choice then first else second) = none → op ∈ logicalSpellings →
            ¬ IsConstant left) := by
        intro choice first second firstIs secondIs
        refine ⟨fun node isNode => ?_, nofun⟩
        cases isNode
        split
        · exact firstIs
        · exact secondIs
      show Meets _ (if _ then _ else _) _
      split
      · exact .of_pure fun _ => chosen (.inr rfl) (.inl rfl)
      · rename_i notAnd
        split
        · exact .of_pure fun _ => chosen (.inl rfl) (.inr rfl)
        · rename_i notOr
          split
          · exact .of_pure fun _ => chosen (.inr rfl) (.inl rfl)
          · rename_i notNullish
            refine .of_pure fun _ => ⟨nofun, fun _ spelled => ?_⟩
            have isAnd : ∀ {word : String}, op = Text.ofString word → op.isString word = true :=
              Text.isString_iff.mpr
            simp only [logicalSpellings, List.map_cons, List.map_nil, List.mem_cons,
              List.not_mem_nil, or_false] at spelled
            rcases spelled with is | is | is
            · exact absurd (isAnd is) notAnd
            · exact absurd (isAnd is) notOr
            · exact absurd (isAnd is) notNullish

theorem description_logicalOp {kind : Kind} {index : Nat} {op : Child Node}
    (slotted : Slotted law kind place index op) (isOp : kind.role index = .logicalOp) :
    op.node.description ∈ logicalSpellings := by
  have admitted := slotted.fits.admitted
  rw [isOp] at admitted
  obtain ⟨token, isToken, spelled⟩ := admitted
  rw [isToken]
  exact spelled

theorem logical_good {left op right : Child Node} (leftIs : Slotted law .logical place 0 left)
    (opIs : Slotted law .logical place 1 op) (rightIs : Slotted law .logical place 2 right)
    (unknown : ¬ IsConstant left.node) :
    Good law (.tree .logical flags place [left, op, right]) := by
  refine ⟨formed_iff_slotted.mpr (.cons leftIs (.cons opIs (.cons rightIs .nil))), ?_⟩
  rintro ⟨_, residue⟩
  cases residue with
  | logical leftConstant => exact unknown leftConstant

theorem logical_meets (sound : Sound law levels walker) {children : List (Child Node)} :
    Meets (Below law (levels + 1) (.tree .logical flags place children))
      (Operation.foldLogical walker ⟨.logical, flags, place, children⟩)
      (Walked law (.tree .logical flags place children)) := by
  refine Meets.of_child.bind fun left => ?_
  refine (operand_meets sound 0 rfl id).bind fun left' => ?_
  refine Meets.of_child.bind fun right => ?_
  refine (operand_meets sound 2 rfl fun known => ⟨known.1.1.1, known.2⟩).bind fun right' => ?_
  rcases children with _ | ⟨_, _ | ⟨op, _ | ⟨_, _ | _⟩⟩⟩
  case cons.cons.cons.nil =>
    refine fromLeft_meets.bind fun result => ?_
    cases result with
    | some node =>
        refine .of_pure ?_
        rintro ⟨⟨⟨⟨⟨_, _⟩, leftIs⟩, _⟩, rightIs⟩, isOne, _⟩
        rcases isOne node rfl with rfl | rfl
        · exact .of_ofNode (leftIs.operand rfl) rfl
        · exact .of_ofNode (rightIs.operand rfl) rfl
    | none =>
        refine .of_pure ?_
        rintro ⟨⟨⟨⟨⟨below, _⟩, leftIs⟩, _⟩, rightIs⟩, _, unknown⟩
        have opIs : Slotted law .logical place 1 op := (below.slotted rfl).1.fixed rfl
        exact .same (logical_good leftIs opIs rightIs
          (unknown rfl (description_logicalOp opIs rfl))) rfl
  all_goals exact .of_throw

/-! ### Tests -/

theorem operatorOf_meets {kind : Kind} {children : List (Child Node)} :
    Meets given (Operation.operatorOf kind children) fun op =>
      Operation.operatorIn children = some op := by
  unfold Operation.operatorOf
  split
  case h_1 op found => exact .of_pure fun _ => found
  case h_2 => exact .of_throw

private theorem isPure_meets (node : Node) : Meets given (Operation.isPure node) fun _ => True := by
  fun_induction Operation.isPure node with
  | case1 | case2 | case3 | case8 => exact .of_pure fun _ => trivial
  | case4 flags place seat inner rest induction => exact induction
  | case5 => exact .of_throw
  | case6 flags place op seat operand rest induction =>
      refine operatorOf_meets.bind fun word => ?_
      split
      · exact induction.weaken And.left
      · exact .of_pure fun _ => trivial
  | case7 =>
      refine operatorOf_meets.bind fun word => ?_
      split
      · exact .of_throw
      · exact .of_pure fun _ => trivial

/-- A known right operand decides a logical expression that is read for its truth. -/
theorem fromRight_meets {op : Text} {left right : Node} :
    Meets given (Operation.fromRight op left right) fun result =>
      ∀ node, result = some node → node = left ∨ node = right := by
  refine valueOf_meets.bind fun value => ?_
  cases value with
  | none => exact .of_pure fun _ => nofun
  | some value =>
      show Meets _ (if _ then _ else _) _
      split
      · refine .of_pure fun _ node isNode => ?_
        cases isNode
        exact .inl rfl
      · refine (isPure_meets left).bind fun isPure => .of_pure fun _ node isNode => ?_
        split at isNode <;> cases isNode
        exact .inr rfl

theorem reduceLogical_meets {left op right : Child Node} :
    Meets (Operand law left.node ∧ Operand law right.node ∧ Slotted law .logical place 1 op)
      (Operation.reduceLogical ⟨.logical, flags, place, []⟩ left op right)
      fun outcome => Operand law outcome.node := by
  have isEither : ∀ {node : Node}, Operand law left.node ∧ Operand law right.node →
      node = left.node ∨ node = right.node → Operand law node := by
    rintro node ⟨leftIs, rightIs⟩ (rfl | rfl)
    · exact leftIs
    · exact rightIs
  refine fromLeft_meets.bind fun known => ?_
  cases known with
  | some node =>
      exact .of_pure fun is => isEither ⟨is.1.1, is.1.2.1⟩ (is.2.1 node rfl)
  | none =>
      refine fromRight_meets.bind fun known => ?_
      cases known with
      | some node =>
          exact .of_pure fun is => isEither ⟨is.1.1.1, is.1.1.2.1⟩ (is.2 node rfl)
      | none =>
          refine .of_pure ?_
          rintro ⟨⟨⟨leftIs, rightIs, opIs⟩, _, unknown⟩, _⟩
          exact ⟨logical_good (.of_operand leftIs rfl) opIs (.of_operand rightIs rfl)
            (unknown rfl (description_logicalOp opIs rfl)), rfl⟩

theorem unary_good {op operand : Child Node} {rest : List (Child Node)}
    (formed : Formed law (.tree .unary flags place (op :: operand :: rest)))
    (unknown : UnaryOp.ofText? op.node.description = none ∨ ¬ IsConstant operand.node) :
    Good law (.tree .unary flags place (op :: operand :: rest)) := by
  refine ⟨formed, ?_⟩
  rintro ⟨_, residue⟩
  cases residue with
  | unary isKnown constant =>
      rcases unknown with opUnknown | operandUnknown
      · rw [opUnknown] at isKnown
        cases isKnown
      · exact operandUnknown constant

private theorem negated_meets {result operand : Node}
    (kept : given → ¬ IsConstant operand → Operand law result) :
    Meets given (Operation.negated result operand) fun outcome => Operand law outcome.node := by
  refine valueOf_meets.bind fun value => ?_
  cases value with
  | none => exact .of_pure fun known => kept known.1 (not_isConstant known.2)
  | some value =>
      refine nodeOf_meets.bind fun literal => .of_pure ?_
      rintro ⟨_, written⟩
      cases literal with
      | none => exact absurd written (Meaning.ofValue?_ne_none rfl)
      | some node => exact ofValue?_operand written

/-- An expression that is read only for its truth is simplified to another one. -/
theorem reduce_meets (law : Law) (node : Node) :
    Meets (Operand law node) (Operation.reduce node) fun outcome => Operand law outcome.node := by
  fun_induction Operation.reduce node with
  | case1 flags place seat inner rest induction =>
      have slots : Operand law (.tree .paren flags place (⟨seat, inner⟩ :: rest)) →
          SlottedFrom law .paren place 0 (⟨seat, inner⟩ :: rest) :=
        fun operand => formed_iff_slotted.mp operand.good.formed
      refine (induction.weaken fun operand => (slots operand).head.operand rfl).bind
        fun outcome => Meets.of_calculate.bind fun isPrimitive => ?_
      show Meets _ (if _ then _ else _) _
      split
      · exact .of_pure fun known => known.1.2
      · refine .of_pure fun known => ⟨⟨formed_iff_slotted.mpr (.cons (.of_operand ?_ rfl)
          (slots known.1.1).tail), Law.not_forbids_of_kind rfl⟩, rfl⟩
        rw [node_inSeat]
        exact known.1.2
  | case2 => exact .of_throw
  | case3 flags place op seat operand rest induction =>
      refine operatorOf_meets.bind fun word => ?_
      split
      · exact .of_pure fun known => known.1
      · have slots : Operand law (.tree .unary flags place (op :: ⟨seat, operand⟩ :: rest)) →
            SlottedFrom law .unary place 0 (op :: ⟨seat, operand⟩ :: rest) :=
          fun operand => formed_iff_slotted.mp operand.good.formed
        refine (induction.weaken fun known => (slots known.1).tail.head.operand rfl).bind
          fun outcome => negated_meets fun known unknown => ?_
        have slotted := slots known.1.1
        refine ⟨unary_good (formed_iff_slotted.mpr (.cons slotted.head
          (.cons (.of_operand ?_ rfl) slotted.tail.tail))) (.inr ?_), rfl⟩ <;> rw [node_inSeat]
        · exact known.2
        · exact unknown
  | case4 =>
      refine operatorOf_meets.bind fun word => ?_
      split
      · exact .of_throw
      · exact .of_pure fun known => known.1
  | case5 flags place leftSeat left op rightSeat right rest _ leftInduction rightInduction =>
      refine operatorOf_meets.bind fun word => ?_
      split
      · exact .of_pure fun known => known.1
      · have slots : Operand law (.tree .logical flags place
            (⟨leftSeat, left⟩ :: op :: ⟨rightSeat, right⟩ :: rest)) →
            SlottedFrom law .logical place 0
              (⟨leftSeat, left⟩ :: op :: ⟨rightSeat, right⟩ :: rest) :=
          fun operand => formed_iff_slotted.mp operand.good.formed
        refine (leftInduction.weaken fun known => (slots known.1).head.operand rfl).bind
          fun left' => ?_
        refine (rightInduction.weaken fun known =>
          (slots known.1.1).tail.tail.head.operand rfl).bind fun right' => ?_
        split
        · exact .of_throw
        · refine reduceLogical_meets.weaken fun known => ?_
          rw [node_inSeat, node_inSeat]
          exact ⟨known.1.2, known.2, (slots known.1.1.1).tail.head⟩
  | case6 flags place seat left rest _ induction =>
      refine operatorOf_meets.bind fun word => ?_
      split
      · exact .of_pure fun known => known.1
      · have inner : Operand law (.tree .logical flags place (⟨seat, left⟩ :: rest)) →
            Operand law left := fun operand =>
          (formed_iff_slotted.mp operand.good.formed).head.operand rfl
        exact (induction.weaken fun known => inner known.1).bind fun _ => .of_throw
  | case7 => exact .of_throw
  | case8 => exact .of_pure id

/-- A child that is read only for its truth. -/
theorem test_meets (sound : Sound law levels walker) {kind : Kind} {children : List (Child Node)}
    {child : Child Node} (index : Nat)
    (found : given → FoundAt law levels kind flags place children index child)
    (isTree : given → child.node.isTree = true) :
    Meets given (Operation.test walker child) fun result => Operand law result.node := by
  refine ((expression_meets sound child).weaken fun known =>
    ⟨((found known).1.slotted (found known).2).2, .inl (isTree known)⟩).bind fun folded => ?_
  refine ((reduce_meets law folded.node).weaken ?_).bind fun outcome => .of_pure fun known => ?_
  · rintro ⟨known, filled⟩
    cases filled with
    | empty isAbsent =>
        have there := isTree known
        rw [isAbsent] at there
        cases there
    | full operand _ => exact operand
  · rw [node_inSeat]
    exact known.2

theorem requiredTest_meets (sound : Sound law levels walker) {kind : Kind}
    {children : List (Child Node)} {child : Child Node} (index : Nat)
    (isRequired : kind.role index = .required)
    (found : given → FoundAt law levels kind flags place children index child) :
    Meets given (Operation.test walker child) fun result => Operand law result.node :=
  test_meets sound index found fun known =>
    isTree_of_isOperand (((found known).1.slotted (found known).2).1.operand isRequired).isOperand

/-! ### Unary expressions and parentheses -/

/-- The operator of a unary expression is its first child. -/
theorem unary_operator {first : Child Node} {rest : List (Child Node)} {op : Text}
    (formed : Formed law (.tree .unary flags place (first :: rest)))
    (found : Operation.operatorIn (first :: rest) = some op) : first.node.description = op := by
  have slotted := formed_iff_slotted.mp formed
  have treesOnly : ∀ {children : List (Child Node)},
      (∀ child, child ∈ children → child.node.isTree = true) →
      Operation.operatorIn children = none := by
    intro children areTrees
    induction children with
    | nil => rfl
    | cons child others induction =>
        obtain ⟨seat, node⟩ := child
        have isTree := areTrees ⟨seat, node⟩ List.mem_cons_self
        cases node with
        | absent | leaf => cases isTree
        | tree =>
            rw [Operation.operatorIn]
            · exact induction fun other there => areTrees other (List.mem_cons_of_mem _ there)
            · simp
  have others : Operation.operatorIn rest = none := by
    refine treesOnly fun child there => ?_
    obtain ⟨index, isChild⟩ := List.mem_iff_getElem?.mp there
    have operand := slotted.tail index child isChild
    cases index with
    | zero => exact isTree_of_isOperand (operand.operand rfl).isOperand
    | succ index =>
        have admitted := operand.fits.admitted
        have isNothing : Kind.role .unary (0 + 1 + (index + 1)) = .nothing := by
          rw [Nat.add_comm]
          rfl
        rw [isNothing] at admitted
        cases admitted
  obtain ⟨seat, node⟩ := first
  cases node with
  | absent | tree =>
      rw [Operation.operatorIn, others] at found
      · cases found
      · simp
  | leaf token =>
      rw [Operation.operatorIn] at found
      split at found
      · cases found
        rfl
      · rw [others] at found
        cases found

theorem applyUnary_meets {first second : Child Node} {rest : List (Child Node)} {op : Text}
    {operand : Child Node} (named : given → first.node.description = op)
    (formed : given → Formed .loose (.tree .unary flags place (first :: second :: rest)))
    (operandIs : given → Operand law operand.node) :
    Meets given (Operation.applyUnary ⟨.unary, flags, place, first :: second :: rest⟩ op operand)
      (Walked law (.tree .unary flags place (first :: second :: rest))) := by
  have patched : given → ∀ {other : Child Node}, Operand law other.node →
      Formed law (.tree .unary flags place (first :: other :: rest)) := fun known _ otherIs =>
    (Patched.refl.set 1 (.of_operand otherIs rfl)).formed (formed known) rfl
  have kept : given → UnaryOp.ofText? op = none ∨ ¬ IsConstant operand.node →
      Walked law (.tree .unary flags place (first :: second :: rest))
        (.same (.tree .unary flags place (first :: operand :: rest))) := by
    intro known unknown
    rw [← named known] at unknown
    exact .same (unary_good (patched known (operandIs known)) unknown) rfl
  refine valueOf_meets.bind fun value => ?_
  cases value with
  | none => exact .of_pure fun known => kept known.1 (.inr (not_isConstant known.2))
  | some value =>
      show Meets _ (if _ then _ else _) _
      split
      case isTrue isVoid =>
        have notKnown : UnaryOp.ofText? op = none := by
          rw [Text.isString_iff.mp isVoid]
          decide
        show Meets _ (if _ then _ else _) _
        split
        · exact .of_pure fun known => kept known.1 (.inl notKnown)
        · refine .of_pure fun known => ?_
          rw [← named known.1] at notKnown
          exact .same (unary_good (patched known.1 (ofWord_operand _ _)) (.inl notKnown)) rfl
      case isFalse =>
        split
        case h_1 =>
          exact Meets.of_calculate.bind fun result =>
            replaceBy_meets rfl fun known => UnaryOp.apply_isPrimitive known.2
        case h_2 isNone =>
          exact Meets.of_report.bind fun _ => .of_pure fun known => kept known.1.1 (.inl isNone)

theorem unary_meets (sound : Sound law levels walker) {children : List (Child Node)} {op : Text}
    (below : given → Below law (levels + 1) (.tree .unary flags place children))
    (found : given → Operation.operatorIn children = some op) :
    Meets given (Operation.foldUnary walker ⟨.unary, flags, place, children⟩ op)
      (Walked law (.tree .unary flags place children)) := by
  rcases children with _ | ⟨first, _ | ⟨second, rest⟩⟩
  case cons.cons =>
    have named : given → first.node.description = op := fun known =>
      unary_operator (below known).formed (found known)
    have applied : ∀ operand, Meets (given ∧ Operand law operand.node)
        (Operation.applyUnary ⟨.unary, flags, place, first :: second :: rest⟩ op operand)
        (Walked law (.tree .unary flags place (first :: second :: rest))) := fun operand =>
      applyUnary_meets (fun known => named known.1) (fun known => (below known.1).formed) And.right
    refine Meets.of_child.bind fun operand => ?_
    show Meets _ (if _ then _ else _) _
    split
    · exact (requiredTest_meets sound 1 rfl fun known => ⟨below known.1, known.2⟩).bind
        fun folded => (applied folded).weaken fun known => ⟨known.1.1, known.2⟩
    · exact (operand_meets sound 1 rfl fun known => ⟨below known.1, known.2⟩).bind
        fun folded => (applied folded).weaken fun known => ⟨known.1.1, known.2.operand rfl⟩
  all_goals exact .of_throw

theorem paren_meets (sound : Sound law levels walker) {children : List (Child Node)} :
    Meets (Below law (levels + 1) (.tree .paren flags place children))
      (Operation.foldParen walker ⟨.paren, flags, place, children⟩)
      (Walked law (.tree .paren flags place children)) := by
  refine Meets.of_child.bind fun inner => (operand_meets sound 0 rfl id).bind fun inner' => ?_
  refine Meets.of_calculate.bind fun isPrimitive => ?_
  show Meets _ (if _ then _ else _) _
  split
  · exact .of_pure fun known => .of_operand (known.1.2.operand rfl) rfl
  · exact .of_pure fun known => .kept
      ((Patched.refl.set 0 known.1.2).formed known.1.1.1.formed rfl) (Law.not_forbids_of_kind rfl)

/-! ### Templates -/

theorem template_role {index : Nat} (isOdd : index % 2 = 1) :
    Kind.role .template index = .required := by
  show (if index % 2 = 0 then _ else _) = _
  rw [isOdd]
  rfl

theorem template_word {index : Nat} (isEven : index % 2 = 0) :
    Kind.role .template index = .word := by
  show (if index % 2 = 0 then _ else _) = _
  rw [isEven]
  rfl

/-- The parts of a template from an index on, and whether a substitution is not known. -/
structure Pieces (law : Law) (place : Option Place) (start : Nat) (former : List (Child Node))
    (pieces : List (Child Node) × Option Text) : Prop where
  slotted : SlottedFrom law .template place start pieces.1
  length : pieces.1.length = former.length
  unknown : pieces.2 = none → ∃ index part, pieces.1[index]? = some part ∧
    (start + index) % 2 = 1 ∧ ¬ IsConstant part.node

theorem Pieces.cons {start : Nat} {former : List (Child Node)} {child part : Child Node}
    {pieces : List (Child Node) × Option Text} {text : Option Text}
    (others : Pieces law place (start + 1) former pieces)
    (slotted : Slotted law .template place start part)
    (unknown : text = none → pieces.2 = none ∨ start % 2 = 1 ∧ ¬ IsConstant part.node) :
    Pieces law place start (child :: former) (part :: pieces.1, text) := by
  refine ⟨.cons slotted others.slotted, congrArg (· + 1) others.length, fun isNone => ?_⟩
  rcases unknown isNone with rest | ⟨isOdd, notConstant⟩
  · obtain ⟨index, other, found, isOdd, notConstant⟩ := others.unknown rest
    refine ⟨index + 1, other, ?_, ?_, notConstant⟩
    · exact (List.getElem?_cons_succ).trans found
    · rwa [Nat.add_right_comm, Nat.add_assoc] at isOdd
  · exact ⟨0, part, rfl, isOdd, notConstant⟩

/-- The parts of a template from an index on are formed, and their nodes may be folded. -/
structure PiecesBelow (law : Law) (levels : Nat) (place : Option Place) (start : Nat)
    (children : List (Child Node)) : Prop where
  slotted : SlottedFrom .loose .template place start children
  below : ∀ child, child ∈ children → Below law levels child.node

theorem PiecesBelow.tail {start : Nat} {child : Child Node} {rest : List (Child Node)}
    (are : PiecesBelow law levels place start (child :: rest)) :
    PiecesBelow law levels place (start + 1) rest :=
  ⟨are.slotted.tail, fun other there => are.below other (List.mem_cons_of_mem _ there)⟩

/-- A substitution in front of the parts behind it. -/
theorem substitution_meets {start : Nat} {child folded : Child Node} {rest : List (Child Node)}
    {piece : Option Text} (isOdd : start % 2 = 1)
    (later : Meets (PiecesBelow law levels place (start + 1) rest)
      (Operation.foldPieces walker (start + 1) rest) (Pieces law place (start + 1) rest))
    (are : given → PiecesBelow law levels place start (child :: rest))
    (filled : given → Filled law child folded)
    (unknown : given → piece = none → ¬ IsConstant folded.node) :
    Meets given (do
      let (children, text) ← Operation.foldPieces walker (start + 1) rest
      return (folded :: children, do return (← piece) ++ (← text)))
      (Pieces law place start (child :: rest)) := by
  have isOperand : (Kind.role .template start).isOperand = true := by
    rw [template_role isOdd]
    rfl
  refine (later.weaken fun known => (are known).tail).bind
    fun pieces => .of_pure fun known => known.2.cons
      ((filled known.1).slotted (are known.1).slotted.head isOperand) fun isNone => ?_
  cases piece with
  | none => exact .inr ⟨isOdd, unknown known.1 rfl⟩
  | some text =>
      refine .inl ?_
      cases isText : pieces.2 with
      | none => rfl
      | some others =>
          rw [isText] at isNone
          cases isNone

private theorem foldPieces_meets (sound : Sound law levels walker) (start : Nat)
    (children : List (Child Node)) :
    Meets (PiecesBelow law levels place start children)
      (Operation.foldPieces walker start children) (Pieces law place start children) := by
  induction children generalizing start with
  | nil => exact .of_pure fun _ => ⟨.nil, rfl, by simp⟩
  | cons child rest induction =>
      rw [Operation.foldPieces]
      split
      case isTrue isEven =>
        refine Meets.of_calculate.bind fun piece => ?_
        refine ((induction (start + 1)).weaken fun known => known.1.tail).bind fun pieces => ?_
        refine .of_pure fun known => known.2.cons
          (known.1.1.slotted.head.fixed_word (template_word isEven)) fun isNone => .inl ?_
        simpa using isNone
      case isFalse notEven =>
        have isOdd : start % 2 = 1 := by omega
        have isOperand : (Kind.role .template start).isOperand = true := by
          rw [template_role isOdd]
          rfl
        refine ((expression_meets sound child).weaken fun known =>
          ⟨known.below child List.mem_cons_self,
            known.slotted.head.isTree_or_absent isOperand⟩).bind
            fun folded => valueOf_meets.bind fun value => ?_
        cases value with
        | none =>
            exact substitution_meets isOdd (induction (start + 1)) (fun known => known.1.1)
              (fun known => known.1.2) fun known _ => not_isConstant known.2
        | some value =>
            exact Meets.of_calculate.bind fun text =>
              substitution_meets isOdd (induction (start + 1)) (fun known => known.1.1.1)
                (fun known => known.1.1.2) (by simp)

theorem template_meets (sound : Sound law levels walker) {children : List (Child Node)} :
    Meets (Below law (levels + 1) (.tree .template flags place children))
      (Operation.foldTemplate walker ⟨.template, flags, place, children⟩)
      (Walked law (.tree .template flags place children)) := by
  refine ((foldPieces_meets sound 0 children).weaken fun below =>
    ⟨formed_iff_slotted.mp below.formed, fun child there => below.child there⟩).bind
      fun pieces => ?_
  have kept : Pieces law place 0 children pieces → pieces.2 = none ∨ children.length = 1 →
      Walked law (.tree .template flags place children)
        (.same (.tree .template flags place pieces.1)) := by
    intro are unknown
    refine .kept (formed_iff_slotted.mpr are.slotted) ?_
    rintro ⟨_, residue⟩
    cases residue with
    | template substituted partsAre =>
        rcases unknown with isNone | isOne
        · obtain ⟨index, part, found, isOdd, notConstant⟩ := are.unknown isNone
          rw [Nat.zero_add] at isOdd
          exact notConstant (partsAre index part found isOdd)
        · rw [are.length, isOne] at substituted
          exact absurd substituted (Nat.lt_irrefl 1)
  obtain ⟨parts, text⟩ := pieces
  cases text with
  | none => exact .of_pure fun known => kept known.2 (.inl rfl)
  | some text =>
      show Meets _ (if _ then _ else _) _
      split
      case isTrue isOne => exact .of_pure fun known => kept known.2 (.inr isOne)
      case isFalse => exact replaceBy_meets rfl fun _ => rfl

theorem Below.succ {node : Node} (below : Below law levels node) : Below law (levels + 1) node :=
  ⟨below.premise, below.formed, Nat.le_succ_of_le below.height⟩

/-- The substitutions of a template behind a tag. -/
theorem substitutions_meets (sound : Sound law levels walker) (flags : Flags)
    (place : Option Place) {parts : List (Child Node)} :
    Meets (Below law levels (.tree .template flags place parts))
      (parts.zipIdx.mapM fun (part, index) =>
        if index % 2 = 1 then Slot.expression walker part else pure part)
      (SlottedFrom law .template place 0) := by
  have acts : ∀ item, item ∈ parts.zipIdx →
      Meets (Below law levels (.tree .template flags place parts))
      (match item with
        | (part, index) => if index % 2 = 1 then Slot.expression walker part else pure part)
      (Slotted law .template place item.2) := by
    rintro ⟨part, index⟩ there
    have found : parts[index]? = some part := List.mk_mem_zipIdx_iff_getElem?.mp there
    show Meets _ (if _ then _ else _) _
    split
    case isTrue isOdd =>
      exact operand_meets sound index (by rw [template_role isOdd]; rfl)
        fun below => ⟨below.succ, found⟩
    case isFalse notOdd =>
      exact .of_pure fun below => (below.succ.slotted found).1.fixed_word
        (template_word (by omega))
  refine (Meets.mapM acts).mono fun results _ each index part found => ?_
  obtain ⟨item, isItem, slotted⟩ := each index part found
  rw [List.getElem?_zipIdx] at isItem
  obtain ⟨former, _, rfl⟩ := Option.map_eq_some_iff.mp isItem
  exact slotted

private theorem Slotted.of_quasi {seat : Option Nat} {parts : List (Child Node)} {inner
    : Option Place}
    {innerFlags : Flags} (slotted : SlottedFrom law .template inner 0 parts) :
    Slotted law .taggedTemplate place 1 ⟨seat, .tree .template innerFlags inner parts⟩ :=
  ⟨⟨rfl, nofun, nofun, fun _ => rfl⟩, formed_iff_slotted.mpr slotted⟩

theorem tagged_meets (sound : Sound law levels walker) {children : List (Child Node)} :
    Meets (Below law (levels + 1) (.tree .taggedTemplate flags place children))
      (Operation.foldTagged walker ⟨.taggedTemplate, flags, place, children⟩)
      (Walked law (.tree .taggedTemplate flags place children)) := by
  refine Meets.of_child.bind fun tag => (operand_meets sound 0 rfl id).bind fun tag' => ?_
  refine Meets.of_child.bind fun quasi => ?_
  obtain ⟨seat, node⟩ := quasi
  cases node with
  | absent | leaf => exact .of_throw
  | tree inner innerFlags innerPlace parts =>
      have isTemplate : Below law (levels + 1) (.tree .taggedTemplate flags place children) →
          children[1]? = some ⟨seat, .tree inner innerFlags innerPlace parts⟩ →
          inner = .template := fun below found =>
        Option.some.inj (below.slotted found).1.fits.admitted
      refine ((substitutions_meets sound innerFlags innerPlace).weaken ?_).bind
        fun parts' => .of_pure ?_
      · rintro ⟨⟨⟨below, _⟩, _⟩, found⟩
        have inner := (below.slotted found).2
        rwa [isTemplate below found] at inner
      · rintro ⟨⟨⟨⟨below, _⟩, tagIs⟩, found⟩, partsAre⟩
        cases isTemplate below found
        exact .kept (((Patched.refl.set 0 tagIs).set 1 (.of_quasi partsAre)).formed
          below.formed rfl) (Law.not_forbids_of_kind rfl)

end ScriptFold
