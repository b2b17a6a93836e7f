import ScriptFold.Proofs.Fold.Returns
import ScriptFold.Proofs.Meaning.Literal

/-!
# Expressions read for their truth

Simplifying an expression that is read only for its truth keeps its truth and its
calls.  The delicate step drops a left operand because of the right one.  It asks
whether the left operand is pure; folded expressions are tidy, and a tidy pure
expression always has a value.
-/

namespace ScriptFold

theorem Text.isString_iff {text : Text} {word : String} :
    text.isString word = true ↔ text = Text.ofString word := by
  simp [Text.isString]

@[simp] theorem Outcome.node_same (node : Node) : (Outcome.same node).node = node := rfl

@[simp] theorem Outcome.node_instead (node : Node) : (Outcome.instead node).node = node := rfl

@[simp] theorem Outcome.inSeat_node (outcome : Outcome) (seat : Option Nat) :
    (outcome.inSeat seat).node = outcome.node := by
  cases outcome <;> rfl

namespace Meaning

open Operation

variable {context : Context}

/-- Whether parentheses and operators, `void` apart, have no literal directly inside,
down to where an expression is no longer read for its truth. -/
def isTidy : Node → Bool
  | .tree .paren _ _ [⟨_, inner⟩] => !inner.isKind .literal && isTidy inner
  | .tree .unary _ _ [⟨_, .leaf op⟩, ⟨_, operand⟩] =>
      (op.text.isString "void" || !operand.isKind .literal) && isTidy operand
  | .tree .logical _ _ [⟨_, left⟩, _, ⟨_, right⟩] => isTidy left && isTidy right
  | _ => true

/-- Reading an expression always gives a value and makes no calls. -/
def Quiet (node : Node) : Prop :=
  ∀ world events, ∃ value, (eval world [] node).run.run events = (.ok value, events)

private theorem value?_ne_none_of_literal {node : Node} (expression : IsExpression context node)
    (literal : node.isKind .literal = true) : Literal.value? node ≠ .ok none := by
  cases expression with
  | literal primitive =>
      rw [Literal.value?]
      exact tokenValue?_ne_none primitive
  | _ => simp [Node.isKind, Node.kind?] at literal

theorem not_literal_of_value?_eq_none {node : Node} (expression : IsExpression context node)
    (unknown : Literal.value? node = .ok none) : node.isKind .literal = false := by
  cases literal : node.isKind .literal with
  | false => rfl
  | true => exact absurd unknown (value?_ne_none_of_literal expression literal)

theorem not_literal_of_not_isPrimitive {node : Node} (expression : IsExpression context node)
    (notPrimitive : Literal.isPrimitive node = .ok false) : node.isKind .literal = false := by
  cases expression with
  | literal primitive =>
      obtain ⟨found, read, missing⟩ := Calculation.of_bind_eq_ok notPrimitive
      cases found with
      | none => exact absurd read (tokenValue?_ne_none primitive)
      | some value => cases missing
  | _ => rfl

/-- Negation only looks at the truth of its operand. -/
theorem eval_not {flags : Flags} {place : Option Place} {seat : Option Nat} {op : Leaf}
    {operand : Child Node} (isNot : op.text.isString "!" = true) (world : World)
    (bound : Table Value) :
    eval world bound (.tree .unary flags place [⟨seat, .leaf op⟩, operand]) =
      (fun b => .bool !b) <$> truth (eval world bound operand.node) := by
  have spelling := Text.isString_iff.mp isNot
  have result : ∀ value, calculate (unaryResult op.text value) =
      (pure (.bool !value.isTruthy) : Run Value) := by
    intro value
    have notVoid : ¬ (Text.ofString "!").isString "void" = true := by decide
    have known : UnaryOp.ofText? "!" = some .not := by decide
    have applied : UnaryOp.apply .not value = .ok (.bool !value.isTruthy) := rfl
    rw [spelling, unaryResult, if_neg notVoid, known]
    simp only [applied, Calculation.ok_bind]
    rw [throughLiteral_bool]
    rfl
  simp only [eval_unary, result, truth, Functor.map_map, bind_pure_comp]

theorem eval_typeof {flags : Flags} {place : Option Place} {seat : Option Nat} {op : Leaf}
    {operand : Child Node} (isTypeof : op.text.isString "typeof" = true) (world : World)
    (bound : Table Value) :
    eval world bound (.tree .unary flags place [⟨seat, .leaf op⟩, operand]) =
      (fun value => .string value.typeOf.word) <$> eval world bound operand.node := by
  have spelling := Text.isString_iff.mp isTypeof
  have result : ∀ value, calculate (unaryResult op.text value) =
      (pure (.string value.typeOf.word) : Run Value) := by
    intro value
    have notVoid : ¬ (Text.ofString "typeof").isString "void" = true := by decide
    have known : UnaryOp.ofText? "typeof" = some .typeOf := by decide
    have applied : UnaryOp.apply .typeOf value = .ok (.string value.typeOf.word) := rfl
    rw [spelling, unaryResult, if_neg notVoid, known]
    simp only [applied, Calculation.ok_bind]
    rw [Value.string, throughLiteral_str]
    rfl
  simp only [eval_unary, result, bind_pure_comp]

theorem Quiet.map {node other : Node} (quiet : Quiet node) (change : Value → Value)
    (equality : ∀ world, eval world [] other = change <$> eval world [] node) : Quiet other := by
  intro world events
  obtain ⟨value, run⟩ := quiet world events
  refine ⟨change value, ?_⟩
  rw [equality, ExceptT.run_map, StateT.run_map, run]
  rfl

theorem operatorOf_unary {seat : Option Nat} {op : Leaf} {operand : Child Node}
    (isOp : op.type = .op) {word : Text}
    (returns : FoldM.Returns (operatorOf .unary [⟨seat, .leaf op⟩, operand]) word) :
    word = op.text := by
  simp only [operatorOf, operatorIn, isOp, true_or, if_true] at returns
  exact returns.eq_of_pure

/-- A tidy pure expression that is no literal always has a value. -/
theorem quiet_of_isPure {node : Node} (expression : IsExpression context node)
    (tidy : isTidy node = true) (isPure : FoldM.Returns (isPure node) true)
    (notLiteral : node.isKind .literal = false) : Quiet node := by
  induction expression with
  | literal primitive => simp [Node.isKind, Node.kind?] at notLiteral
  | @name flags place seat token =>
      intro world events
      exact ⟨world.read events token.text, rfl⟩
  | @paren flags place inner innerIs induction =>
      simp only [isTidy, Bool.and_eq_true, Bool.not_eq_true'] at tidy
      simp only [Operation.isPure] at isPure
      exact induction tidy.2 isPure tidy.1
  | @unary flags place seat op operand isOp known operandIs induction =>
      simp only [Operation.isPure] at isPure
      obtain ⟨word, found, isPure⟩ := isPure.of_bind
      cases operatorOf_unary isOp found
      split at isPure
      case isFalse => cases isPure.eq_of_pure
      case isTrue spelled =>
        simp only [isTidy, Bool.and_eq_true, Bool.or_eq_true, Bool.not_eq_true'] at tidy
        simp only [Text.isOneOf, List.any_cons, List.any_nil, Bool.or_false, Bool.or_eq_true]
          at spelled
        have bare : operand.node.isKind .literal = false := by
          rcases tidy.1 with isVoid | bare
          · rcases spelled with word | word <;>
              rw [Text.isString_iff.mp word] at isVoid <;> cases isVoid
          · exact bare
        have operandQuiet := induction tidy.2 isPure bare
        rcases spelled with isNot | isTypeof
        · apply operandQuiet.map fun value => .bool !value.isTruthy
          intro world
          rw [eval_not isNot, truth, Functor.map_map]
        · exact operandQuiet.map _ fun world => eval_typeof isTypeof world []
  | binary | logical | conditional | template | call =>
      simp only [Operation.isPure] at isPure
      cases isPure.eq_of_pure

theorem needsRight_short {op : Text} {isAnd : Bool}
    (spelling : op.isString (if isAnd then "&&" else "||") = true) (value : Value) :
    needsRight op value = .ok (value.isTruthy == isAnd) := by
  rw [Text.isString_iff.mp spelling]
  cases isAnd with
  | false =>
      have notAnd : ¬ (Text.ofString "||").isString "&&" = true := by decide
      have isOr : (Text.ofString "||").isString "||" = true := by decide
      change needsRight (Text.ofString "||") value = _
      rw [needsRight, if_neg notAnd, if_pos isOr]
      cases value.isTruthy <;> rfl
  | true =>
      have isAnd : (Text.ofString "&&").isString "&&" = true := by decide
      change needsRight (Text.ofString "&&") value = _
      rw [needsRight, if_pos isAnd]
      cases value.isTruthy <;> rfl

/-- The truth of a logical expression. -/
theorem truth_logical {flags : Flags} {place : Option Place} {seat : Option Nat} {op : Leaf}
    {left right : Child Node} {isAnd : Bool}
    (spelling : op.text.isString (if isAnd then "&&" else "||") = true)
    (world : World) (bound : Table Value) :
    truth (eval world bound (.tree .logical flags place [left, ⟨seat, .leaf op⟩, right])) =
      (do
        let first ← truth (eval world bound left.node)
        if first = isAnd then truth (eval world bound right.node) else return first) := by
  have proceed : ∀ value : Value,
      Value.isTruthy <$>
          (do
            let goes ← calculate (needsRight op.text value)
            if goes then eval world bound right.node else pure value : Run Value) =
        if value.isTruthy = isAnd then Value.isTruthy <$> eval world bound right.node
        else pure value.isTruthy := by
    intro value
    rw [needsRight_short spelling]
    change Value.isTruthy <$> (if (value.isTruthy == isAnd) = true then
      eval world bound right.node else pure value) = _
    by_cases same : value.isTruthy = isAnd <;> simp [same]
  simp only [eval_logical, truth, map_bind, bind_map_left, proceed]

theorem logical_spelling {op : Text} (known : op.isOneOf ["&&", "||", "??"] = true) :
    (∃ isAnd : Bool, op.isString (if isAnd then "&&" else "||") = true) ∨
      op.isString "??" = true := by
  simp only [Text.isOneOf, List.any_cons, List.any_nil, Bool.or_false, Bool.or_eq_true] at known
  rcases known with isAnd | isOr | isNullish
  · exact .inl ⟨true, isAnd⟩
  · exact .inl ⟨false, isOr⟩
  · exact .inr isNullish

/-- What the left operand of a logical expression decides. -/
theorem fromLeft_cases {op : Text} {left right : Node} {result : Option Node}
    (known : op.isOneOf ["&&", "||", "??"] = true)
    (returns : FoldM.Returns (fromLeft op left right) result) :
    (Literal.value? left = .ok none ∧ result = none) ∨
      ∃ value goes, Literal.value? left = .ok (some value) ∧ needsRight op value = .ok goes ∧
        result = some (if goes then right else left) := by
  obtain ⟨found, read, returns⟩ := returns.of_bind
  have read := read.of_calculate
  cases found with
  | none => exact .inl ⟨read, returns.eq_of_pure⟩
  | some value =>
      refine .inr ?_
      rcases logical_spelling known with ⟨isAnd, spelling⟩ | isNullish
      · refine ⟨value, _, read, needsRight_short spelling value, ?_⟩
        rw [Text.isString_iff.mp spelling] at returns
        cases isAnd
        · have chosen : result = some (if value.isTruthy then left else right) :=
            returns.eq_of_pure
          rw [chosen]
          cases value.isTruthy <;> rfl
        · have chosen : result = some (if value.isTruthy then right else left) :=
            returns.eq_of_pure
          rw [chosen]
          cases value.isTruthy <;> rfl
      · rw [Text.isString_iff.mp isNullish] at returns ⊢
        exact ⟨value, value.isNullish, read, rfl, returns.eq_of_pure⟩

/-- What the right operand of `&&` or `||` decides. -/
theorem fromRight_cases {op : Text} {isAnd : Bool} {left right : Node} {result : Option Node}
    (spelling : op.isString (if isAnd then "&&" else "||") = true)
    (returns : FoldM.Returns (fromRight op left right) result) :
    result = none ∨
      ∃ value, Literal.value? right = .ok (some value) ∧
        ((value.isTruthy = isAnd ∧ result = some left) ∨
          (value.isTruthy ≠ isAnd ∧ FoldM.Returns (isPure left) true ∧ result = some right)) := by
  obtain ⟨found, known, returns⟩ := returns.of_bind
  have known := known.of_calculate
  cases found with
  | none => exact .inl returns.eq_of_pure
  | some value =>
      have isAndWord : op.isString "&&" = isAnd := by
        rw [Text.isString_iff.mp spelling]
        cases isAnd <;> rfl
      simp only [isAndWord, beq_iff_eq] at returns
      split at returns
      case isTrue same => exact .inr ⟨value, known, .inl ⟨same, returns.eq_of_pure⟩⟩
      case isFalse different =>
        obtain ⟨isPure, leftPure, returns⟩ := returns.of_bind
        cases isPure with
        | false => exact .inl returns.eq_of_pure
        | true =>
            exact .inr ⟨value, known, .inr ⟨different, leftPure, returns.eq_of_pure⟩⟩

/-- One expression stands for another where only the truth is read. -/
structure Reduced (context : Context) (node reduced : Node) : Prop where
  expression : IsExpression context reduced
  tidy : isTidy reduced = true
  truth : ∀ world, truth (eval world [] reduced) = truth (eval world [] node)

theorem truth_of_value? {node : Node} {value : Value} (expression : IsExpression context node)
    (found : Literal.value? node = .ok (some value)) (world : World) :
    truth (eval world [] node) = pure value.isTruthy := by
  rw [eval_of_value? expression found, truth, map_pure]

/-- Dropping a quiet left operand keeps the truth if the right one decides. -/
theorem Quiet.truth_bind {node : Node} (quiet : Quiet node) (world : World) {isAnd other : Bool}
    (different : other ≠ isAnd) :
    (do
      let first ← truth (eval world [] node)
      if first = isAnd then pure other else pure first : Run Bool) = pure other := by
  have same : ∀ first : Bool,
      (if first = isAnd then pure other else pure first : Run Bool) = pure other := by
    intro first
    by_cases equal : first = isAnd
    · rw [if_pos equal]
    · rw [if_neg equal]
      congr 1
      cases first <;> cases isAnd <;> cases other <;> simp_all
  simp only [same]
  apply ExceptT.ext
  apply StateT.ext
  intro events
  obtain ⟨value, run⟩ := quiet world events
  simp only [truth, ExceptT.run_bind, StateT.run_bind, ExceptT.run_map, StateT.run_map, run]
  rfl

/-- A right operand that lets the left one decide can be dropped. -/
theorem truth_bind_same (run : Run Value) {isAnd other : Bool} (same : other = isAnd) :
    (do
      let first ← truth run
      if first = isAnd then pure other else pure first : Run Bool) = truth run := by
  have chosen : ∀ first : Bool,
      (if first = isAnd then pure other else pure first : Run Bool) = pure first := by
    intro first
    by_cases equal : first = isAnd
    · rw [if_pos equal, equal, same]
    · rw [if_neg equal]
  simp only [chosen, bind_pure]

theorem Reduced.same {node : Node} (expression : IsExpression context node)
    (tidy : isTidy node = true) : Reduced context node node :=
  ⟨expression, tidy, fun _ => rfl⟩

theorem literal_bool {b : Bool} {found : Option Node}
    (written : Literal.ofValue? (.bool b) = .ok found) :
    ∃ node, found = some node ∧ IsExpression context node ∧ isTidy node = true ∧
      ∀ world, eval world [] node = pure (.bool b) := by
  cases found with
  | none => exact absurd written (ofValue?_ne_none rfl)
  | some node =>
      obtain ⟨expression, meaning⟩ := @eval_ofValue? context _ _ rfl written
      refine ⟨node, rfl, expression, ?_, ?_⟩
      · cases b <;> cases written <;> rfl
      · intro world
        rw [meaning, throughLiteral_bool]
        rfl

/-- Reducing a logical expression whose operands are reduced keeps its truth. -/
theorem reduceLogical_reduced {flags : Flags} {place : Option Place} {seat : Option Nat}
    {op : Leaf} {left right left' right' : Child Node} {isAnd : Bool} {outcome : Outcome}
    (isOp : op.type = .op)
    (spelling : op.text.isString (if isAnd then "&&" else "||") = true)
    (leftReduced : Reduced context left.node left'.node)
    (rightReduced : Reduced context right.node right'.node)
    (returns : FoldM.Returns
      (reduceLogical ⟨.logical, flags, place, []⟩ left' ⟨seat, .leaf op⟩ right') outcome) :
    Reduced context (.tree .logical flags place [left, ⟨seat, .leaf op⟩, right])
      outcome.node := by
  have known : op.text.isOneOf ["&&", "||", "??"] = true := by
    rw [Text.isString_iff.mp spelling]
    cases isAnd <;> rfl
  have meaning : ∀ world,
      truth (eval world [] (.tree .logical flags place [left, ⟨seat, .leaf op⟩, right])) =
        (do
          let first ← truth (eval world [] left'.node)
          if first = isAnd then truth (eval world [] right'.node) else return first) := by
    intro world
    rw [truth_logical spelling, leftReduced.truth, rightReduced.truth]
  obtain ⟨result, fromLeft, returns⟩ := returns.of_bind
  rcases fromLeft_cases known fromLeft with ⟨unknown, rfl⟩ | ⟨value, goes, found, needs, rfl⟩
  · obtain ⟨result, fromRight, returns⟩ := returns.of_bind
    rcases fromRight_cases spelling fromRight with rfl | ⟨value, found, decided⟩
    · cases returns.eq_of_pure
      refine ⟨.logical isOp known leftReduced.expression rightReduced.expression, ?_, ?_⟩
      · simp [isTidy, leftReduced.tidy, rightReduced.tidy]
      · intro world
        rw [meaning, Outcome.node, truth_logical spelling]
    · rcases decided with ⟨same, rfl⟩ | ⟨different, leftPure, rfl⟩
      · cases returns.eq_of_pure
        refine ⟨leftReduced.expression, leftReduced.tidy, ?_⟩
        intro world
        rw [meaning, truth_of_value? rightReduced.expression found, truth_bind_same _ same]
        rfl
      · cases returns.eq_of_pure
        refine ⟨rightReduced.expression, rightReduced.tidy, ?_⟩
        intro world
        have quiet := quiet_of_isPure leftReduced.expression leftReduced.tidy leftPure
          (not_literal_of_value?_eq_none leftReduced.expression unknown)
        rw [meaning, truth_of_value? rightReduced.expression found,
          quiet.truth_bind world different, Outcome.node,
          truth_of_value? rightReduced.expression found]
  · cases returns.eq_of_pure
    cases (needsRight_short spelling value).symm.trans needs
    by_cases same : value.isTruthy = isAnd
    · rw [if_pos (beq_iff_eq.mpr same)]
      refine ⟨rightReduced.expression, rightReduced.tidy, ?_⟩
      intro world
      rw [meaning, truth_of_value? leftReduced.expression found, pure_bind, if_pos same]
      rfl
    · rw [if_neg (mt beq_iff_eq.mp same)]
      refine ⟨leftReduced.expression, leftReduced.tidy, ?_⟩
      intro world
      rw [meaning, truth_of_value? leftReduced.expression found, pure_bind, if_neg same,
        Outcome.node, truth_of_value? leftReduced.expression found]

/-- Reducing a negation whose operand is reduced keeps its truth. -/
theorem negated_reduced {flags : Flags} {place : Option Place} {seat : Option Nat} {op : Leaf}
    {operand : Child Node} {operandOutcome outcome : Outcome} (isOp : op.type = .op)
    (known : op.text.isString "void" = true ∨ (UnaryOp.ofText? op.text).isSome = true)
    (isNot : op.text.isString "!" = true)
    (operandReduced : Reduced context operand.node operandOutcome.node)
    (returns : FoldM.Returns
      (negated (.tree .unary flags place [⟨seat, .leaf op⟩, operandOutcome.inSeat operand.seat])
        operandOutcome.node) outcome) :
    Reduced context (.tree .unary flags place [⟨seat, .leaf op⟩, operand]) outcome.node := by
  obtain ⟨found, read, returns⟩ := returns.of_bind
  have read := read.of_calculate
  cases found with
  | none =>
      cases returns.eq_of_pure
      have bare := not_literal_of_value?_eq_none operandReduced.expression read
      refine ⟨.unary isOp known (by simpa using operandReduced.expression), ?_, ?_⟩
      · simp [isTidy, bare, operandReduced.tidy]
      · intro world
        rw [Outcome.node_same, eval_not isNot, eval_not isNot, Outcome.inSeat_node,
          operandReduced.truth]
  | some value =>
      obtain ⟨written, write, returns⟩ := returns.of_bind
      obtain ⟨node, rfl, expression, tidy, meaning⟩ :=
        @literal_bool context _ _ write.of_calculate
      cases returns.eq_of_pure
      refine ⟨expression, tidy, ?_⟩
      intro world
      rw [Outcome.node_instead, meaning, eval_not isNot, ← operandReduced.truth,
        truth_of_value? operandReduced.expression read]
      rfl

theorem operatorOf_logical {seat : Option Nat} {op : Leaf} {left right : Child Node}
    (isOp : op.type = .op) (leftIs : IsExpression context left.node) {word : Text}
    (returns : FoldM.Returns (operatorOf .logical [left, ⟨seat, .leaf op⟩, right]) word) :
    word = op.text := by
  have found : operatorIn [left, ⟨seat, .leaf op⟩, right] = some op.text := by
    obtain ⟨leftSeat, left⟩ := left
    cases leftIs <;> simp [operatorIn, isOp]
  simp only [operatorOf, found] at returns
  exact returns.eq_of_pure

/-- Reducing a tidy expression keeps its truth, and the result is tidy again. -/
theorem reduce_reduced {node : Node} {outcome : Outcome} (expression : IsExpression context node)
    (tidy : isTidy node = true) (returns : FoldM.Returns (reduce node) outcome) :
    Reduced context node outcome.node := by
  induction expression generalizing outcome with
  | @paren flags place inner innerIs induction =>
      simp only [reduce] at returns
      simp only [isTidy, Bool.and_eq_true, Bool.not_eq_true'] at tidy
      obtain ⟨innerOutcome, reduced, returns⟩ := returns.of_bind
      have innerReduced := induction tidy.2 reduced
      obtain ⟨isPrimitive, calculated, returns⟩ := returns.of_bind
      cases isPrimitive with
      | true =>
          cases returns.eq_of_pure
          refine ⟨innerReduced.expression, innerReduced.tidy, ?_⟩
          intro world
          rw [eval_paren]
          exact innerReduced.truth world
      | false =>
          have bare := not_literal_of_not_isPrimitive innerReduced.expression
            calculated.of_calculate
          cases returns.eq_of_pure
          refine ⟨.paren (by simpa using innerReduced.expression), ?_, ?_⟩
          · simp [isTidy, bare, innerReduced.tidy]
          · intro world
            simp only [Outcome.node_same, eval_paren, Outcome.inSeat_node]
            exact innerReduced.truth world
  | @unary flags place seat op operand isOp known operandIs induction =>
      simp only [reduce] at returns
      obtain ⟨word, found, returns⟩ := returns.of_bind
      cases operatorOf_unary isOp found
      cases isNot : op.text.isString "!" with
      | false =>
          rw [isNot] at returns
          cases returns.eq_of_pure
          exact .same (.unary isOp known operandIs) tidy
      | true =>
          rw [isNot] at returns
          simp only [isTidy, Bool.and_eq_true] at tidy
          obtain ⟨operandOutcome, reduced, returns⟩ := returns.of_bind
          exact negated_reduced isOp known isNot (induction tidy.2 reduced) returns
  | @logical flags place seat op left right isOp known leftIs rightIs leftInduction
      rightInduction =>
      simp only [reduce] at returns
      obtain ⟨word, found, returns⟩ := returns.of_bind
      cases operatorOf_logical isOp leftIs found
      rcases logical_spelling known with ⟨isAnd, spelling⟩ | isNullish
      · have isShort : op.text.isOneOf ["&&", "||"] = true := by
          rw [Text.isString_iff.mp spelling]
          cases isAnd <;> rfl
        rw [isShort] at returns
        simp only [isTidy, Bool.and_eq_true] at tidy
        obtain ⟨leftOutcome, leftReduced, returns⟩ := returns.of_bind
        obtain ⟨rightOutcome, rightReduced, returns⟩ := returns.of_bind
        have leftReduced := leftInduction tidy.1 leftReduced
        have rightReduced := rightInduction tidy.2 rightReduced
        exact reduceLogical_reduced isOp spelling (by simpa using leftReduced)
          (by simpa using rightReduced) returns
      · have isOther : op.text.isOneOf ["&&", "||"] = false := by
          rw [Text.isString_iff.mp isNullish]
          rfl
        rw [isOther] at returns
        cases returns.eq_of_pure
        exact .same (.logical isOp known leftIs rightIs) tidy
  | literal primitive =>
      simp only [reduce] at returns
      cases returns.eq_of_pure
      exact .same (.literal primitive) tidy
  | name =>
      simp only [reduce] at returns
      cases returns.eq_of_pure
      exact .same .name tidy
  | binary known leftIs rightIs =>
      simp only [reduce] at returns
      cases returns.eq_of_pure
      exact .same (.binary known leftIs rightIs) tidy
  | conditional testIs consequentIs alternateIs =>
      simp only [reduce] at returns
      cases returns.eq_of_pure
      exact .same (.conditional testIs consequentIs alternateIs) tidy
  | template pieces substitutions =>
      simp only [reduce] at returns
      cases returns.eq_of_pure
      exact .same (.template pieces substitutions) tidy
  | call required notFunction notMacro argsAre =>
      simp only [reduce] at returns
      cases returns.eq_of_pure
      exact .same (.call required notFunction notMacro argsAre) tidy

end Meaning

end ScriptFold
