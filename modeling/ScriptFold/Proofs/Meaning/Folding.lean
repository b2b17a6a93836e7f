import ScriptFold.Proofs.Meaning.Reduction
import ScriptFold.Tree.Basic

/-!
# Folding keeps the meaning of expressions

If folding an expression returns, then the folded expression gives the same value and
makes the same calls as the expression did with the bound names in place.  Each step
is treated on its own, under the assumption that the nodes below it are folded well;
the height of the tree then carries the argument through all levels.
-/

namespace ScriptFold

theorem FoldM.Returns.of_child {branch : Branch} {index : Nat} {child result : Child Node}
    (there : branch.children[index]? = some child)
    (returns : FoldM.Returns (branch.child index) result) : result = child := by
  simp only [Branch.child, there] at returns
  exact returns.eq_of_pure

namespace Meaning

open FoldM

/-- What the bindings must be for the evaluator to know them all: primitive values. -/
structure Plain (context : Context) : Prop where
  fragments : context.fragments = []
  values : ∀ name value, context.values.lookup name = some value → value.isPrimitive = true

/-- A folded expression that means the same without the bindings as the expression did
with them. -/
structure Preserved (context : Context) (node folded : Node) : Prop where
  expression : IsExpression context folded
  tidy : isTidy folded = true
  meaning : ∀ world, eval world [] folded = eval world context.values node

/-- A folded expression that means the same where only the truth is read. -/
structure Tested (context : Context) (node folded : Node) : Prop where
  expression : IsExpression context folded
  tidy : isTidy folded = true
  truth : ∀ world, truth (eval world [] folded) = truth (eval world context.values node)

/-- A result of folding that is one expression of the same meaning. -/
def Keeps (context : Context) (node : Node) (folded : Folded) : Prop :=
  ∃ outcome : Outcome, folded = outcome.toFolded ∧ Preserved context node outcome.node

/-- An expression whose folding keeps its meaning. -/
structure Kept (walker : Walker) (node : Node) : Prop where
  expression : IsExpression walker.context node
  walked : ∀ folded, Returns (walker.walk node) folded → Keeps walker.context node folded

variable {context : Context} {walker : Walker}

theorem IsExpression.isTree {node : Node} (expression : IsExpression context node) :
    ∃ kind flags place children, node = .tree kind flags place children ∧
      kind.isStatement = false := by
  cases expression <;> exact ⟨_, _, _, _, rfl, rfl⟩

theorem IsExpression.ofNode {node : Node} (expression : IsExpression context node) :
    Folded.ofNode node = (Outcome.instead node).toFolded := by
  obtain ⟨kind, flags, place, children, rfl, _⟩ := expression.isTree
  rfl

theorem expressionOf_eq {former : Node} {seat : Option Nat} {outcome : Outcome}
    {result : Child Node} (expression : IsExpression context outcome.node)
    (returns : Returns (Slot.expressionOf former seat outcome) result) :
    result.node = outcome.node := by
  obtain ⟨kind, flags, place, children, isTree, notStatement⟩ := expression.isTree
  simp only [Slot.expressionOf, isTree, Node.kind?, notStatement] at returns
  rw [returns.eq_of_pure, Outcome.inSeat_node]

theorem Kept.expression_preserved {child result : Child Node} (kept : Kept walker child.node)
    (returns : Returns (Slot.expression walker child) result) :
    Preserved walker.context child.node result.node := by
  obtain ⟨kind, flags, place, children, isTree, _⟩ := kept.expression.isTree
  have present : child.node.isAbsent = false := by
    rw [isTree]
    rfl
  simp only [Slot.expression, present] at returns
  obtain ⟨folded, walked, returns⟩ := returns.of_bind
  obtain ⟨outcome, rfl, preserved⟩ := kept.walked folded walked
  cases outcome with
  | same node =>
      rw [expressionOf_eq preserved.expression returns]
      exact preserved
  | instead node =>
      rw [expressionOf_eq preserved.expression returns]
      exact preserved

theorem Kept.test_tested {child result : Child Node} (kept : Kept walker child.node)
    (returns : Returns (Operation.test walker child) result) :
    Tested walker.context child.node result.node := by
  obtain ⟨folded, walked, returns⟩ := returns.of_bind
  have preserved := kept.expression_preserved walked
  obtain ⟨outcome, reduced, returns⟩ := returns.of_bind
  have reduced := reduce_reduced preserved.expression preserved.tidy reduced
  cases returns.eq_of_pure
  rw [Outcome.inSeat_node]
  refine ⟨reduced.expression, reduced.tidy, ?_⟩
  intro world
  rw [reduced.truth, preserved.meaning]

/-- The literal of a primitive value keeps its meaning and is tidy. -/
theorem isTidy_ofValue? {value : Value} {node : Node} (primitive : value.isPrimitive = true)
    (written : Literal.ofValue? value = .ok (some node)) : isTidy node = true := by
  cases value with
  | undefined | null | str =>
      cases written
      rfl
  | bool b => cases b <;> cases written <;> rfl
  | num n =>
      rw [Literal.ofValue?] at written
      obtain ⟨text, _, written⟩ := Calculation.of_bind_eq_ok written
      cases written
      rfl
  | list | tuple | record | function | sealed => cases primitive

theorem literal_preserved {node literal : Node} {value : Value}
    (primitive : value.isPrimitive = true)
    (meaning : ∀ world, eval world context.values node = calculate (throughLiteral value))
    (written : Literal.ofValue? value = .ok (some literal)) :
    Preserved context node literal := by
  obtain ⟨expression, same⟩ := @eval_ofValue? context _ _ primitive written
  refine ⟨expression, isTidy_ofValue? primitive written, ?_⟩
  intro world
  rw [same, meaning]

/-- Replacing a node by the literal of its value. -/
theorem replaceBy_keeps {node : Node} {result folded : Folded} {value : Value}
    (primitive : value.isPrimitive = true)
    (meaning : ∀ world, eval world context.values node = calculate (throughLiteral value))
    (returns : Returns (Operation.replaceBy result value) folded) :
    Keeps context node folded := by
  obtain ⟨found, written, returns⟩ := returns.of_bind
  have written := written.of_calculate
  cases found with
  | none => exact absurd written (ofValue?_ne_none primitive)
  | some literal =>
      cases returns.eq_of_pure
      exact ⟨.instead literal, rfl, literal_preserved primitive meaning written⟩

theorem name_keeps {flags : Flags} {place : Option Place} {seat : Option Nat} {token : Leaf}
    {folded : Folded} (plain : Plain walker.context)
    (returns : Returns (Name.fold walker ⟨.ident, flags, place, [⟨seat, .leaf token⟩]⟩) folded) :
    Keeps walker.context (.tree .ident flags place [⟨seat, .leaf token⟩]) folded := by
  have named : Name.of? (Branch.toNode ⟨.ident, flags, place, [⟨seat, .leaf token⟩]⟩) =
      some token.text := rfl
  simp only [Name.fold, named] at returns
  obtain ⟨_, _, returns⟩ := returns.of_bind
  simp only [plain.fragments, List.lookup_nil] at returns
  cases bound : walker.context.values.lookup token.text with
  | none =>
      simp only [bound] at returns
      cases returns.eq_of_pure
      refine ⟨.same _, rfl, .name, rfl, ?_⟩
      intro world
      simp only [Outcome.node_same, Branch.toNode, eval_name, bound, List.lookup_nil]
  | some value =>
      have primitive := plain.values _ _ bound
      simp only [bound] at returns
      obtain ⟨found, written, returns⟩ := returns.of_bind
      have written := written.of_calculate
      cases found with
      | none => exact absurd written (ofValue?_ne_none primitive)
      | some literal =>
          cases returns.eq_of_pure
          refine ⟨.instead literal, rfl, literal_preserved primitive ?_ written⟩
          intro world
          simp only [eval_name, bound]

theorem paren_keeps {flags : Flags} {place : Option Place} {inner : Child Node}
    {folded : Folded} (innerKept : Kept walker inner.node)
    (returns : Returns (Operation.foldParen walker ⟨.paren, flags, place, [inner]⟩) folded) :
    Keeps walker.context (.tree .paren flags place [inner]) folded := by
  obtain ⟨child, found, returns⟩ := returns.of_bind
  cases found.of_child rfl
  obtain ⟨inner', walked, returns⟩ := returns.of_bind
  have preserved := innerKept.expression_preserved walked
  obtain ⟨isPrimitive, calculated, returns⟩ := returns.of_bind
  cases isPrimitive with
  | true =>
      cases returns.eq_of_pure
      refine ⟨.instead inner'.node, rfl, preserved.expression, preserved.tidy, ?_⟩
      intro world
      rw [eval_paren]
      exact preserved.meaning world
  | false =>
      have bare := not_literal_of_not_isPrimitive preserved.expression calculated.of_calculate
      cases returns.eq_of_pure
      refine ⟨.same _, rfl, .paren preserved.expression, ?_, ?_⟩
      · simp [isTidy, bare, preserved.tidy]
      · intro world
        simp only [Outcome.node_same, List.set_cons_zero, eval_paren]
        exact preserved.meaning world

theorem binaryOp_known {op : Text} (known : (BinaryOp.ofText? op).isSome = true) :
    op.isString "in" = false ∧ op.isString "instanceof" = false := by
  constructor <;> rw [Bool.eq_false_iff] <;> intro spelled <;>
    rw [Text.isString_iff.mp spelled] at known <;> cases known

theorem binary_keeps {flags : Flags} {place : Option Place} {seat : Option Nat} {op : Leaf}
    {left right : Child Node} {folded : Folded}
    (known : (BinaryOp.ofText? op.text).isSome = true)
    (leftKept : Kept walker left.node) (rightKept : Kept walker right.node)
    (returns : Returns (Operation.foldBinary walker
      ⟨.binary, flags, place, [left, ⟨seat, .leaf op⟩, right]⟩) folded) :
    Keeps walker.context (.tree .binary flags place [left, ⟨seat, .leaf op⟩, right])
      folded := by
  obtain ⟨left', walked, returns⟩ := returns.of_bind
  have leftPreserved := leftKept.expression_preserved walked
  obtain ⟨right', walked, returns⟩ := returns.of_bind
  have rightPreserved := rightKept.expression_preserved walked
  have meaning : ∀ world,
      eval world walker.context.values
          (.tree .binary flags place [left, ⟨seat, .leaf op⟩, right]) =
        eval world [] (.tree .binary flags place [left', ⟨seat, .leaf op⟩, right']) := by
    intro world
    simp only [eval_binary, leftPreserved.meaning, rightPreserved.meaning]
  have kept : Keeps walker.context (.tree .binary flags place [left, ⟨seat, .leaf op⟩, right])
      (.same (.tree .binary flags place [left', ⟨seat, .leaf op⟩, right'])) :=
    ⟨.same _, rfl, .binary known leftPreserved.expression rightPreserved.expression, rfl,
      fun world => (meaning world).symm⟩
  obtain ⟨leftValue, leftRead, returns⟩ := returns.of_bind
  obtain ⟨rightValue, rightRead, returns⟩ := returns.of_bind
  cases leftValue with
  | none =>
      cases returns.eq_of_pure
      exact kept
  | some first =>
      cases rightValue with
      | none =>
          cases returns.eq_of_pure
          exact kept
      | some second =>
          obtain ⟨notIn, notInstanceof⟩ := binaryOp_known known
          obtain ⟨operator, isOperator⟩ := Option.isSome_iff_exists.mp known
          simp only [Operation.foldBinaryValues, Node.description, notIn, notInstanceof,
            isOperator] at returns
          obtain ⟨value, applied, returns⟩ := returns.of_bind
          have applied := applied.of_calculate
          refine replaceBy_keeps (BinaryOp.apply_isPrimitive applied) ?_ returns
          intro world
          rw [meaning, eval_binary, eval_of_value? leftPreserved.expression leftRead.of_calculate,
            eval_of_value? rightPreserved.expression rightRead.of_calculate, pure_bind, pure_bind,
            binaryResult, isOperator]
          simp only [applied, Calculation.ok_bind]

/-- One of two folded expressions in place of a node. -/
theorem choice_keeps {node first second : Node} {goes : Bool}
    (firstIs : IsExpression context first) (firstTidy : isTidy first = true)
    (secondIs : IsExpression context second) (secondTidy : isTidy second = true)
    (meaning : ∀ world, eval world context.values node =
      eval world [] (if goes then first else second)) :
    Keeps context node (Folded.ofNode (if goes then first else second)) := by
  cases goes with
  | true => exact ⟨.instead first, firstIs.ofNode, firstIs, firstTidy, fun w => (meaning w).symm⟩
  | false =>
      exact ⟨.instead second, secondIs.ofNode, secondIs, secondTidy, fun w => (meaning w).symm⟩

theorem logical_keeps {flags : Flags} {place : Option Place} {seat : Option Nat} {op : Leaf}
    {left right : Child Node} {folded : Folded} (isOp : op.type = .op)
    (known : op.text.isOneOf ["&&", "||", "??"] = true)
    (leftKept : Kept walker left.node) (rightKept : Kept walker right.node)
    (returns : Returns (Operation.foldLogical walker
      ⟨.logical, flags, place, [left, ⟨seat, .leaf op⟩, right]⟩) folded) :
    Keeps walker.context (.tree .logical flags place [left, ⟨seat, .leaf op⟩, right])
      folded := by
  obtain ⟨child, found, returns⟩ := returns.of_bind
  cases found.of_child rfl
  obtain ⟨left', walked, returns⟩ := returns.of_bind
  have leftPreserved := leftKept.expression_preserved walked
  obtain ⟨child, found, returns⟩ := returns.of_bind
  cases found.of_child rfl
  obtain ⟨right', walked, returns⟩ := returns.of_bind
  have rightPreserved := rightKept.expression_preserved walked
  obtain ⟨result, fromLeft, returns⟩ := returns.of_bind
  rcases fromLeft_cases known fromLeft with ⟨_, rfl⟩ | ⟨value, goes, read, needs, rfl⟩
  · cases returns.eq_of_pure
    refine ⟨.same _, rfl,
      .logical isOp known leftPreserved.expression rightPreserved.expression, ?_, ?_⟩
    · simp [isTidy, leftPreserved.tidy, rightPreserved.tidy]
    · intro world
      simp only [Outcome.node_same, eval_logical, leftPreserved.meaning, rightPreserved.meaning]
  · cases returns.eq_of_pure
    refine choice_keeps rightPreserved.expression rightPreserved.tidy leftPreserved.expression
      leftPreserved.tidy ?_
    intro world
    rw [eval_logical, ← leftPreserved.meaning, ← rightPreserved.meaning,
      eval_of_value? leftPreserved.expression read, pure_bind, needs]
    change (if goes = true then eval world [] right'.node else pure value) = _
    cases goes with
    | true => rfl
    | false => exact (eval_of_value? leftPreserved.expression read world []).symm

theorem unaryOp_known {op : Text}
    (known : op.isString "void" = true ∨ (UnaryOp.ofText? op).isSome = true) :
    op.isString "delete" = false := by
  rw [Bool.eq_false_iff]
  intro spelled
  rw [Text.isString_iff.mp spelled] at known
  rcases known with isVoid | isSome
  · cases isVoid
  · cases isSome

/-- The folded operand of a unary operator; that of `!` is only read for its truth. -/
theorem unary_operand (flags : Flags) (place : Option Place) (seat : Option Nat) {op : Leaf}
    {operand operand' : Child Node} (operandKept : Kept walker operand.node)
    (returns : Returns
      (if op.text.isString "!" then Operation.test walker operand
        else Slot.expression walker operand) operand') :
    IsExpression walker.context operand'.node ∧ isTidy operand'.node = true ∧
      ∀ world,
        eval world [] (.tree .unary flags place [⟨seat, .leaf op⟩, operand']) =
          eval world walker.context.values
            (.tree .unary flags place [⟨seat, .leaf op⟩, operand]) := by
  split at returns
  case isTrue isNot =>
    have tested := operandKept.test_tested returns
    refine ⟨tested.expression, tested.tidy, ?_⟩
    intro world
    rw [eval_not isNot, eval_not isNot, tested.truth]
  case isFalse =>
    have preserved := operandKept.expression_preserved returns
    refine ⟨preserved.expression, preserved.tidy, ?_⟩
    intro world
    simp only [eval_unary, preserved.meaning]

/-- Whatever constant `void` is applied to, it gives undefined. -/
theorem eval_void {flags : Flags} {place : Option Place} {seat : Option Nat} {op : Leaf}
    {operand : Child Node} {value : Value} (isVoid : op.text.isString "void" = true)
    (expression : IsExpression context operand.node)
    (read : Literal.value? operand.node = .ok (some value)) (world : World) :
    eval world [] (.tree .unary flags place [⟨seat, .leaf op⟩, operand]) = pure .undefined := by
  rw [eval_unary, eval_of_value? expression read, pure_bind, unaryResult, if_pos isVoid]
  rfl

theorem unary_keeps {flags : Flags} {place : Option Place} {seat : Option Nat} {op : Leaf}
    {operand : Child Node} {folded : Folded} (isOp : op.type = .op)
    (known : op.text.isString "void" = true ∨ (UnaryOp.ofText? op.text).isSome = true)
    (operandKept : Kept walker operand.node)
    (returns : Returns (Target.foldUnary walker
      ⟨.unary, flags, place, [⟨seat, .leaf op⟩, operand]⟩) folded) :
    Keeps walker.context (.tree .unary flags place [⟨seat, .leaf op⟩, operand]) folded := by
  obtain ⟨word, found, returns⟩ := returns.of_bind
  cases operatorOf_unary isOp found
  simp only [unaryOp_known known, Bool.false_eq_true, if_false] at returns
  obtain ⟨child, found, returns⟩ := returns.of_bind
  cases found.of_child rfl
  obtain ⟨operand', walked, returns⟩ := returns.of_ite_bind
  obtain ⟨expression, tidy, meaning⟩ := unary_operand flags place seat operandKept walked
  obtain ⟨value, read, returns⟩ := returns.of_bind
  have read := read.of_calculate
  cases value with
  | none =>
      have bare := not_literal_of_value?_eq_none expression read
      cases returns.eq_of_pure
      refine ⟨.same _, rfl, .unary isOp known expression, ?_, meaning⟩
      simp [isTidy, bare, tidy]
  | some value =>
      simp only at returns
      split at returns
      case isTrue isVoid =>
        split at returns
        case isTrue =>
          cases returns.eq_of_pure
          refine ⟨.same _, rfl, .unary isOp known expression, ?_, meaning⟩
          simp [isTidy, isVoid, tidy]
        case isFalse =>
          cases returns.eq_of_pure
          refine ⟨.same _, rfl, .unary isOp known (.literal rfl), ?_, ?_⟩
          · simp [isTidy, isVoid, Literal.ofWord, Node.made, Node.unseated]
          · intro world
            have zero : IsExpression walker.context (Literal.ofWord .number "0") := .literal rfl
            rw [← meaning, eval_void isVoid expression read]
            exact eval_void isVoid zero rfl world
      case isFalse notVoid =>
        obtain ⟨operator, isOperator⟩ :=
          Option.isSome_iff_exists.mp (known.resolve_left notVoid)
        simp only [isOperator] at returns
        obtain ⟨result, applied, returns⟩ := returns.of_bind
        have applied := applied.of_calculate
        refine replaceBy_keeps (UnaryOp.apply_isPrimitive applied) ?_ returns
        intro world
        rw [← meaning, eval_unary, eval_of_value? expression read, pure_bind, unaryResult,
          if_neg notVoid, isOperator]
        simp only [applied, Calculation.ok_bind]

theorem conditional_keeps {flags : Flags} {place : Option Place}
    {test consequent alternate : Child Node} {folded : Folded}
    (testKept : Kept walker test.node) (consequentKept : Kept walker consequent.node)
    (alternateKept : Kept walker alternate.node)
    (returns : Returns (Control.conditional walker
      ⟨.conditional, flags, place, [test, consequent, alternate]⟩) folded) :
    Keeps walker.context (.tree .conditional flags place [test, consequent, alternate])
      folded := by
  obtain ⟨child, found, returns⟩ := returns.of_bind
  cases found.of_child rfl
  obtain ⟨test', walked, returns⟩ := returns.of_bind
  have tested := testKept.test_tested walked
  obtain ⟨child, found, returns⟩ := returns.of_bind
  cases found.of_child rfl
  obtain ⟨consequent', walked, returns⟩ := returns.of_bind
  have consequentPreserved := consequentKept.expression_preserved walked
  obtain ⟨child, found, returns⟩ := returns.of_bind
  cases found.of_child rfl
  obtain ⟨alternate', walked, returns⟩ := returns.of_bind
  have alternatePreserved := alternateKept.expression_preserved walked
  obtain ⟨value, read, returns⟩ := returns.of_bind
  have read := read.of_calculate
  cases value with
  | none =>
      cases returns.eq_of_pure
      refine ⟨.same _, rfl, .conditional tested.expression consequentPreserved.expression
        alternatePreserved.expression, rfl, ?_⟩
      intro world
      simp only [Outcome.node_same, eval_conditional, tested.truth, consequentPreserved.meaning,
        alternatePreserved.meaning]
  | some value =>
      cases returns.eq_of_pure
      refine choice_keeps consequentPreserved.expression consequentPreserved.tidy
        alternatePreserved.expression alternatePreserved.tidy ?_
      intro world
      rw [eval_conditional, ← tested.truth, truth_of_value? tested.expression read, pure_bind,
        ← consequentPreserved.meaning, ← alternatePreserved.meaning]
      cases value.isTruthy <;> rfl

/-- The parts of a template from an index on: pieces and substitutions in turn. -/
def AreParts (holds : Node → Prop) (index : Nat) (parts : List (Child Node)) : Prop :=
  ∀ offset part, parts[offset]? = some part →
    ((index + offset) % 2 = 0 → ∃ token, part.node = .leaf token) ∧
      ((index + offset) % 2 = 1 → holds part.node)

theorem AreParts.cons_iff {holds : Node → Prop} {index : Nat} {part : Child Node}
    {rest : List (Child Node)} :
    AreParts holds index (part :: rest) ↔
      ((index % 2 = 0 → ∃ token, part.node = .leaf token) ∧
        (index % 2 = 1 → holds part.node)) ∧ AreParts holds (index + 1) rest := by
  constructor
  · intro are
    refine ⟨are 0 part rfl, ?_⟩
    intro offset other there
    rw [Nat.add_assoc, Nat.add_comm 1]
    exact are (offset + 1) other there
  · rintro ⟨first, others⟩ offset other there
    cases offset with
    | zero =>
        cases there
        exact first
    | succ offset =>
        rw [Nat.add_comm offset, ← Nat.add_assoc]
        exact others offset other there

/-- Folding the parts of a template keeps its text. -/
theorem foldPieces_keeps {parts children : List (Child Node)} {index : Nat} {text : Option Text}
    (are : AreParts (Kept walker) index parts)
    (returns : Returns (Operation.foldPieces walker index parts) (children, text)) :
    AreParts (IsExpression walker.context) index children ∧
      (∀ world, evalPieces world [] index children =
        evalPieces world walker.context.values index parts) ∧
      ∀ known, text = some known → ∀ world, evalPieces world [] index children = pure known := by
  induction parts generalizing index children text with
  | nil =>
      cases returns.eq_of_pure
      refine ⟨?_, fun _ => rfl, ?_⟩
      · intro offset part there
        cases there
      · intro known equal world
        cases equal
        rfl
  | cons part rest induction =>
      rw [AreParts.cons_iff] at are
      obtain ⟨⟨isPiece, isSubstitution⟩, restAre⟩ := are
      rw [Operation.foldPieces] at returns
      split at returns
      case isTrue even =>
        obtain ⟨piece, read, returns⟩ := returns.of_bind
        have read := read.of_calculate
        obtain ⟨⟨others, otherText⟩, walked, returns⟩ := returns.of_bind
        obtain ⟨othersAre, meaning, known⟩ := induction restAre walked
        cases returns.eq_of_pure
        refine ⟨AreParts.cons_iff.mpr ⟨⟨isPiece, fun odd => by omega⟩, othersAre⟩, ?_, ?_⟩
        · intro world
          simp only [evalPieces_cons, even, if_true, meaning]
        · intro whole equal world
          cases otherText with
          | none => cases equal
          | some otherText =>
              cases equal
              simp only [evalPieces_cons, even, if_true, read, known _ rfl]
              rfl
      case isFalse odd =>
        have kept := isSubstitution (by omega)
        obtain ⟨folded, walked, returns⟩ := returns.of_bind
        have preserved := kept.expression_preserved walked
        obtain ⟨value, valueRead, returns⟩ := returns.of_bind
        have valueRead := valueRead.of_calculate
        have foldedIs : (index % 2 = 0 → ∃ token, folded.node = .leaf token) ∧
            (index % 2 = 1 → IsExpression walker.context folded.node) :=
          ⟨fun even => absurd even odd, fun _ => preserved.expression⟩
        cases value with
        | none =>
            obtain ⟨piece, found, returns⟩ := returns.of_bind
            cases found.eq_of_pure
            obtain ⟨⟨others, otherText⟩, walked, returns⟩ := returns.of_bind
            obtain ⟨othersAre, meaning, _⟩ := induction restAre walked
            cases returns.eq_of_pure
            refine ⟨AreParts.cons_iff.mpr ⟨foldedIs, othersAre⟩, ?_, ?_⟩
            · intro world
              simp only [evalPieces_cons, odd, if_false, preserved.meaning, meaning]
            · intro whole equal
              cases equal
        | some value =>
            obtain ⟨piece, written, returns⟩ := returns.of_bind
            have written := written.of_calculate
            obtain ⟨piece, found, returns⟩ := returns.of_bind
            cases found.eq_of_pure
            obtain ⟨⟨others, otherText⟩, walked, returns⟩ := returns.of_bind
            obtain ⟨othersAre, meaning, known⟩ := induction restAre walked
            cases returns.eq_of_pure
            refine ⟨AreParts.cons_iff.mpr ⟨foldedIs, othersAre⟩, ?_, ?_⟩
            · intro world
              simp only [evalPieces_cons, odd, if_false, preserved.meaning, meaning]
            · intro whole equal world
              cases otherText with
              | none => cases equal
              | some otherText =>
                  cases equal
                  simp only [evalPieces_cons, odd, if_false,
                    eval_of_value? preserved.expression valueRead, pure_bind, written,
                    known _ rfl]
                  rfl

theorem template_keeps {flags : Flags} {place : Option Place} {parts : List (Child Node)}
    {folded : Folded} (are : AreParts (Kept walker) 0 parts)
    (returns : Returns (Operation.foldTemplate walker ⟨.template, flags, place, parts⟩) folded) :
    Keeps walker.context (.tree .template flags place parts) folded := by
  obtain ⟨⟨children, text⟩, walked, returns⟩ := returns.of_bind
  obtain ⟨childrenAre, meaning, known⟩ := foldPieces_keeps are walked
  have kept : Keeps walker.context (.tree .template flags place parts)
      (.same (.tree .template flags place children)) := by
    refine ⟨.same _, rfl, .template ?_ ?_, rfl, ?_⟩
    · intro index part there even
      exact (childrenAre index part there).1 (by omega)
    · intro index part there odd
      exact (childrenAre index part there).2 (by omega)
    · intro world
      simp only [Outcome.node_same, eval_template, meaning]
  cases text with
  | none =>
      cases returns.eq_of_pure
      exact kept
  | some text =>
      simp only at returns
      split at returns
      case isTrue =>
        cases returns.eq_of_pure
        exact kept
      case isFalse =>
        refine replaceBy_keeps rfl ?_ returns
        intro world
        rw [eval_template, ← meaning, known text rfl, throughLiteral_str]
        rfl

private theorem argument_preserved {child result : Child Node} {value : Option Value}
    (kept : Kept walker child.node)
    (returns : Returns (Chain.argument walker child) (result, value)) :
    Preserved walker.context child.node result.node := by
  have plain : Chain.argument walker child = (do
      let folded ← Slot.expression walker child
      return (folded, ← Slot.valueOf folded.node)) := by
    obtain ⟨seat, node⟩ := child
    cases kept.expression <;> rfl
  rw [plain] at returns
  obtain ⟨folded, walked, returns⟩ := returns.of_bind
  obtain ⟨read, _, returns⟩ := returns.of_bind
  cases returns.eq_of_pure
  exact kept.expression_preserved walked

/-- Folding arguments keeps their values and the order of their calls. -/
theorem arguments_keeps {args children : List (Child Node)} {values : List (Option Value)}
    (kept : ∀ argument, argument ∈ args → Kept walker argument.node)
    (returns : Returns (Chain.arguments walker args) (children, values)) :
    (∀ argument, argument ∈ children → IsExpression walker.context argument.node) ∧
      ∀ world, evalAll world [] children = evalAll world walker.context.values args := by
  induction args generalizing children values with
  | nil =>
      cases returns.eq_of_pure
      refine ⟨?_, fun _ => rfl⟩
      intro argument there
      cases there
  | cons argument rest induction =>
      obtain ⟨⟨first, value⟩, walked, returns⟩ := returns.of_bind
      have preserved := argument_preserved (kept argument List.mem_cons_self) walked
      obtain ⟨⟨others, otherValues⟩, walked, returns⟩ := returns.of_bind
      obtain ⟨othersAre, meaning⟩ := induction
        (fun other there => kept other (List.mem_cons_of_mem _ there)) walked
      cases returns.eq_of_pure
      refine ⟨?_, ?_⟩
      · intro other there
        cases there with
        | head => exact preserved.expression
        | tail _ there => exact othersAre other there
      · intro world
        simp only [evalAll_cons, preserved.meaning, meaning]

private theorem lookup_of_not_binds {α : Type} {table : Table α} {name : Text}
    (notBound : table.binds name = false) : table.lookup name = none := by
  simpa [Table.binds] using notBound

theorem call_keeps {flags calleeFlags argsFlags : Flags}
    {place calleePlace argsPlace : Option Place} {seat calleeSeat argsSeat : Option Nat}
    {name : Leaf} {args : List (Child Node)} {folded : Folded}
    (required : flags.optional = false)
    (notFunction : walker.context.functions.binds name.text = false)
    (notMacro : walker.context.macros.binds name.text = false)
    (kept : ∀ argument, argument ∈ args → Kept walker argument.node)
    (returns : Returns (Chain.call walker ⟨.call, flags, place,
      [⟨calleeSeat, .tree .ident calleeFlags calleePlace [⟨seat, .leaf name⟩]⟩,
        ⟨argsSeat, .tree .args argsFlags argsPlace args⟩]⟩) folded) :
    Keeps walker.context (.tree .call flags place
      [⟨calleeSeat, .tree .ident calleeFlags calleePlace [⟨seat, .leaf name⟩]⟩,
        ⟨argsSeat, .tree .args argsFlags argsPlace args⟩]) folded := by
  obtain ⟨callee, found, returns⟩ := returns.of_bind
  cases found.of_child rfl
  have other : Name.callee walker.context
      (.tree .ident calleeFlags calleePlace [⟨seat, .leaf name⟩]) = .other := by
    have isName : (if Node.isKind (.tree .ident calleeFlags calleePlace [⟨seat, .leaf name⟩])
        .ident then Name.of? (.tree .ident calleeFlags calleePlace [⟨seat, .leaf name⟩])
        else none) = some name.text := rfl
    rw [Name.callee, isName]
    simp only [lookup_of_not_binds notFunction, notMacro]
    rfl
  rw [other] at returns
  obtain ⟨callee, found, returns⟩ := returns.of_bind
  cases found.eq_of_pure
  obtain ⟨⟨args', values⟩, walked, returns⟩ := returns.of_bind
  obtain ⟨argsChild, found, walked⟩ := walked.of_bind
  cases found.of_child rfl
  obtain ⟨⟨children, values⟩, folds, walked⟩ := walked.of_bind
  obtain ⟨childrenAre, meaning⟩ := arguments_keeps kept folds
  cases walked.eq_of_pure
  cases returns.eq_of_pure
  refine ⟨.same _, rfl, .call required notFunction notMacro childrenAre, rfl, ?_⟩
  intro world
  simp only [Outcome.node_same, List.set_cons_zero, List.set_cons_succ, eval_call, meaning]

/-- Folding an expression with enough levels keeps its meaning. -/
theorem walkAt_keeps {expand : Fold.Expander} (plain : Plain context) (levels : Nat)
    {node : Node} {folded : Folded} (expression : IsExpression context node)
    (bounded : node.height ≤ levels)
    (returns : Returns (Fold.walkAt context expand levels node) folded) :
    Keeps context node folded := by
  induction levels generalizing node folded with
  | zero =>
      obtain ⟨kind, flags, place, children, rfl, _⟩ := expression.isTree
      cases bounded
  | succ levels induction =>
      let walker : Walker := ⟨context, expand context, Fold.walkAt context expand levels⟩
      change Keeps walker.context node folded
      have kept : ∀ {child : Node}, child.height < node.height → IsExpression context child →
          Kept walker child := by
        intro child below childIs
        exact ⟨childIs, fun result walked => induction childIs (by omega) walked⟩
      cases expression with
      | literal primitive =>
          cases returns.of_locating.eq_of_pure
          exact ⟨.same _, rfl, .literal primitive, rfl, fun _ => rfl⟩
      | name => exact name_keeps plain returns.of_locating
      | paren innerIs =>
          exact paren_keeps (kept (height_lt_of_mem (by simp)) innerIs) returns.of_locating
      | unary isOp known operandIs =>
          exact unary_keeps isOp known (kept (height_lt_of_mem (by simp)) operandIs)
            returns.of_locating
      | binary known leftIs rightIs =>
          exact binary_keeps known (kept (height_lt_of_mem (by simp)) leftIs)
            (kept (height_lt_of_mem (by simp)) rightIs) returns.of_locating
      | logical isOp known leftIs rightIs =>
          exact logical_keeps isOp known (kept (height_lt_of_mem (by simp)) leftIs)
            (kept (height_lt_of_mem (by simp)) rightIs) returns.of_locating
      | conditional testIs consequentIs alternateIs =>
          exact conditional_keeps (kept (height_lt_of_mem (by simp)) testIs)
            (kept (height_lt_of_mem (by simp)) consequentIs)
            (kept (height_lt_of_mem (by simp)) alternateIs) returns.of_locating
      | template pieces substitutions =>
          refine template_keeps ?_ returns.of_locating
          intro index part there
          rw [Nat.zero_add]
          refine ⟨pieces index part there,
            fun odd => kept ?_ (substitutions index part there odd)⟩
          exact height_lt_of_mem (List.mem_of_getElem? there)
      | call required notFunction notMacro argsAre =>
          refine call_keeps required notFunction notMacro ?_ returns.of_locating
          intro argument there
          refine kept ?_ (argsAre argument there)
          exact height_lt_of_mem_inner there (List.mem_cons_of_mem _ List.mem_cons_self)

private theorem foldWithin_keeps (depth : Nat) (plain : Plain context) {node : Node} {folded
    : Folded}
    (expression : IsExpression context node)
    (returns : Returns (Fold.foldWithin depth context node) folded) :
    Keeps context node folded := by
  cases depth <;> exact walkAt_keeps plain _ expression (Nat.le_refl _) returns

/-- Folding keeps what an expression does: if it returns, it gives one expression, and in
every world that expression has the value and makes the calls, in order, that the
expression had and made with its bound names in place. -/
theorem folded_expression_means_same {depth : Nat} {context : Context} {node : Node}
    {folded : Folded} {before after : List Diagnostic} (plain : Plain context)
    (expression : IsExpression context node)
    (returned : (Fold.foldWithin depth context node).run.run before = (.ok folded, after)) :
    ∃ outcome : Outcome, folded = outcome.toFolded ∧
      ∀ world, eval world [] outcome.node = eval world context.values node := by
  obtain ⟨outcome, isOutcome, preserved⟩ :=
    foldWithin_keeps depth plain expression ⟨before, after, returned⟩
  exact ⟨outcome, isOutcome, preserved.meaning⟩

/-- A call of `f` with the name `x`. -/
def callOfName : Node :=
  .made .call [.made .ident [.word .name "f"], .made .args [.made .ident [.word .name "x"]]]

/-- That call if one of two names holds, of which the second one is bound. -/
def callIfEither : Node :=
  .made .conditional [
    .made .logical [.made .ident [.word .name "x"], .word .op "||",
      .made .ident [.word .name "b"]],
    callOfName, .made .ident [.word .name "y"]]

/-- The bindings for `callIfEither`. -/
def bindingTrue : Context :=
  ⟨.none, [("b", .bool true)], [], [], [], 0⟩

theorem plain_bindingTrue : Plain bindingTrue := by
  refine ⟨rfl, ?_⟩
  intro name value bound
  simp only [bindingTrue, List.lookup_cons, List.lookup_nil] at bound
  split at bound
  · cases bound
    rfl
  · cases bound

theorem isExpression_callOfName : IsExpression bindingTrue callOfName := by
  refine .call rfl rfl rfl ?_
  intro argument there
  rcases List.mem_singleton.mp there with rfl
  exact .name

theorem callIfEither_means_callOfName :
    Plain bindingTrue ∧ IsExpression bindingTrue callIfEither ∧
      (Fold.foldWithin 0 bindingTrue callIfEither).run.run [] =
        (.ok (.instead callOfName), []) ∧
      ∃ outcome : Outcome, Folded.instead callOfName = outcome.toFolded ∧
        ∀ world, eval world [] outcome.node = eval world bindingTrue.values callIfEither := by
  have expression : IsExpression bindingTrue callIfEither :=
    .conditional (.logical rfl rfl .name .name) isExpression_callOfName .name
  have returned : (Fold.foldWithin 0 bindingTrue callIfEither).run.run [] =
      (.ok (.instead callOfName), []) := rfl
  exact ⟨plain_bindingTrue, expression, returned,
    folded_expression_means_same plain_bindingTrue expression returned⟩

end Meaning

end ScriptFold
