import ScriptFold.Evaluate
import ScriptFold.Proofs.Fold.Meets
import ScriptFold.Proofs.Printer.RoundTrip
import ScriptFold.Proofs.Printer.Values

/-!
# Values that are read back

A value is written as a literal, the literal is printed, the text is read and the script is
folded without any bindings.  What is left is a single statement that writes the value again,
unless the text nests deeper than the reader goes.
-/

namespace ScriptFold

namespace Node

/-- An expression with parentheses around it. -/
inductive Enclosed (inner : Node) : Node → Prop where
  | bare : Enclosed inner inner
  | paren {flags : Flags} {place : Option Place} {seat : Option Nat} {node : Node}
      {rest : List (Child Node)} : Enclosed inner node →
      Enclosed inner (.tree .paren flags place (⟨seat, node⟩ :: rest))

theorem core_tree {kind : Kind} (notParen : kind ≠ .paren) (flags : Flags) (place : Option Place)
    (children : List (Child Node)) :
    core (.tree kind flags place children) = .tree kind flags none (coreAll children) := by
  cases kind
  case paren => exact absurd rfl notParen
  all_goals rfl

/-- What a core was taken from stands in parentheses, and its children have the cores of the
children. -/
theorem enclosed_of_core {kind : Kind} {flags : Flags} {children : List (Child Node)}
    (notParen : kind ≠ .paren) : {node : Node} → node.core = .tree kind flags none children →
    ∃ place inner, Enclosed (.tree kind flags place inner) node ∧ coreAll inner = children
  | .absent, isCore => by cases isCore
  | .leaf _, isCore => by cases isCore
  | .tree other otherFlags place inner, isCore => by
      by_cases isParen : other = .paren
      · subst isParen
        match inner with
        | [] =>
            cases isCore
            exact absurd rfl notParen
        | ⟨seat, node⟩ :: rest =>
            rw [core] at isCore
            split at isCore
            · obtain ⟨place, inner, enclosed, areChildren⟩ := enclosed_of_core notParen isCore
              exact ⟨place, inner, .paren enclosed, areChildren⟩
            · cases isCore
              exact absurd rfl notParen
      · rw [core_tree isParen] at isCore
        cases isCore
        exact ⟨place, inner, .bare, rfl⟩

/-- What is no expression stands in no parentheses. -/
theorem tree_of_core {kind : Kind} {flags : Flags} {children : List (Child Node)} {node : Node}
    (notParen : kind ≠ .paren) (bare : kind.isStatement || kind == .property)
    (isCore : node.core = .tree kind flags none children) :
    ∃ place inner, node = .tree kind flags place inner ∧ coreAll inner = children := by
  obtain ⟨place, inner, enclosed, areChildren⟩ := enclosed_of_core notParen isCore
  cases enclosed with
  | bare => exact ⟨place, inner, rfl, areChildren⟩
  | paren =>
      rw [core] at isCore
      split at isCore
      case isTrue isExpression =>
        rw [isCore] at isExpression
        have notExpression : (!kind.isStatement && kind != .property) = true := isExpression
        rw [bne, ← Bool.not_or, bare] at notExpression
        cases notExpression
      case isFalse =>
        cases isCore
        exact absurd rfl notParen

/-- Parentheses around a tree make a tree of the same kind or one of parentheses. -/
theorem Enclosed.kind? {kind : Kind} {flags : Flags} {place : Option Place}
    {children : List (Child Node)} {node : Node}
    (enclosed : Enclosed (.tree kind flags place children) node) :
    node.kind? = some kind ∨ node.kind? = some .paren := by
  cases enclosed with
  | bare => exact .inl rfl
  | paren => exact .inr rfl

theorem isTree_of_kind? {kind : Kind} {node : Node} (isKind : node.kind? = some kind) :
    node.isTree := by
  cases node with
  | absent | leaf => cases isKind
  | tree => rfl

/-- Children of given cores, one by one. -/
theorem forall₂_of_coreAll {α : Type} {items : List α} {imageOf : α → Node}
    {related : α → Child Node → Prop} {children : List (Child Node)}
    (relates : ∀ item, item ∈ items → ∀ child : Child Node,
      child.node.core = imageOf item → related item child)
    (areCores : coreAll children = unseated (items.map imageOf)) :
    List.Forall₂ related items children := by
  induction items generalizing children with
  | nil =>
      cases children with
      | nil => exact .nil
      | cons => cases areCores
  | cons item items induction =>
      cases children with
      | nil => cases areCores
      | cons child children =>
          injection areCores with first later
          injection first with _ isCore
          exact .cons (relates item List.mem_cons_self child isCore)
            (induction (fun other there => relates other (.tail _ there)) later)

theorem children_of_coreAll {children : List (Child Node)} {first second : Node}
    (areCores : coreAll children = unseated [first, second]) :
    ∃ firstChild secondChild : Child Node, children = [firstChild, secondChild] ∧
      firstChild.node.core = first ∧ secondChild.node.core = second := by
  match children, areCores with
  | [firstChild, secondChild], areCores =>
      injection areCores with isFirst later
      injection later with isSecond _
      injection isFirst with _ isFirst
      injection isSecond with _ isSecond
      exact ⟨firstChild, secondChild, rfl, isFirst, isSecond⟩
  | [_], areCores =>
      injection areCores with _ later
      cases later
  | _ :: _ :: _ :: _, areCores =>
      injection areCores with _ later
      injection later with _ later
      cases later

theorem child_of_coreAll {children : List (Child Node)} {node : Node}
    (areCores : coreAll children = unseated [node]) :
    ∃ child : Child Node, children = [child] ∧ child.node.core = node := by
  match children, areCores with
  | [child], areCores =>
      injection areCores with isFirst _
      injection isFirst with _ isFirst
      exact ⟨child, rfl, isFirst⟩
  | _ :: _ :: _, areCores =>
      injection areCores with _ later
      cases later

end Node

namespace Literal

open Node (Enclosed)

theorem value?_enclosed {inner node : Node} (enclosed : Enclosed inner node) :
    value? node = value? inner := by
  induction enclosed with
  | bare => rfl
  | paren _ induction => rw [value?, induction]

end Literal

namespace Fold

open Node (Enclosed)
open Literal (value? Written Item)

/-- An expression that writes a value. -/
structure Constant (value : Value) (node : Node) : Prop where
  isExpression : ∃ kind, node.kind? = some kind ∧ kind.isStatement = false
  known : value? node = .ok (some value)

/-- Folding comes down to an expression that writes a value. -/
inductive Reaches (value : Value) : Folded → Prop where
  | same {node : Node} : Constant value node → Reaches value (.same node)
  | instead {node : Node} : Constant value node → Reaches value (.instead node)

variable {context : Context} {expand : Expander} {value : Value}

/-- The walker below a node with this many levels under it. -/
def walkerAt (context : Context) (expand : Expander) (levels : Nat) : Walker :=
  ⟨context, expand context, walkAt context expand levels⟩

/-- Folding a node comes down to a value, however many levels there are to go. -/
structure FoldsTo (context : Context) (expand : Expander) (value : Value) (node : Node) :
    Prop where
  present : node.isAbsent = false
  walks : ∀ levels, node.height ≤ levels →
    ∃ folded, walkAt context expand levels node = pure folded ∧ Reaches value folded

/-- A tree comes down to what its step comes down to. -/
theorem foldsTo_tree {kind : Kind} {flags : Flags} {place : Option Place}
    {children : List (Child Node)}
    (steps : ∀ levels, Node.heightAll children ≤ levels → ∃ folded,
      step (walkerAt context expand levels) ⟨kind, flags, place, children⟩ = pure folded ∧
        Reaches value folded) :
    FoldsTo context expand value (.tree kind flags place children) := by
  refine ⟨rfl, fun levels within => ?_⟩
  cases levels with
  | zero => cases within
  | succ levels =>
      obtain ⟨folded, isFolded, reaches⟩ := steps levels (Nat.le_of_succ_le_succ within)
      refine ⟨folded, ?_, reaches⟩
      rw [walkAt]
      exact (congrArg (FoldM.locating _) isFolded).trans rfl

theorem expressionOf_constant {outcome : Outcome} (constant : Constant value outcome.node)
    (former : Node) (seat : Option Nat) :
    Slot.expressionOf former seat outcome = pure (outcome.inSeat seat) := by
  obtain ⟨kind, isKind, notStatement⟩ := constant.isExpression
  simp only [Slot.expressionOf, isKind, notStatement, Bool.false_eq_true, if_false]

/-- A child in the position of an expression comes down to a value. -/
theorem FoldsTo.expression {child : Child Node} {levels : Nat}
    (foldsTo : FoldsTo context expand value child.node) (within : child.node.height ≤ levels) :
    ∃ result, Slot.expression (walkerAt context expand levels) child = pure result ∧
      Constant value result.node := by
  obtain ⟨folded, isFolded, reaches⟩ := foldsTo.walks levels within
  have walked : (walkerAt context expand levels).walk child.node = pure folded := isFolded
  unfold Slot.expression
  simp only [foldsTo.present, Bool.false_eq_true, if_false, walked, pure_bind]
  cases reaches with
  | @same node constant =>
      have isConstant : Constant value (Outcome.same node).node := constant
      exact ⟨_, expressionOf_constant isConstant child.node child.seat, constant⟩
  | @instead node constant =>
      have isConstant : Constant value (Outcome.instead node).node := constant
      exact ⟨_, expressionOf_constant isConstant child.node child.seat, constant⟩

/-- Parentheses do not change what an expression comes down to. -/
theorem FoldsTo.enclosed {inner node : Node} (foldsTo : FoldsTo context expand value inner)
    (enclosed : Enclosed inner node) : FoldsTo context expand value node := by
  induction enclosed with
  | bare => exact foldsTo
  | @paren flags place seat node rest _ induction =>
      refine foldsTo_tree fun levels within => ?_
      let child : Child Node := ⟨seat, node⟩
      have childFolds : FoldsTo context expand value child.node := induction
      obtain ⟨result, isResult, constant⟩ := childFolds.expression
        (Nat.le_trans (height_le_heightAll List.mem_cons_self) within)
      obtain ⟨found, isFound⟩ := Literal.isPrimitive_ok constant.known
      have stepped : step (walkerAt context expand levels)
          ⟨.paren, flags, place, ⟨seat, node⟩ :: rest⟩ =
          pure (if found then .instead result.node
            else .same (.tree .paren flags place (result :: rest))) := by
        have unfolded : step (walkerAt context expand levels)
            ⟨.paren, flags, place, ⟨seat, node⟩ :: rest⟩ = (do
            let inner ← Slot.expression (walkerAt context expand levels) ⟨seat, node⟩
            if ← FoldM.calculate (Literal.isPrimitive inner.node) then
              return .instead inner.node
            return .same (.tree .paren flags place (inner :: rest))) := rfl
        rw [unfolded, isResult, pure_bind, isFound]
        cases found <;> rfl
      refine ⟨_, stepped, ?_⟩
      cases found with
      | true => exact .instead constant
      | false =>
          refine .same ⟨⟨.paren, rfl, rfl⟩, ?_⟩
          rw [value?]
          exact constant.known

/-- A literal of one token comes down to the value of the token. -/
theorem foldsTo_literal {flags : Flags} {place : Option Place} {children : List (Child Node)}
    (known : value? (.tree .literal flags place children) = .ok (some value)) :
    FoldsTo context expand value (.tree .literal flags place children) :=
  foldsTo_tree fun _ _ => ⟨_, rfl, .same ⟨⟨.literal, rfl, rfl⟩, known⟩⟩

theorem leaf_of_core {node : Node} {type : LeafType} {text : Text}
    (isCore : node.core = .word type text) : ∃ place, node = .leaf ⟨type, text, place⟩ := by
  cases node with
  | absent => cases isCore
  | leaf token =>
      obtain ⟨tokenType, tokenText, place⟩ := token
      cases isCore
      exact ⟨place, rfl⟩
  | tree kind flags place children =>
      by_cases isParen : kind = .paren
      · subst isParen
        match children with
        | [] => cases isCore
        | ⟨seat, inner⟩ :: rest =>
            rw [Node.core] at isCore
            split at isCore
            case isTrue isExpression =>
              rw [isCore] at isExpression
              cases isExpression
            case isFalse => cases isCore
      · rw [Node.core_tree isParen] at isCore
        cases isCore

/-- How a sign or a `void` is folded. -/
theorem foldsTo_unary {operand : Value} {text : Text} {flags : Flags} {place : Option Place}
    {op : Child Node} {child : Child Node} (isOp : op.node.core = .word .op text)
    (foldsTo : FoldsTo context expand operand child.node)
    (isText : text = Text.ofString "-" ∨ text = Text.ofString "void")
    (applies : ∀ result : Child Node, Constant operand result.node → ∃ folded,
      Operation.applyUnary ⟨.unary, flags, place, [op, child]⟩ text result = pure folded ∧
        Reaches value folded) :
    FoldsTo context expand value (.tree .unary flags place [op, child]) := by
  obtain ⟨opSeat, opNode⟩ := op
  obtain ⟨opPlace, rfl⟩ := leaf_of_core isOp
  refine foldsTo_tree fun levels within => ?_
  obtain ⟨result, isResult, constant⟩ := foldsTo.expression
    (Nat.le_trans (height_le_heightAll (.tail _ List.mem_cons_self)) within)
  obtain ⟨folded, isFolded, reaches⟩ := applies result constant
  refine ⟨folded, ?_, reaches⟩
  have unfolded : step (walkerAt context expand levels)
      ⟨.unary, flags, place, [⟨opSeat, .leaf ⟨.op, text, opPlace⟩⟩, child]⟩ = (do
      let operand ← Slot.expression (walkerAt context expand levels) child
      Operation.applyUnary ⟨.unary, flags, place, [⟨opSeat, .leaf ⟨.op, text, opPlace⟩⟩, child]⟩
        text operand) := by
    rcases isText with rfl | rfl <;> rfl
  rw [unfolded, isResult, pure_bind, isFolded]

theorem valueOf_constant {node : Node} (constant : Constant value node) :
    Slot.valueOf node = pure (some value) := by
  rw [Slot.valueOf, constant.known]
  rfl

theorem value?_zero : value? (Literal.ofWord .number (Text.ofString "0")) = .ok (some (.int 0)) :=
  Literal.value?_number (@Numeral.literal_digitsOf 0 (Nat.zero_le _))

/-- A `void` before a value comes down to undefined. -/
theorem foldsTo_void {operand : Value} {flags : Flags} {place : Option Place}
    {op child : Child Node}
    (isOp : op.node.core = .word .op (Text.ofString "void"))
    (foldsTo : FoldsTo context expand operand child.node) :
    FoldsTo context expand .undefined (.tree .unary flags place [op, child]) := by
  apply foldsTo_unary isOp foldsTo (Or.inr rfl)
  intro result constant
  obtain ⟨opSeat, opNode⟩ := op
  obtain ⟨opPlace, rfl⟩ := leaf_of_core isOp
  have isUndefined : ∀ {other : Value} {last : Child Node}, value? last.node = .ok (some other) →
      Constant .undefined (.tree .unary flags place
        [⟨opSeat, .leaf ⟨.op, Text.ofString "void", opPlace⟩⟩, last]) := by
    intro other last known
    obtain ⟨lastSeat, lastNode⟩ := last
    refine ⟨⟨.unary, rfl, rfl⟩, ?_⟩
    have unfolded : value? (.tree .unary flags place
        [⟨opSeat, .leaf ⟨.op, Text.ofString "void", opPlace⟩⟩, ⟨lastSeat, lastNode⟩]) =
        (value? lastNode >>= fun found => pure (found.map fun _ => .undefined)) := rfl
    rw [unfolded, known]
    rfl
  have isVoid : (Text.ofString "void").isString "void" = true := by decide
  unfold Operation.applyUnary
  simp only [valueOf_constant constant, pure_bind, isVoid, if_true]
  split
  · exact ⟨_, rfl, .same (isUndefined constant.known)⟩
  · exact ⟨_, rfl, .same (isUndefined value?_zero)⟩

/-- A sign before a number comes down to the number below zero. -/
theorem foldsTo_negation {n : Nat} (safe : n + 1 ≤ Num.greatestSafe) {flags : Flags}
    {place : Option Place} {op child : Child Node}
    (isOp : op.node.core = .word .op (Text.ofString "-"))
    (foldsTo : FoldsTo context expand (.int (n + 1 : Nat)) child.node) :
    FoldsTo context expand (.int (-(n + 1 : Nat))) (.tree .unary flags place [op, child]) := by
  apply foldsTo_unary isOp foldsTo (Or.inl rfl)
  intro result constant
  have written := Written.negative safe
  have applied : UnaryOp.apply .minus (.int (n + 1 : Nat)) = .ok (.int (-(n + 1 : Nat))) := by
    have notZero : ((n + 1 : Nat) : Int) ≠ 0 := by omega
    have negated : UnaryOp.negate (.int (n + 1 : Nat)) = .int (-(n + 1 : Nat)) := by
      rw [UnaryOp.negate, if_neg notZero]
    have unfolded : UnaryOp.apply .minus (.int (n + 1 : Nat)) =
        .ok (.num (UnaryOp.negate (.int (n + 1 : Nat)))) := rfl
    rw [unfolded, negated]
    rfl
  have isNode : Slot.nodeOf (.int (-(n + 1 : Nat))) = pure (some (Literal.signed (n + 1))) := by
    rw [Slot.nodeOf, Literal.ofValue?_of_written written]
    rfl
  have notVoid : (Text.ofString "-").isString "void" = false := by decide
  have isMinus : UnaryOp.ofText? (Text.ofString "-") = some .minus := by decide
  unfold Operation.applyUnary
  simp only [valueOf_constant constant, pure_bind, notVoid, Bool.false_eq_true, if_false, isMinus,
    applied, FoldM.calculate, Operation.replaceBy, isNode]
  exact ⟨_, rfl, .instead ⟨⟨.literal, rfl, rfl⟩, Literal.value?_of_written written⟩⟩

/-- Items that are each taken a step further are all taken a step further. -/
theorem mapM_pure {α β γ : Type} {act : β → FoldM γ} {before : α → β → Prop}
    {after : α → γ → Prop} {items : List α} {children : List β}
    (each : List.Forall₂ before items children)
    (acts : ∀ item child, child ∈ children → before item child →
      ∃ result, act child = pure result ∧ after item result) :
    ∃ results, children.mapM act = pure results ∧ List.Forall₂ after items results := by
  induction each with
  | nil => exact ⟨[], rfl, .nil⟩
  | @cons item child items children first _ induction =>
      obtain ⟨result, isResult, isRelated⟩ := acts item child List.mem_cons_self first
      obtain ⟨results, areResults, areRelated⟩ :=
        induction fun other next there => acts other next (.tail _ there)
      refine ⟨result :: results, ?_, .cons isRelated areRelated⟩
      simp only [List.mapM_cons, isResult, areResults, pure_bind]

/-- The elements of an array come down to the values of the array. -/
theorem foldsTo_array {values : List Value} {flags : Flags} {place : Option Place}
    {children : List (Child Node)}
    (each : List.Forall₂ (fun value child => FoldsTo context expand value child.node)
      values children) :
    FoldsTo context expand (.list values) (.tree .array flags place children) := by
  refine foldsTo_tree fun levels within => ?_
  have unfolded : step (walkerAt context expand levels) ⟨.array, flags, place, children⟩ = (do
      return .same (.tree .array flags place
        (← children.mapM (Slot.expression (walkerAt context expand levels))))) := rfl
  obtain ⟨results, areResults, writes⟩ : ∃ results,
      children.mapM (Slot.expression (walkerAt context expand levels)) = pure results ∧
        List.Forall₂ Literal.Writes values results := by
    refine mapM_pure each fun value child there foldsTo => ?_
    obtain ⟨result, isResult, constant⟩ :=
      foldsTo.expression (Nat.le_trans (height_le_heightAll there) within)
    exact ⟨result, isResult, constant.known⟩
  rw [unfolded, areResults, pure_bind]
  exact ⟨_, rfl, .same ⟨⟨.array, rfl, rfl⟩, Literal.value?_array writes flags place⟩⟩

/-- A member of an object that writes an entry once its value is folded. -/
inductive Member (context : Context) (expand : Expander) (entry : Text × Value) :
    Child Node → Prop where
  | mk {seat : Option Nat} {flags : Flags} {place : Option Place} {first second : Child Node} :
      first.node.isTree → first.node.isKind .computedKey = false →
      Literal.Writes (.str entry.1) first → FoldsTo context expand entry.2 second.node →
      Member context expand entry ⟨seat, .tree .property flags place [first, second]⟩

private theorem key_plain {walker : Walker} {child : Child Node}
    (notComputed : child.node.isKind .computedKey = false) :
    Aggregate.key walker child = pure child := by
  unfold Aggregate.key
  split
  case h_1 isNode =>
    rw [isNode] at notComputed
    cases notComputed
  case h_2 isNode =>
    rw [isNode] at notComputed
    cases notComputed
  case h_3 => rfl

private theorem memberChild_writes {entry : Text × Value} {child : Child Node} {levels : Nat}
    (member : Member context expand entry child) (within : child.node.height ≤ levels) :
    ∃ result, Aggregate.memberChild (walkerAt context expand levels) child = pure result ∧
      Literal.WritesEntry entry.1 entry.2 result := by
  obtain ⟨isTree, notComputed, isKey, foldsTo⟩ := member
  rename_i seat flags place first second
  have lower : second.node.height < (Node.tree .property flags place [first, second]).height :=
    height_lt_of_mem (by simp)
  obtain ⟨result, isResult, constant⟩ :=
    foldsTo.expression (Nat.le_trans (Nat.le_of_lt lower) within)
  refine ⟨⟨seat, .tree .property flags place [first, result]⟩, ?_,
    .mk isTree notComputed isKey constant.known⟩
  simp [Aggregate.memberChild, Aggregate.objectMember, Aggregate.withKey, Branch.child, Branch.keep,
    key_plain notComputed, isResult]

/-- The members of an object come down to its entries. -/
theorem foldsTo_object {entries : List (Text × Value)} {flags : Flags} {place : Option Place}
    {children : List (Child Node)} (distinct : (entries.map Prod.fst).Nodup)
    (each : List.Forall₂ (Member context expand) entries children) :
    FoldsTo context expand (.record (entries.map fun entry => (.str entry.1, entry.2)))
      (.tree .object flags place children) := by
  refine foldsTo_tree fun levels within => ?_
  have unfolded : step (walkerAt context expand levels) ⟨.object, flags, place, children⟩ = (do
      return .same (.tree .object flags place
        (← children.mapM (Aggregate.memberChild (walkerAt context expand levels))))) := rfl
  obtain ⟨results, areResults, writes⟩ : ∃ results,
      children.mapM (Aggregate.memberChild (walkerAt context expand levels)) = pure results ∧
        List.Forall₂ (fun entry child => Literal.WritesEntry entry.1 entry.2 child)
          entries results :=
    mapM_pure each fun entry child there member =>
      memberChild_writes member (Nat.le_trans (height_le_heightAll there) within)
  rw [unfolded, areResults, pure_bind]
  exact ⟨_, rfl, .same ⟨⟨.object, rfl, rfl⟩, Literal.value?_object writes distinct flags place⟩⟩

/-- What is read as a literal of one token has the value of the token. -/
theorem enclosed_word {node : Node} {type : LeafType} {text : Text}
    (isCore : node.core = Literal.ofWord type text) :
    ∃ place children, Enclosed (.tree .literal {} place children) node ∧
      value? (.tree .literal {} place children) = value? (Literal.ofWord type text) := by
  obtain ⟨place, children, enclosed, areCores⟩ :=
    Node.enclosed_of_core (show Kind.literal ≠ .paren by decide) isCore
  obtain ⟨⟨seat, word⟩, rfl, isWord⟩ := Node.child_of_coreAll areCores
  obtain ⟨leafPlace, rfl⟩ := leaf_of_core isWord
  exact ⟨place, _, enclosed, rfl⟩

theorem foldsTo_word {node : Node} {type : LeafType} {text : Text}
    (isCore : node.core = Literal.ofWord type text)
    (known : value? (Literal.ofWord type text) = .ok (some value)) :
    FoldsTo context expand value node := by
  obtain ⟨place, children, enclosed, same⟩ := enclosed_word isCore
  exact (foldsTo_literal (same.trans known)).enclosed enclosed

/-- What is read as an operator before an operand. -/
theorem enclosed_unary {node : Node} {text : Text} {operand : Node}
    (isCore : node.core = .made .unary [.word .op text, operand]) :
    ∃ place op child, Enclosed (.tree .unary {} place [op, child]) node ∧
      op.node.core = .word .op text ∧ child.node.core = operand := by
  obtain ⟨place, children, enclosed, areCores⟩ :=
    Node.enclosed_of_core (show Kind.unary ≠ .paren by decide) isCore
  obtain ⟨op, child, rfl, isOp, isOperand⟩ := Node.children_of_coreAll areCores
  exact ⟨place, op, child, enclosed, isOp, isOperand⟩

/-- What is read as a property is a property. -/
theorem member_of_core {entry : Text × Value} {image : Node} {child : Child Node}
    (isCore : child.node.core = Item.property entry.1 image)
    (foldsTo : ∀ node : Node, node.core = image → FoldsTo context expand entry.2 node) :
    Member context expand entry child := by
  obtain ⟨seat, node⟩ := child
  obtain ⟨place, children, rfl, areCores⟩ :=
    Node.tree_of_core (show Kind.property ≠ .paren by decide) rfl isCore
  obtain ⟨key, value, rfl, isKey, isValue⟩ := Node.children_of_coreAll areCores
  obtain ⟨_, _, keyEnclosed, same⟩ := enclosed_word isKey
  refine .mk ?_ ?_ ?_ (foldsTo _ isValue)
  · rcases keyEnclosed.kind? with isKind | isKind <;> exact Node.isTree_of_kind? isKind
  · rw [Node.isKind]
    rcases keyEnclosed.kind? with isKind | isKind <;> rw [isKind] <;> rfl
  · rw [Literal.Writes, Literal.value?_enclosed keyEnclosed, same]
    exact Literal.value?_string entry.1

/-- What a literal is read as comes down to the value that it writes. -/
theorem foldsTo_image {item : Item} (written : Written item) {node : Node}
    (isCore : node.core = item.image) : FoldsTo context expand item.value node := by
  induction written generalizing node with
  | undefined =>
      obtain ⟨place, op, child, enclosed, isOp, isOperand⟩ := enclosed_unary isCore
      have zero : FoldsTo context expand (.int 0) child.node :=
        foldsTo_word isOperand value?_zero
      exact (foldsTo_void isOp zero).enclosed enclosed
  | null | yes | no => exact foldsTo_word isCore rfl
  | natural safe =>
      exact foldsTo_word isCore (Literal.value?_of_written (.natural safe))
  | negative safe =>
      obtain ⟨place, op, child, enclosed, isOp, isOperand⟩ := enclosed_unary isCore
      refine (foldsTo_negation safe isOp ?_).enclosed enclosed
      exact foldsTo_word isOperand (Literal.value?_of_written (.natural safe))
  | str text => exact foldsTo_word isCore (Literal.value?_string text)
  | @list items _ are =>
      obtain ⟨place, children, enclosed, areCores⟩ :=
        Node.enclosed_of_core (show Kind.array ≠ .paren by decide) isCore
      refine (foldsTo_array ?_).enclosed enclosed
      rw [List.forall₂_map_left_iff]
      exact Node.forall₂_of_coreAll
        (fun item there child isImage => are item there isImage) areCores
  | @record entries distinct _ are =>
      obtain ⟨place, children, enclosed, areCores⟩ :=
        Node.enclosed_of_core (show Kind.object ≠ .paren by decide) isCore
      have members : List.Forall₂ (Member context expand)
          (entries.map fun entry => (entry.1, entry.2.value)) children := by
        rw [List.forall₂_map_left_iff]
        exact Node.forall₂_of_coreAll (fun entry there child isImage =>
          member_of_core isImage fun node isCore => are entry there isCore) areCores
      have folds := (foldsTo_object (by simpa [Function.comp_def] using distinct) members).enclosed
        enclosed
      rw [List.map_map] at folds
      exact folds

/-- A statement of one expression keeps what the expression comes down to. -/
theorem FoldsTo.statement {flags : Flags} {place : Option Place} {child : Child Node} {levels : Nat}
    (foldsTo : FoldsTo context expand value child.node) (within : child.node.height ≤ levels) :
    ∃ result : Child Node, Constant value result.node ∧
      walkAt context expand (levels + 1) (.tree .exprStmt flags place [child]) =
        pure (.same (.tree .exprStmt flags place [result])) := by
  obtain ⟨folded, isFolded, reaches⟩ := foldsTo.walks levels within
  have walked : (walkerAt context expand levels).walk child.node = pure folded := isFolded
  have notKept : ∀ {node : Node}, Constant value node →
      node.isAbsent = false ∧ ∀ kind, node.kind? = some kind → kind.isStatement = false := by
    intro node constant
    obtain ⟨kind, isKind, notStatement⟩ := constant.isExpression
    refine ⟨?_, fun other isOther => ?_⟩
    · cases node with
      | absent => cases isKind
      | leaf | tree => rfl
    · rw [isKind] at isOther
      cases isOther
      exact notStatement
  obtain ⟨result, constant, stepped⟩ : ∃ result : Child Node, Constant value result.node ∧
      expressionStatement (walkerAt context expand levels) ⟨.exprStmt, flags, place, [child]⟩ =
        pure (.same (.tree .exprStmt flags place [result])) := by
    unfold expressionStatement
    simp only [Branch.child, List.getElem?_cons_zero, walked, pure_bind]
    cases reaches with
    | @same node constant =>
        obtain ⟨present, notStatement⟩ := notKept constant
        apply Exists.intro (⟨child.seat, node⟩ : Child Node)
        apply And.intro constant
        simp only [present, Bool.false_eq_true, if_false, Outcome.node]
        split
        case h_1 isKind => cases notStatement _ isKind
        case h_2 kind _ isKind =>
          simp only [notStatement kind isKind, Bool.false_eq_true, if_false]
          rfl
        case h_3 => rfl
    | @instead node constant =>
        obtain ⟨_, notStatement⟩ := notKept constant
        apply Exists.intro (⟨none, node⟩ : Child Node)
        apply And.intro constant
        simp only [Outcome.node]
        split
        case h_1 isKind => cases notStatement _ isKind
        case h_2 kind _ isKind =>
          simp only [notStatement kind isKind, Bool.false_eq_true, if_false]
          rfl
        case h_3 => rfl
  refine ⟨result, constant, ?_⟩
  rw [walkAt]
  exact (congrArg (FoldM.locating _) stepped).trans rfl

/-- A script of one expression comes down to one statement that writes its value. -/
theorem program_of_image {item : Item} (written : Written item) {tree : Node}
    (isCore : tree.core = item.image.script) (noDepth : context.depthLimit ≤ greatestDepthLimit) :
    ∃ folded statement, program context tree = pure folded ∧ folded.children = [statement] ∧
      value? statement = .ok (some item.value) := by
  obtain ⟨place, children, rfl, areStatements⟩ :=
    Node.tree_of_core (show Kind.program ≠ .paren by decide) rfl isCore
  obtain ⟨⟨seat, statement⟩, rfl, isStatement⟩ := Node.child_of_coreAll areStatements
  obtain ⟨stmtPlace, parts, rfl, areParts⟩ :=
    Node.tree_of_core (show Kind.exprStmt ≠ .paren by decide) rfl isStatement
  obtain ⟨child, rfl, isImage⟩ := Node.child_of_coreAll areParts
  let tree := Node.tree .program {} place [⟨seat, .tree .exprStmt {} stmtPlace [child]⟩]
  have walked : ∀ expand : Expander, ∃ result : Child Node, Constant item.value result.node ∧
      walk context expand tree =
        pure (.same (.tree .program {} place [⟨seat, .tree .exprStmt {} stmtPlace [result]⟩])) := by
    intro expand
    have isHeight : tree.height = child.node.height + 1 + 1 := by
      simp [tree, Node.height, Node.heightAll]
    obtain ⟨result, constant, walks⟩ :=
      (foldsTo_image written isImage : FoldsTo context expand _ _).statement (Nat.le_refl _)
    refine ⟨result, constant, ?_⟩
    have unfolded : walk context expand tree = FoldM.locating tree (do
        return .same (.tree .program {} place (← Slot.statements
          (walkerAt context expand (child.node.height + 1))
          [⟨seat, .tree .exprStmt {} stmtPlace [child]⟩]))) := by
      rw [walk, isHeight, walkAt]
      rfl
    have statements : Slot.statements (walkerAt context expand (child.node.height + 1))
        [⟨seat, .tree .exprStmt {} stmtPlace [child]⟩] =
        pure [⟨seat, .tree .exprStmt {} stmtPlace [result]⟩] := by
      have first : (walkerAt context expand (child.node.height + 1)).walk
          (.tree .exprStmt {} stmtPlace [child]) =
          pure (.same (.tree .exprStmt {} stmtPlace [result])) := walks
      rw [Slot.statements, first]
      rfl
    rw [unfolded, statements, pure_bind]
    rfl
  have depthOk : ¬ greatestDepthLimit < context.depthLimit := by omega
  have withinDepth : ∃ expand, foldWithin context.depthLimit.toNat context tree =
      walk context expand tree := by
    cases context.depthLimit.toNat with
    | zero => exact ⟨_, rfl⟩
    | succ depth => exact ⟨_, rfl⟩
  obtain ⟨expand, isWalk⟩ := withinDepth
  obtain ⟨result, constant, walks⟩ := walked expand
  refine ⟨.tree .program {} place [⟨seat, .tree .exprStmt {} stmtPlace [result]⟩],
    .tree .exprStmt {} stmtPlace [result], ?_, rfl, ?_⟩
  · rw [program, if_neg depthOk]
    have folded := isWalk.trans walks
    simp only [tree] at folded
    rw [folded]
    rfl
  · obtain ⟨resultSeat, resultNode⟩ := result
    rw [value?]
    exact constant.known

end Fold

open Grammar (nestingLimit)
open Literal (write? read?)

/-- A portable value has a literal.  On a stack that has the frames for printing it, the literal is
written and read as the value, and it is printed as a script that is read and folded, whatever is
bound, to a single statement that writes the value again.  The printed script is refused only if
it nests too deep for the reader. -/
theorem portable_value_read_back {value : Value} (portable : value.Portable) :
    ∃ node : Node, Printer.frames node.script ≤ 6 * value.depth + 12 ∧
      ∀ frames, Printer.frames node.script ≤ frames →
        write? value frames = .ok (some node) ∧ read? node frames = .ok (some value) ∧
        ∀ sourceName mapName, ∃ printed,
          printTree node.script sourceName mapName frames = .ok printed ∧
          ∀ (source : Source) (levels : Nat), source.text = printed.code →
            (∃ tree, parseScript source levels = .ok tree ∧
              ∀ context : Context, context.depthLimit ≤ Fold.greatestDepthLimit →
                Fold.frames tree ≤ Fold.headroom context.depthLimit →
                ∃ folded statement, Fold.programOnStack context tree = pure folded ∧
                  folded.children = [statement] ∧
                  (statement.height ≤ frames → read? statement frames = .ok (some value))) ∨
            levels < 10 * node.height + 11 ∧
              parseScript source levels = .error (.parse .nestingTooDeep) := by
  obtain ⟨item, written, rfl⟩ := Literal.exists_written portable
  obtain ⟨code, laidOut, reads⟩ := (Printer.spells_written written).layOut
  obtain ⟨writes, prints⟩ := written.fits
  have isScript : Printer.frames item.node.script =
      max (max (Printer.frames item.node) 0 + 3) 0 + 3 := rfl
  refine ⟨item.node, by omega, fun frames fits => ?_⟩
  have height := (Printer.frames_bounds item.node).1
  refine ⟨?writes, ?reads, fun sourceName mapName => ?_⟩
  case writes =>
    rw [write?, Stack.within_of_le (by omega)]
    exact Literal.ofValue?_of_written written
  case reads =>
    rw [read?, Stack.within_of_le (by omega)]
    exact Literal.value?_of_written written
  obtain ⟨map, isLaidOut⟩ := laidOut sourceName mapName
  refine ⟨⟨code, map⟩, (printTree_of_le fits).trans isLaidOut, fun source levels isText => ?_⟩
  refine (reads source levels isText).imp_left ?_
  rintro ⟨tree, parsed, isCore⟩
  refine ⟨tree, parsed, fun context noDepth fitsFold => ?_⟩
  obtain ⟨folded, statement, isFolded, isStatement, known⟩ :=
    Fold.program_of_image written isCore noDepth
  refine ⟨folded, statement, (if_pos fitsFold).trans isFolded, isStatement, fun fitsToo => ?_⟩
  rw [read?, Stack.within_of_le fitsToo]
  exact known

/-- The record of `undefined`, numbers of both signs and a text of an odd code point. -/
def mixedRecord : Value :=
  .record [(.string "a", .list [.undefined, .int (-5), .int 9007199254740992]),
    (.str [.half 0, .char '"'], .record [])]

def bareContext : Context :=
  ⟨.none, [], [], [], [], 100⟩

/-- The literal of a value, printed and read again. -/
def reread? (value : Value) : Option Node := do
  let node ← (write? value).toOption.join
  let printed ← (printTree node.script none none).toOption
  (parseScript ⟨printed.code, none, .script⟩).toOption

/-- A record with a number below zero, the greatest safe integer and half of a surrogate pair comes
back as it was. -/
theorem mixedRecord_read_back :
    mixedRecord.Portable ∧
    ∃ node printed tree folded statement, write? mixedRecord = .ok (some node) ∧
      printTree node.script none none = .ok printed ∧
      parseScript ⟨printed.code, none, .script⟩ = .ok tree ∧
      Fold.programOnStack bareContext tree = pure folded ∧ folded.children = [statement] ∧
      read? statement = .ok (some mixedRecord) := by
  have portable : mixedRecord.Portable := by
    refine @Value.Portable.record [(Text.ofString "a", _), ([.half 0, .char '"'], .record [])]
      (by decide) ?_
    simp only [List.mem_cons, List.not_mem_nil, or_false, forall_eq_or_imp, forall_eq]
    refine ⟨.list ?_, @Value.Portable.record [] List.nodup_nil nofun⟩
    simp only [List.mem_cons, List.not_mem_nil, or_false, forall_eq_or_imp, forall_eq]
    exact ⟨.undefined, .int (by decide), .int (by decide)⟩
  obtain ⟨node, isShallow, fits⟩ := portable_value_read_back portable
  obtain ⟨isNode, _, reads⟩ := fits Stack.limit (Nat.le_trans isShallow (by decide))
  obtain ⟨printed, isPrinted, reads⟩ := reads none none
  have isHeight : node.height = 5 := by
    have heights : (write? mixedRecord).map (Option.map Node.height) = .ok (some 5) := rfl
    rw [isNode] at heights
    exact Option.some.inj (Except.ok.inj heights)
  rcases reads ⟨printed.code, none, .script⟩ nestingLimit rfl with
    ⟨tree, parsed, folds⟩ | ⟨deep, _⟩
  · have isTree : reread? mixedRecord = some tree := by
      rw [reread?, isNode]
      change (printTree node.script none none).toOption >>= _ = some tree
      rw [isPrinted]
      exact congrArg Except.toOption parsed
    have shallow : (reread? mixedRecord).any (fun tree =>
        decide (Fold.frames tree ≤ Fold.headroom 100) &&
          ((Fold.programOnStack bareContext tree).run.run []).1.toOption.any fun folded =>
            folded.children.all fun statement => decide (statement.height ≤ Stack.limit)) := by
      decide +kernel
    rw [isTree, Option.any_some, Bool.and_eq_true, decide_eq_true_eq] at shallow
    obtain ⟨folded, statement, isFolded, isOnly, known⟩ :=
      folds bareContext (by decide) shallow.1
    have low := shallow.2
    rw [isFolded] at low
    have low : (folded.children.all fun statement => decide (statement.height ≤ Stack.limit)) :=
      low
    rw [isOnly, List.all_cons, Bool.and_eq_true, decide_eq_true_eq] at low
    exact ⟨portable, node, printed, tree, folded, statement, isNode, isPrinted, parsed, isFolded,
      isOnly, known low.1⟩
  · rw [isHeight] at deep
    exact absurd deep (by decide)

/-- An empty list inside some lists. -/
def nestedLists : Nat → Value
  | 0 => .list []
  | depth + 1 => .list [nestedLists depth]

private theorem portable_nestedLists (depth : Nat) : (nestedLists depth).Portable := by
  induction depth with
  | zero => exact .list nofun
  | succ depth induction =>
      refine .list fun item there => ?_
      obtain rfl := List.mem_singleton.mp there
      exact induction

private theorem writingFrames_nestedLists (depth : Nat) :
    Literal.writingFrames (nestedLists depth) = depth + 1 := by
  induction depth with
  | zero => rfl
  | succ depth induction =>
      rw [nestedLists, Literal.writingFrames, Literal.writingFramesOfItems, induction]
      rfl

private theorem ofValue?_nestedLists (depth : Nat) :
    Literal.ofValue? (nestedLists depth) = .ok (some (nestedArrays depth)) := by
  induction depth with
  | zero => rfl
  | succ depth induction =>
      rw [nestedLists, Literal.ofValue?, Literal.ofItems?, induction]
      rfl

/-- Lists that nest too deep for the reader are printed as a text that is no script. -/
theorem deepLists_not_read_back :
    (nestedLists 300).Portable ∧
    ∃ node printed, write? (nestedLists 300) = .ok (some node) ∧
      printTree node.script none none = .ok printed ∧
      ∀ source : Source, source.text = printed.code →
        parseScript source = .error (.parse .nestingTooDeep) := by
  obtain ⟨code, printed, refused⟩ := nestedArrays_refused (show 3 * 300 + 9 ≤ Stack.limit by decide)
  obtain ⟨map, isPrinted⟩ := printed none none
  have fits : Literal.writingFrames (nestedLists 300) ≤ Stack.limit := by
    rw [writingFrames_nestedLists]
    decide
  exact ⟨portable_nestedLists 300, _, _,
    (Stack.within_of_le fits).trans (ofValue?_nestedLists 300), isPrinted,
    fun source isText => refused source nestingLimit isText (by decide)⟩

end ScriptFold
