import ScriptFold.Fault
import ScriptFold.Proofs.Meaning.Expression
import ScriptFold.Text.StringLiteral

/-!
# Literals and constants

The literal of a value evaluates to that value once through its literal, and an
expression that folding knows as a constant evaluates to that constant, without
calls and without a fault.
-/

namespace ScriptFold

namespace BinaryOp

theorem onNumbers_isPrimitive {op : Num → Num → Except Fault Num} {left right result : Value}
    (applied : onNumbers op left right = .ok result) : result.isPrimitive = true := by
  obtain ⟨first, _, applied⟩ := Calculation.of_bind_eq_ok applied
  obtain ⟨second, _, applied⟩ := Calculation.of_bind_eq_ok applied
  obtain ⟨number, _, applied⟩ := Calculation.of_bind_eq_ok applied
  cases applied
  rfl

theorem onBits_isPrimitive {op : Bool → Bool → Bool} {left right result : Value}
    (applied : onBits op left right = .ok result) : result.isPrimitive = true := by
  obtain ⟨first, _, applied⟩ := Calculation.of_bind_eq_ok applied
  obtain ⟨second, _, applied⟩ := Calculation.of_bind_eq_ok applied
  cases applied
  rfl

private theorem addValues_isPrimitive {left right result : Value}
    (applied : addValues left right = .ok result) : result.isPrimitive = true := by
  obtain ⟨first, _, applied⟩ := Calculation.of_bind_eq_ok applied
  obtain ⟨second, _, applied⟩ := Calculation.of_bind_eq_ok applied
  split at applied
  · obtain ⟨text, _, applied⟩ := Calculation.of_bind_eq_ok applied
    cases applied
    rfl
  · obtain ⟨text, _, applied⟩ := Calculation.of_bind_eq_ok applied
    cases applied
    rfl
  · obtain ⟨number, _, applied⟩ := Calculation.of_bind_eq_ok applied
    obtain ⟨other, _, applied⟩ := Calculation.of_bind_eq_ok applied
    obtain ⟨sum, _, applied⟩ := Calculation.of_bind_eq_ok applied
    obtain ⟨settled, _, applied⟩ := Calculation.of_bind_eq_ok applied
    cases applied
    rfl

private theorem isPrimitive_of_map {α : Type} {calculated : Except Fault α} {wrap : α → Value}
    {result : Value} (wraps : ∀ value, (wrap value).isPrimitive = true)
    (applied : calculated.map wrap = .ok result) : result.isPrimitive = true := by
  cases calculated with
  | error fault => cases applied
  | ok value =>
      cases applied
      exact wraps value

/-- Binary operators give primitive values. -/
theorem apply_isPrimitive {op : BinaryOp} {left right result : Value}
    (applied : op.apply left right = .ok result) : result.isPrimitive = true := by
  cases op with
  | add => exact addValues_isPrimitive applied
  | sub | mul | div | rem | pow => exact onNumbers_isPrimitive applied
  | looseEqual | looseUnequal | compare relation =>
      exact isPrimitive_of_map (fun _ => rfl) applied
  | strictEqual | strictUnequal =>
      cases applied
      rfl
  | shiftLeft | shiftRight | shiftRightUnsigned =>
      obtain ⟨first, _, applied⟩ := Calculation.of_bind_eq_ok applied
      obtain ⟨count, _, applied⟩ := Calculation.of_bind_eq_ok applied
      cases applied
      rfl
  | bitAnd | bitOr | bitXor => exact onBits_isPrimitive applied

end BinaryOp

/-- Unary operators give primitive values. -/
theorem UnaryOp.apply_isPrimitive {op : UnaryOp} {operand result : Value}
    (applied : op.apply operand = .ok result) : result.isPrimitive = true := by
  cases op with
  | not | typeOf =>
      cases applied
      rfl
  | minus | plus | bitNot =>
      obtain ⟨number, _, applied⟩ := Calculation.of_bind_eq_ok applied
      cases applied
      rfl

namespace Meaning

variable {context : Context}

private theorem literalResult_of_value? {flags : Flags} {place : Option Place} {seat : Option Nat}
    {token : Leaf} {value : Value}
    (found : Literal.value? (.tree .literal flags place [⟨seat, .leaf token⟩]) =
      .ok (some value)) : literalResult token = .ok value := by
  have known : Literal.tokenValue? token = .ok (some value) := by
    simpa only [Literal.value?] using found
  simp [literalResult, known, pure, Except.pure]

private theorem throughLiteral_undefined : throughLiteral .undefined = .ok .undefined := rfl

theorem throughLiteral_bool (b : Bool) : throughLiteral (.bool b) = .ok (.bool b) := by
  cases b <;> rfl

theorem throughLiteral_str (text : Text) : throughLiteral (.str text) = .ok (.str text) := by
  simp [throughLiteral, Literal.ofValue?, Literal.ofWord, Node.made, Node.unseated, Node.word,
    Literal.value?, Literal.tokenValue?, StringLiteral.decode_encode, pure, Except.pure]

/-- A constant evaluates to its value. -/
theorem eval_of_value? {node : Node} {value : Value} (expression : IsExpression context node)
    (found : Literal.value? node = .ok (some value)) (world : World) (bound : Table Value) :
    eval world bound node = pure value := by
  induction expression generalizing value with
  | literal primitive =>
      rw [eval_literal, literalResult_of_value? found]
      rfl
  | name => simp [Literal.value?] at found
  | paren innerIs induction =>
      rw [eval_paren]
      exact induction (by simpa [Literal.value?] using found)
  | @unary flags place seat op operand isOp known operandIs induction =>
      simp only [Literal.value?] at found
      split at found
      case isTrue isVoid =>
        have isVoid : op.text.isString "void" = true := isVoid
        obtain ⟨inner, innerFound, found⟩ := Calculation.of_bind_eq_ok found
        cases inner with
        | none => cases found
        | some innerValue =>
            cases found
            rw [eval_unary, induction innerFound]
            simp [unaryResult, isVoid, throughLiteral_undefined]
            rfl
      case isFalse => cases found
  | binary => simp [Literal.value?] at found
  | logical => simp [Literal.value?] at found
  | conditional => simp [Literal.value?] at found
  | @template flags place parts pieces substitutions =>
      cases parts with
      | nil => simp [Literal.value?] at found
      | cons first rest =>
          cases rest with
          | nil =>
              simp only [Literal.value?] at found
              obtain ⟨text, read, found⟩ := Calculation.of_bind_eq_ok found
              cases found
              simp [eval_template, evalPieces_cons, evalPieces_nil, read, calculate]
              rfl
          | cons => simp [Literal.value?] at found
  | call => simp [Literal.value?] at found

/-- A literal token that writes a value is read, or reading it is a fault. -/
theorem tokenValue?_ne_none {token : Leaf} (primitive : isPrimitiveType token.type = true) :
    Literal.tokenValue? token ≠ .ok none := by
  intro absent
  unfold Literal.tokenValue? at absent
  split at absent
  · obtain ⟨number, _, absent⟩ := Calculation.of_bind_eq_ok absent
    cases absent
  · obtain ⟨text, _, absent⟩ := Calculation.of_bind_eq_ok absent
    cases absent
  · cases absent
  · cases absent
  · cases absent
  · simp_all [isPrimitiveType]

private theorem literalResult_eq {token : Leaf} (primitive : isPrimitiveType token.type = true)
    (value : Value) :
    literalResult token = (do return (← Literal.tokenValue? token).getD value) := by
  unfold literalResult
  cases read : Literal.tokenValue? token with
  | error fault => rfl
  | ok found =>
      cases found with
      | none => exact absurd read (tokenValue?_ne_none primitive)
      | some known => rfl

theorem ofValue?_ne_none {value : Value} (primitive : value.isPrimitive = true) :
    Literal.ofValue? value ≠ .ok none := by
  intro absent
  cases value with
  | undefined | null | str => cases absent
  | bool b => cases b <;> cases absent
  | num n =>
      rw [Literal.ofValue?] at absent
      obtain ⟨text, _, absent⟩ := Calculation.of_bind_eq_ok absent
      cases absent
  | list | tuple | record | function | sealed => cases primitive

/-- A literal of one token evaluates to its value once through that literal. -/
theorem eval_ofWord {type : LeafType} {text : Text} {value : Value}
    (primitive : isPrimitiveType type = true)
    (written : Literal.ofValue? value = .ok (some (Literal.ofWord type text)))
    (world : World) (bound : Table Value) :
    eval world bound (Literal.ofWord type text) = calculate (throughLiteral value) := by
  rw [throughLiteral, written, Literal.ofWord, Node.made, Node.unseated, Node.word]
  simp only [List.map_cons, List.map_nil, eval_literal, Calculation.ok_bind, Literal.value?]
  rw [literalResult_eq primitive value]

/-- The literal of a primitive value is an expression that stands for the value. -/
theorem eval_ofValue? {value : Value} {node : Node} (primitive : value.isPrimitive = true)
    (written : Literal.ofValue? value = .ok (some node)) :
    IsExpression context node ∧
      ∀ world bound, eval world bound node = calculate (throughLiteral value) := by
  cases value with
  | undefined =>
      cases written
      exact ⟨.unary rfl (.inl rfl) (.literal rfl), fun world bound => rfl⟩
  | null =>
      cases written
      exact ⟨.literal rfl, eval_ofWord rfl rfl⟩
  | bool b =>
      cases b <;> cases written <;> exact ⟨.literal rfl, eval_ofWord rfl rfl⟩
  | num n =>
      have unfolded := written
      rw [Literal.ofValue?] at unfolded
      obtain ⟨text, _, unfolded⟩ := Calculation.of_bind_eq_ok unfolded
      cases unfolded
      exact ⟨.literal rfl, eval_ofWord rfl written⟩
  | str text =>
      cases written
      exact ⟨.literal rfl, eval_ofWord rfl rfl⟩
  | list | tuple | record | function | sealed => cases primitive

end Meaning

end ScriptFold
