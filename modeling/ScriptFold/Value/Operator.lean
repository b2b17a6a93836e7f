import ScriptFold.Number.Bits
import ScriptFold.Value.Coercion

/-!
# Operators

The operators that fold when their operands are known.
-/

namespace ScriptFold

inductive BinaryOp where
  | add | sub | mul | div | rem | pow
  | looseEqual | looseUnequal | strictEqual | strictUnequal
  | compare (relation : Value.Relation)
  | shiftLeft | shiftRight | shiftRightUnsigned
  | bitAnd | bitOr | bitXor
  deriving DecidableEq, Repr

namespace BinaryOp

def spellings : List (String × BinaryOp) := [
  ("+", .add), ("-", .sub), ("*", .mul), ("/", .div), ("%", .rem), ("**", .pow),
  ("==", .looseEqual), ("!=", .looseUnequal), ("===", .strictEqual), ("!==", .strictUnequal),
  ("<", .compare .less), ("<=", .compare .atMost), (">", .compare .greater),
  (">=", .compare .atLeast),
  ("<<", .shiftLeft), (">>", .shiftRight), (">>>", .shiftRightUnsigned),
  ("&", .bitAnd), ("|", .bitOr), ("^", .bitXor)]

/-- The operator of a spelling. -/
def ofText? (text : Text) : Option BinaryOp :=
  (spellings.find? fun entry => text.isString entry.1).map Prod.snd

/-- A settled result; an integer beyond the doubles counts as infinity. -/
def saturate (result : Except Fault Num) : Except Fault Num :=
  match result.bind Num.settle with
  | .error .tooLarge => .ok (Num.infinity false)
  | settled => settled

/-- A sum, or the two texts joined if one operand is a string. -/
def addValues (a b : Value) : Except Fault Value := do
  let x ← a.toPrimitive
  let y ← b.toPrimitive
  match x, y with
  | .str s, _ => return .str (s ++ (← y.toText))
  | _, .str t => return .str ((← x.toText) ++ t)
  | _, _ =>
      let sum ← (← x.toNumber).add (← y.toNumber)
      return .num (← sum.settle)

def onNumbers (op : Num → Num → Except Fault Num) (a b : Value) : Except Fault Value := do
  let x ← a.toNumber
  let y ← b.toNumber
  return .num (← op x y)

/-- The places to shift by: the lowest five bits. -/
def shiftCount (value : Value) : Except Fault Nat := do
  return (← value.toUInt32) % 32

/-- An operator on the bits of its operands, each wrapped before and the result wrapped again. -/
def onBits (op : Bool → Bool → Bool) (a b : Value) : Except Fault Value := do
  let x ← a.toInt32
  let y ← b.toInt32
  return .int (Value.wrap32 (Bits.combine op x y))

def apply (op : BinaryOp) (a b : Value) : Except Fault Value :=
  match op with
  | .add => addValues a b
  | .sub => onNumbers (fun x y => saturate (x.sub y)) a b
  | .mul => onNumbers (fun x y => saturate (x.mul y)) a b
  | .div => onNumbers Num.div a b
  | .rem => onNumbers Num.rem a b
  | .pow => onNumbers Num.pow a b
  | .looseEqual => (Value.looseEquals a b).map .bool
  | .looseUnequal => (Value.looseEquals a b).map fun equal => .bool !equal
  | .strictEqual => .ok (.bool (Value.strictEquals a b))
  | .strictUnequal => .ok (.bool !(Value.strictEquals a b))
  | .compare relation => (Value.compareBy relation a b).map .bool
  | .shiftLeft => do
      let x ← a.toInt32
      let count ← shiftCount b
      return .int (Value.wrap32 (x * (1 <<< count : Nat)))
  | .shiftRight => do
      let x ← a.toInt32
      let count ← shiftCount b
      return .int (x >>> count)
  | .shiftRightUnsigned => do
      let x ← a.toUInt32
      let count ← shiftCount b
      return .int (x >>> count : Nat)
  | .bitAnd => onBits and a b
  | .bitOr => onBits or a b
  | .bitXor => onBits xor a b

end BinaryOp

inductive UnaryOp where
  | not | minus | plus | bitNot | typeOf
  deriving DecidableEq, Repr

namespace UnaryOp

def spellings : List (String × UnaryOp) := [
  ("!", .not), ("-", .minus), ("+", .plus), ("~", .bitNot), ("typeof", .typeOf)]

/-- The operator of a spelling. -/
def ofText? (text : Text) : Option UnaryOp :=
  (spellings.find? fun entry => text.isString entry.1).map Prod.snd

/-- The number with the other sign; zero becomes a zero with a sign. -/
def negate (number : Num) : Num :=
  match number with
  | .int n => if n = 0 then .float (Double.ofRank true 0) else .int (-n)
  | .float x => .float x.neg

def apply (op : UnaryOp) (value : Value) : Except Fault Value :=
  match op with
  | .not => .ok (.bool !value.isTruthy)
  | .minus => do return .num (negate (← value.toNumber))
  | .plus => do return .num (← value.toNumber)
  | .bitNot => do return .int (Value.wrap32 (~~~(← value.toInt32)))
  | .typeOf => .ok (.string value.typeOf.word)

end UnaryOp

end ScriptFold
