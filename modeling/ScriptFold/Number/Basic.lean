import ScriptFold.Fault
import ScriptFold.Number.Double

/-!
# Numbers

A number is an exact integer or a double.  Integers are exact and unbounded until
an operation settles them: a settled integer beyond 2^53 becomes a double.
-/

namespace ScriptFold

/-- A number: an exact integer or a double. -/
inductive Num where
  | int (n : Int)
  | float (x : Double)
  deriving DecidableEq

namespace Num

/-- Integers up to this magnitude, 2^53, are exact as doubles. -/
def greatestSafe : Nat := 0x20000000000000

/-- Not a number. -/
def nan : Num := .float .nan

def infinity (negative : Bool) : Num := .float (.infinity negative)

/-- The double of a number; an integer beyond the doubles has none. -/
def toDouble : Num → Except Fault Double
  | .float x => .ok x
  | .int n =>
      let nearest := Double.ofInt n
      if nearest.isInfinite then .error .tooLarge else .ok nearest

/-- An integer beyond the safe ones becomes a double. -/
def settle : Num → Except Fault Num
  | .int n => if greatestSafe < n.natAbs then (toDouble (.int n)).map .float else .ok (.int n)
  | .float x => .ok (.float x)

/-- Whether the number is `nan`. -/
def isNaN : Num → Bool
  | .float x => x.isNaN
  | .int _ => false

def isInfinite : Num → Bool
  | .float x => x.isInfinite
  | .int _ => false

/-- Whether the number is zero, of either sign. -/
def isZero : Num → Bool
  | .float x => x.isZero
  | .int n => n == 0

/-- The exact order of two numbers, unless one is `nan`. -/
def order? : Num → Num → Option Ordering
  | .int a, .int b => some (compare a b)
  | .float x, .float y => x.order? y
  | .int a, .float y => orderInt a y
  | .float x, .int b => (orderInt b x).map Ordering.swap
where
  orderInt (n : Int) : Double → Option Ordering
    | .nan => none
    | .infinity negative => some (if negative then .gt else .lt)
    | .finite negative rank =>
        some (compare (n * Double.unitsPerOne) ((Double.finite negative rank).units?.getD 0))

/-- Whether two numbers are equal; `nan` equals nothing, and the two zeros are equal. -/
def equals (a b : Num) : Bool :=
  order? a b == some .eq

/-- Whether the number is below zero. -/
def isNegative (a : Num) : Bool :=
  order? a (.int 0) == some .lt

/-- Whether the number is above zero. -/
def isPositive (a : Num) : Bool :=
  order? a (.int 0) == some .gt

/-- The integer part, unless the number is `nan` or infinite. -/
def truncate? : Num → Option Int
  | .int n => some n
  | .float x => x.truncate?

/-- Two integers meet exactly, any other pair as doubles. -/
def combine (onInts : Int → Int → Int) (onDoubles : Double → Double → Double) :
    Num → Num → Except Fault Num
  | .int a, .int b => .ok (.int (onInts a b))
  | a, b => do return .float (onDoubles (← a.toDouble) (← b.toDouble))

/-- The sum, not settled. -/
def add : Num → Num → Except Fault Num := combine (· + ·) Double.add

/-- The difference, not settled. -/
def sub : Num → Num → Except Fault Num := combine (· - ·) Double.sub

/-- The product, not settled. -/
def mul : Num → Num → Except Fault Num := combine (· * ·) Double.mul

/-- The number with the other sign; the integer zero has no sign. -/
def neg : Num → Num
  | .int n => .int (-n)
  | .float x => .float x.neg

/-- A quotient of integers with a divisor that is not zero.  Integers that divide stay integers. -/
def intQuotient (a b : Int) : Except Fault Num :=
  let nearest := Double.ofRatio ((a < 0) != (b < 0)) a.natAbs b.natAbs
  if nearest.isInfinite then .error .tooLarge
  else if a % b = 0 then settle (.int (a / b))
  else .ok (.float nearest)

/-- A quotient with a divisor that is not zero. -/
def quotient : Num → Num → Except Fault Num
  | .int a, .int b => intQuotient a b
  | a, b => do return .float (Double.div (← a.toDouble) (← b.toDouble))

/-- Division.  A zero divisor gives an infinity whose sign is that of the operands. -/
def div (a b : Num) : Except Fault Num :=
  if b.isZero then
    if a.isZero || a.isNaN then .ok nan
    else .ok (infinity (a.isNegative != isNegativeZero b))
  else
    quotient a b
where
  isNegativeZero : Num → Bool
    | .float x => x.signBit
    | .int _ => false

/-- The remainder of truncated division, with the sign of the dividend. -/
def rem (a b : Num) : Except Fault Num :=
  if b.isZero || a.isInfinite then .ok nan
  else if b.isInfinite then .ok a
  else
    match a, b with
    | .int m, .int n => .ok (.int (m.tmod n))
    | a, b => do return .float (Double.rem (← a.toDouble) (← b.toDouble))

/-- The number of binary digits of a numeral. -/
def bitLength (n : Nat) : Nat :=
  if n = 0 then 0 else n.log2 + 1

/-- Whether an exponent is even, so that a power of a negative base is positive. -/
def isEven (y : Num) : Except Fault Bool := do
  let exponent ← y.toDouble
  return (Double.rem exponent (Double.ofInt 2)).isZero

/-- The infinity that an overflowing power goes to. -/
def overflowingPower (x y : Num) : Except Fault Num := do
  if x.isPositive then return infinity false
  return infinity (!(← isEven y))

/-- The power of two doubles whose exponent is neither zero nor `nan`. -/
def doublePower (x y : Double) : Except Fault Num :=
  let result := Double.pow x y
  if x.isZero && y.signBit then .ok (infinity false)
  else
    match x, y, result with
    | .finite _ _, .finite _ _, .infinity _ => overflowingPower (.float x) (.float y)
    | _, _, _ => .ok (.float result)

/-- The power.  Small integer powers are exact; the others are powers of doubles. -/
def pow (x y : Num) : Except Fault Num :=
  if y.isNaN then .ok nan
  else if y.isZero then .ok (.int 1)
  else
    match x, y with
    | .int a, .int b =>
        if 0 < b ∧ b.toNat * bitLength (max a.natAbs 1) ≤ 64 then settle (.int (Int.pow a b.toNat))
        else asDoubles x y
    | _, _ => asDoubles x y
where
  asDoubles (x y : Num) : Except Fault Num :=
    match x.toDouble, y.toDouble with
    | .ok a, .ok b => doublePower a b
    | _, _ => overflowingPower x y

end Num

end ScriptFold
