/-!
# Bits of integers

An integer stands for its bits in two's complement, which go on without end: from some
place on, those of a negative integer are all set and those of any other are all clear.
-/

namespace ScriptFold

namespace Bits

/-- Whether an integer is negative, so that its high bits are set. -/
def isNegative : Int → Bool
  | .ofNat _ => false
  | .negSucc _ => true

/-- The bits of an integer, turned over if it is negative: only finitely many are set. -/
def pattern : Int → Nat
  | .ofNat n => n
  | .negSucc n => n

def ofPattern (negative : Bool) (n : Nat) : Int :=
  if negative then .negSucc n else .ofNat n

/-- Two integers combined bit by bit. -/
def combine (op : Bool → Bool → Bool) (a b : Int) : Int :=
  let negative := op (isNegative a) (isNegative b)
  let onPatterns (x y : Bool) : Bool := op (x ^^ isNegative a) (y ^^ isNegative b) ^^ negative
  ofPattern negative (Nat.bitwise onPatterns (pattern a) (pattern b))

end Bits

end ScriptFold
