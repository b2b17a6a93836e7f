/-!
# Double precision numbers

The finite doubles of one sign are ranked by magnitude, from zero up: rank zero is
zero and the rank after that of a magnitude is the next magnitude.  Every finite
double is a whole number of units of 2^-1074, so each operation is carried out
exactly in units and its result is rounded once, to the nearest rank, a tie going
to the even one.
-/

namespace ScriptFold

/-- The number of finite magnitudes. -/
def Double.rankCount : Nat := 0x7FF0000000000000

inductive Double where
  | nan
  | infinity (negative : Bool)
  | finite (negative : Bool) (rank : Fin Double.rankCount)
  deriving DecidableEq

/-- `numerator / denominator` rounded to the nearest natural number, a tie to the even one. -/
def roundHalfEven (numerator denominator : Nat) : Nat :=
  let quotient := numerator / denominator
  let twice := 2 * (numerator % denominator)
  if twice < denominator then quotient
  else if denominator < twice then quotient + 1
  else quotient + quotient % 2

namespace Double

/-- Units of 2^-1074 in one. -/
def unitsPerOne : Nat := 1 <<< 1074

/-- The number of ranks from a power of two to the next: 2^52. -/
def binade : Nat := 0x10000000000000

/-- The magnitude of a rank, in units. -/
def unitsOfRank (rank : Nat) : Nat :=
  if rank < binade then rank
  else (binade + rank % binade) <<< (rank / binade - 1)

/-- The rank nearest to `numerator / denominator` units, not bounded above. -/
def nearestRank (numerator denominator : Nat) : Nat :=
  let whole := numerator / denominator
  if whole < 2 * binade then
    roundHalfEven numerator denominator
  else
    let shift := whole.log2 - 52
    shift * binade + roundHalfEven numerator (denominator <<< shift)

/-- The number of a sign and a rank; beyond the last rank lies infinity. -/
def ofRank (negative : Bool) (rank : Nat) : Double :=
  if bounded : rank < rankCount then .finite negative ⟨rank, bounded⟩
  else .infinity negative

/-- The double nearest to a fraction of units. -/
def ofUnits (negative : Bool) (numerator denominator : Nat) : Double :=
  ofRank negative (nearestRank numerator denominator)

/-- The double nearest to `numerator / denominator`. -/
def ofRatio (negative : Bool) (numerator denominator : Nat) : Double :=
  ofUnits negative (numerator * unitsPerOne) denominator

def ofInt (n : Int) : Double :=
  ofRatio (n < 0) n.natAbs 1

def zero : Double := ofRank false 0

/-- Whether the number is `nan`. -/
def isNaN : Double → Bool
  | .nan => true
  | _ => false

def isInfinite : Double → Bool
  | .infinity _ => true
  | _ => false

/-- Whether the number is a zero of either sign. -/
def isZero : Double → Bool
  | .finite _ rank => rank.val == 0
  | _ => false

/-- Whether the sign is negative, also of a zero. -/
def signBit : Double → Bool
  | .nan => false
  | .infinity negative => negative
  | .finite negative _ => negative

/-- The signed number of units of a finite double; both zeros have none. -/
def units? : Double → Option Int
  | .finite negative rank =>
      some (if negative then -(unitsOfRank rank : Int) else unitsOfRank rank)
  | _ => none

/-- The integer that a finite double is, if it is one. -/
def toInt? (x : Double) : Option Int := do
  let units ← x.units?
  if units % unitsPerOne = 0 then some (units / unitsPerOne) else none

/-- The integer part of a finite double. -/
def truncate? (x : Double) : Option Int :=
  x.units?.map fun units => units.tdiv unitsPerOne

/-- The same magnitude with the other sign. -/
def neg : Double → Double
  | .nan => .nan
  | .infinity negative => .infinity !negative
  | .finite negative rank => .finite (!negative) rank

/-- The magnitude. -/
def abs : Double → Double
  | .nan => .nan
  | .infinity _ => .infinity false
  | .finite _ rank => .finite false rank

/-- The order of two numbers, unless one is `nan`. -/
def order? : Double → Double → Option Ordering
  | .nan, _ => none
  | _, .nan => none
  | .infinity a, .infinity b => some (compare (!a) (!b))
  | .infinity a, .finite _ _ => some (if a then .lt else .gt)
  | .finite _ _, .infinity b => some (if b then .gt else .lt)
  | x@(.finite _ _), y@(.finite _ _) =>
      match x.units?, y.units? with
      | some a, some b => some (compare a b)
      | _, _ => none

/-- A double nearest to a signed sum of units, with the sign that a zero result takes. -/
def ofSum (units : Int) (zeroIsNegative : Bool) : Double :=
  if units = 0 then ofRank zeroIsNegative 0
  else ofUnits (units < 0) units.natAbs 1

/-- Sum, rounded once. -/
def add (x y : Double) : Double :=
  match x, y with
  | .nan, _ => .nan
  | _, .nan => .nan
  | .infinity a, .infinity b => if a == b then .infinity a else .nan
  | .infinity a, .finite _ _ => .infinity a
  | .finite _ _, .infinity b => .infinity b
  | .finite a _, .finite b _ =>
      ofSum (x.units?.getD 0 + y.units?.getD 0) (a && b)

/-- Difference, rounded once. -/
def sub (x y : Double) : Double :=
  add x y.neg

/-- Product, rounded once. -/
def mul (x y : Double) : Double :=
  match x, y with
  | .nan, _ => .nan
  | _, .nan => .nan
  | .infinity a, y => if y.isZero then .nan else .infinity (a != y.signBit)
  | x, .infinity b => if x.isZero then .nan else .infinity (x.signBit != b)
  | .finite a r, .finite b s =>
      ofUnits (a != b) (unitsOfRank r * unitsOfRank s) unitsPerOne

/-- Quotient, rounded once; the divisor is expected not to be zero. -/
def div (x y : Double) : Double :=
  match x, y with
  | .nan, _ => .nan
  | _, .nan => .nan
  | .infinity _, .infinity _ => .nan
  | .infinity a, .finite b _ => .infinity (a != b)
  | .finite a _, .infinity b => ofRank (a != b) 0
  | .finite a r, .finite b s =>
      if s.val = 0 then
        if r.val = 0 then .nan else .infinity (a != b)
      else
        ofRatio (a != b) (unitsOfRank r) (unitsOfRank s)

/-- The remainder of truncated division, which is exact and has the sign of `x`. -/
def rem (x y : Double) : Double :=
  match x, y with
  | .nan, _ => .nan
  | _, .nan => .nan
  | .infinity _, _ => .nan
  | x, .infinity _ => x
  | .finite a r, .finite _ s =>
      if s.val = 0 then .nan
      else ofUnits a (unitsOfRank r % unitsOfRank s) 1

/-- The number with these bits in the interchange format. -/
def ofBits (bits : UInt64) : Double :=
  let negative := bits ≥ 0x8000000000000000
  let magnitude := (bits &&& 0x7FFFFFFFFFFFFFFF).toNat
  if magnitude ≤ rankCount then ofRank negative magnitude else .nan

/-- The bits of a number in the interchange format. -/
def toBits : Double → UInt64
  | .nan => 0x7FF8000000000000
  | .infinity negative => signed negative rankCount
  | .finite negative rank => signed negative rank
where
  signed (negative : Bool) (magnitude : Nat) : UInt64 :=
    if negative then magnitude.toUInt64 ||| 0x8000000000000000 else magnitude.toUInt64

/-- The power of two numbers, as the machine computes it. -/
def pow (x y : Double) : Double :=
  ofBits (Float.pow (Float.ofBits x.toBits) (Float.ofBits y.toBits)).toBits

end Double

end ScriptFold
