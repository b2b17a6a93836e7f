import ScriptFold.Number.Double

/-!
# Shortest decimals

The decimal text of a finite double is built from the fewest significant digits
that read back as that double, and of those decimals from the nearest one.  The
reals that read back as a rank lie between the midpoints to its two neighbours;
the midpoints themselves belong to the even rank.
-/

namespace ScriptFold

/-- The decimal `0.d₁d₂…dₖ × 10^point`, with the digits as the numeral `digits`. -/
structure Decimal where
  digits : Nat
  point : Int
  deriving DecidableEq, Repr

/-- The number of decimal digits of a numeral. -/
def decimalWidth (n : Nat) : Nat :=
  (Nat.toDigits 10 n).length

/-- Multiply a fraction by a power of ten. -/
def scaleByTen (numerator denominator : Nat) (power : Int) : Nat × Nat :=
  if 0 ≤ power then (numerator * Nat.pow 10 power.toNat, denominator)
  else (numerator, denominator * Nat.pow 10 (-power).toNat)

/-- The greatest `k` with `10^k ≤ numerator / denominator`, for a positive fraction. -/
def decimalExponent (numerator denominator : Nat) : Int :=
  let low := ((numerator.log2 : Int) - denominator.log2 - 1) * 30103 / 100000 - 1
  let reaches (k : Int) : Bool :=
    let scaled := scaleByTen numerator denominator (-k)
    scaled.2 ≤ scaled.1
  if reaches (low + 3) then low + 3
  else if reaches (low + 2) then low + 2
  else if reaches (low + 1) then low + 1
  else low

namespace Double

/-- Whether `digits × 10^power` reads back as the magnitude of a positive rank. -/
def readsBack (rank digits : Nat) (power : Int) : Bool :=
  let scaled := scaleByTen (digits * (2 * unitsPerOne)) 1 power
  let low := (unitsOfRank (rank - 1) + unitsOfRank rank) * scaled.2
  let high := (unitsOfRank rank + unitsOfRank (rank + 1)) * scaled.2
  if rank % 2 = 0 then low ≤ scaled.1 && scaled.1 ≤ high
  else low < scaled.1 && scaled.1 < high

/-- The decimal of `count` significant digits that reads back as a positive rank, if there
is one. -/
def decimalOfWidth? (rank : Nat) (exponent : Int) (count : Nat) : Option Decimal :=
  let power := exponent - count + 1
  let scaled := scaleByTen (unitsOfRank rank) unitsPerOne (-power)
  let below := scaled.1 / scaled.2
  let twice := 2 * (scaled.1 % scaled.2)
  let nearer :=
    if twice < scaled.2 then [below, below + 1]
    else if scaled.2 < twice then [below + 1, below]
    else if below % 2 = 0 then [below, below + 1] else [below + 1, below]
  (nearer.find? fun digits => digits ≠ 0 && readsBack rank digits power).map fun digits =>
    ⟨digits, power + decimalWidth digits⟩

/-- The fewest digits, from `count` on, that read back as a positive rank. -/
def shortestFrom (rank : Nat) (exponent : Int) : (tries count : Nat) → Decimal
  | 0, count =>
      let power := exponent - count + 1
      let scaled := scaleByTen (unitsOfRank rank) unitsPerOne (-power)
      let digits := roundHalfEven scaled.1 scaled.2
      ⟨digits, power + decimalWidth digits⟩
  | tries + 1, count =>
      match decimalOfWidth? rank exponent count with
      | some decimal => decimal
      | none => shortestFrom rank exponent tries (count + 1)

/-- Drop the zeros at the end of a numeral. -/
def dropZeros : (fuel digits : Nat) → Nat
  | 0, digits => digits
  | fuel + 1, digits =>
      if digits ≠ 0 && digits % 10 = 0 then dropZeros fuel (digits / 10) else digits

/-- The shortest decimal of a positive rank. -/
def shortest (rank : Nat) : Decimal :=
  let exponent := decimalExponent (unitsOfRank rank) unitsPerOne
  let found := shortestFrom rank exponent 17 1
  ⟨dropZeros 20 found.digits, found.point⟩

end Double

end ScriptFold
