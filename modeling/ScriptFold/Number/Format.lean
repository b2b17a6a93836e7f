import ScriptFold.Number.Basic
import ScriptFold.Number.Numeral
import ScriptFold.Number.Shortest
import ScriptFold.Text.Basic

/-!
# Number texts

A decimal is written positionally while its point stays within bounds, and with
an exponent otherwise.  The bounds and the details are a `DecimalLayout`.
-/

namespace ScriptFold

structure DecimalLayout where
  /-- The least point that is written positionally. -/
  leastPoint : Int
  /-- The greatest point that is written positionally. -/
  greatestPoint : Int
  /-- What follows a positional decimal without a fraction. -/
  wholeEnding : String
  /-- The least number of digits of an exponent. -/
  exponentWidth : Nat

/-- The digits of a numeral in base ten. -/
def digitsOf (n : Nat) : String :=
  String.ofList (Nat.toDigits 10 n)

/-- The text of an integer in base ten. -/
def intText (n : Int) : String :=
  if n < 0 then "-" ++ digitsOf n.natAbs else digitsOf n.natAbs

/-- A text filled up with zeros in front. -/
def padZeros (width : Nat) (digits : String) : String :=
  String.ofList (List.replicate (width - digits.length) '0') ++ digits

def zeros (count : Int) : String :=
  String.ofList (List.replicate count.toNat '0')

namespace Decimal

def exponentText (layout : DecimalLayout) (exponent : Int) : String :=
  (if 0 ≤ exponent then "e+" else "e-")
    ++ padZeros layout.exponentWidth (digitsOf exponent.natAbs)

def text (layout : DecimalLayout) (decimal : Decimal) : String :=
  let digits := Nat.toDigits 10 decimal.digits
  let width := digits.length
  if layout.leastPoint ≤ decimal.point ∧ decimal.point ≤ layout.greatestPoint then
    if width ≤ decimal.point then
      String.ofList digits ++ zeros (decimal.point - width) ++ layout.wholeEnding
    else if 0 < decimal.point then
      String.ofList (digits.take decimal.point.toNat) ++ "."
        ++ String.ofList (digits.drop decimal.point.toNat)
    else
      "0." ++ zeros (-decimal.point) ++ String.ofList digits
  else
    let tail := String.ofList (digits.drop 1)
    String.ofList (digits.take 1) ++ (if tail.isEmpty then "" else "." ++ tail)
      ++ exponentText layout (decimal.point - 1)

end Decimal

/-- Scripts write up to twenty-one places positionally, and no fraction of a whole number. -/
def scriptLayout : DecimalLayout := ⟨-5, 21, "", 1⟩

/-- Whole numbers below this, 10^21, are written digit by digit in scripts. -/
def Num.plainLimit : Nat := 1000000000000000000000

/-- Listings write up to sixteen places positionally, and always a fraction. -/
def listingLayout : DecimalLayout := ⟨-3, 16, ".0", 2⟩

namespace Double

def scriptText : Double → String
  | .nan => "NaN"
  | .infinity negative => if negative then "-Infinity" else "Infinity"
  | .finite negative rank =>
      if rank.val = 0 then "0"
      else
        let magnitude := (shortest rank).text scriptLayout
        match (Double.finite false rank).toInt? with
        | some n =>
            let whole := if n < Num.plainLimit then intText n else magnitude
            if negative then "-" ++ whole else whole
        | none => if negative then "-" ++ magnitude else magnitude

/-- The text of a double in a listing, with the sign of zero. -/
def listingText : Double → String
  | .nan => "nan"
  | .infinity negative => if negative then "-inf" else "inf"
  | .finite negative rank =>
      let magnitude := if rank.val = 0 then "0.0" else (shortest rank).text listingLayout
      if negative then "-" ++ magnitude else magnitude

/-- A finite double with a fixed number of places, the exact value rounded half to even. -/
def fixedText (places : Nat) (negative : Bool) (rank : Nat) : String :=
  let scaled := roundHalfEven (unitsOfRank rank * Nat.pow 10 places) unitsPerOne
  let digits := padZeros (places + 1) (digitsOf scaled)
  let split := digits.length - places
  let whole := String.ofList (digits.toList.take split)
  let fraction := String.ofList (digits.toList.drop split)
  (if negative then "-" else "") ++ whole ++ (if places = 0 then "" else "." ++ fraction)

end Double

namespace Num

/-- The text of a number in a script; an integer beyond the doubles has none. -/
def scriptText : Num → Except Fault String
  | .float x => .ok x.scriptText
  | .int n =>
      if n.natAbs < plainLimit then .ok (intText n)
      else (toDouble (.int n)).map Double.scriptText

/-- The source text of a number literal, which keeps the sign of zero. -/
def literalText (value : Num) : Except Fault String :=
  match value with
  | .float x => if x.isZero && x.signBit then .ok "-0" else value.scriptText
  | .int _ => value.scriptText

/-- The text of a number in a listing.  An integer with more digits than a numeral may have
has none. -/
def listingText : Num → Except Fault String
  | .int n =>
      if (digitsOf n.natAbs).length ≤ Numeral.greatestDecimalWidth then .ok (intText n)
      else .error .tooManyDigits
  | .float x => .ok x.listingText

end Num

end ScriptFold
