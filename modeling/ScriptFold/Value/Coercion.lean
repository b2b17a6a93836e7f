import ScriptFold.Number.Numeral
import ScriptFold.Value.Basic

/-!
# Coercions and comparisons

How values stand for numbers and texts, and when they count as equal.  Arrays and
dictionaries have an identity of their own, so no two of them are the same; only
the empty tuple is one and the same everywhere.
-/

namespace ScriptFold

namespace Value

mutual

def toText : Value → Except Fault Text
  | .undefined => .ok "undefined"
  | .null => .ok "null"
  | .bool b => .ok (if b then "true" else "false" : String)
  | .num n => n.scriptText.map Text.ofString
  | .str text => .ok text
  | .list items => do return Text.join "," (← toTexts items)
  | .tuple items => do return Text.join "," (← toTexts items)
  | .function _ => .ok "function () \x7b [native code] \x7d"
  | .record _ => .ok "[object Object]"
  | .sealed => .ok "[object Object]"

/-- The texts of the items of an array; null and undefined have an empty one. -/
def toTexts : List Value → Except Fault (List Text)
  | [] => .ok []
  | .undefined :: rest => do return [] :: (← toTexts rest)
  | .null :: rest => do return [] :: (← toTexts rest)
  | item :: rest => do
      let first ← toText item
      return first :: (← toTexts rest)

end

mutual

/-- The frames that the text of a value takes.  Each array takes a call, the joining of the
texts of its items and the loop over them. -/
def textFrames : Value → Nat
  | .list items | .tuple items => textFramesOfAll items + 3
  | .undefined | .null | .bool _ | .num _ | .str _ | .record _ | .function _ | .sealed => 0

/-- The frames that the text of the item takes that takes the most. -/
def textFramesOfAll : List Value → Nat
  | [] => 0
  | item :: rest => max (textFrames item) (textFramesOfAll rest)

end

def toNumber (value : Value) : Except Fault Num :=
  match value with
  | .undefined => .ok Num.nan
  | .null => .ok (.int 0)
  | .bool b => .ok (.int (if b then 1 else 0))
  | .num n => .ok n
  | .str text => Numeral.ofString text
  | .list _ | .tuple _ => do Numeral.ofString (← toText value)
  | .record _ | .function _ | .sealed => .ok Num.nan

/-- Aggregates stand for their texts; other values for themselves. -/
def toPrimitive (value : Value) : Except Fault Value :=
  match value with
  | .list _ | .tuple _ | .record _ => (toText value).map .str
  | value => .ok value

/-- The residue of an integer in the signed 32-bit range. -/
def wrap32 (n : Int) : Int :=
  Int.bmod n 0x100000000

/-- The signed 32-bit integer of a value; `nan` and infinities count as zero. -/
def toInt32 (value : Value) : Except Fault Int := do
  let number ← toNumber value
  return wrap32 (number.truncate?.getD 0)

/-- The unsigned 32-bit integer of a value. -/
def toUInt32 (value : Value) : Except Fault Nat := do
  return ((← toInt32 value) % 0x100000000).toNat

/-- The property name that a primitive subscript reads. -/
def propertyKey (value : Value) : Except Fault (Option Text) :=
  if value.isPrimitive then (toText value).map some else .ok none

def strictEquals : Value → Value → Bool
  | .num a, .num b => a.equals b
  | .bool a, .bool b => a == b
  | .str a, .str b => a == b
  | .null, .null => true
  | .undefined, .undefined => true
  | .tuple [], .tuple [] => true
  | .function a, .function b => a == b
  | _, _ => false

/-- A primitive that meets a value of another type: truth values count as numbers
and aggregates as texts. -/
def toComparable (value : Value) : Except Fault Value :=
  match value with
  | .bool b => .ok (.int (if b then 1 else 0))
  | value => toPrimitive value

def looseEquals (a b : Value) : Except Fault Bool :=
  if a.isNullish || b.isNullish then .ok (a.isNullish && b.isNullish)
  else if a.typeOf = b.typeOf then .ok (strictEquals a b)
  else do
    match ← toComparable a, ← toComparable b with
    | .num x, .num y => return x.equals y
    | .str s, .str t => return s == t
    | .num x, .str t => return x.equals (← Numeral.ofString t)
    | .str s, .num y => return (← Numeral.ofString s).equals y
    | _, _ => return false

/-- The frames that a comparison of two values takes: only values of different types are
compared by their texts. -/
def comparisonFrames (a b : Value) : Nat :=
  if a.isNullish || b.isNullish || decide (a.typeOf = b.typeOf) then 0
  else max a.textFrames b.textFrames

/-- Equality with coercion, on a stack of some frames. -/
def looseEqualsWithin (frames : Nat) (a b : Value) : Except Fault Bool :=
  Stack.within .stackExhausted frames (comparisonFrames a b) (looseEquals a b)

inductive Relation where
  | less | atMost | greater | atLeast
  deriving DecidableEq, Repr

def Relation.holds : Relation → Ordering → Bool
  | .less, order => order == .lt
  | .atMost, order => order != .gt
  | .greater, order => order == .gt
  | .atLeast, order => order != .lt

/-- The order of two lists of units. -/
def orderUnits : List Nat → List Nat → Ordering
  | [], [] => .eq
  | [], _ :: _ => .lt
  | _ :: _, [] => .gt
  | a :: as, b :: bs => (compare a b).then (orderUnits as bs)

/-- The 16-bit units of a text. -/
def unitsOf (text : Text) : Except Fault (List Nat) :=
  match text.units16? with
  | some units => .ok units
  | none => .error .loneHalf

/-- Relational comparison: two strings by their 16-bit units, all else by number. -/
def compareBy (relation : Relation) (a b : Value) : Except Fault Bool := do
  match ← toPrimitive a, ← toPrimitive b with
  | .str s, .str t => return relation.holds (orderUnits (← unitsOf s) (← unitsOf t))
  | x, y =>
      let m ← toNumber x
      let n ← toNumber y
      return match m.order? n with
        | some order => relation.holds order
        | none => false

end Value

end ScriptFold
