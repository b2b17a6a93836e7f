import ScriptFold.Text.Case
import ScriptFold.Value.Coercion

/-!
# Methods of known values

The methods of strings, arrays, numbers and dictionaries that fold when the
receiver and the arguments are known.  A method may decline its arguments.
-/

namespace ScriptFold

/-- Why a method does not fold. -/
inductive Decline where
  | argumentNotPrimitive
  | negativeRepeat
  | notPlainReplacement
  | placesOutOfRange
  | notIntegralRadix
  deriving DecidableEq, Repr

/-- The wording of a reason. -/
def Decline.message : Decline → String
  | .argumentNotPrimitive => "expected a primitive argument"
  | .negativeRepeat => "repeat count must be non-negative"
  | .notPlainReplacement => "only plain string replacement folds"
  | .placesOutOfRange => "toFixed digits out of range"
  | .notIntegralRadix => "only integral radix conversion folds"

/-- How a method call ends without a value. -/
inductive MethodStop where
  | declined (reason : Decline)
  | fault (fault : Fault)
  deriving DecidableEq, Repr

namespace Method

abbrev Result := Except MethodStop

def calculate {α : Type} (result : Except Fault α) : Result α :=
  result.mapError .fault

/-- The integer of an argument, or a default if it is left out or undefined. -/
def intArgument (args : List Value) (index : Nat) (default : Int) : Result Int :=
  match args[index]? with
  | none | some .undefined => .ok default
  | some value => do
      match ← calculate value.toNumber with
      | .float (.infinity negative) =>
          return if negative then -Num.greatestSafe else Num.greatestSafe
      | number => return number.truncate?.getD 0

/-- The text of a primitive argument, or a default if it is left out. -/
def textArgument (args : List Value) (index : Nat) (default : Text) : Result Text :=
  match args[index]? with
  | none => .ok default
  | some value =>
      if value.isPrimitive then calculate value.toText
      else .error (.declined .argumentNotPrimitive)

/-- The text that a search looks for. -/
def needle (args : List Value) : Result Text :=
  textArgument args 0 "undefined"

/-- An index into `length` items; a negative one counts from the end. -/
def relative (index : Int) (length : Nat) : Nat :=
  if index < 0 then ((length : Int) + index).toNat else min index.toNat length

/-- An index into `length` items, moved to the nearer end if it lies outside. -/
def clamp (index : Int) (length : Nat) : Nat :=
  min index.toNat length

/-- The longest text that repetition builds here: 2^28.  Folding sets no such limit, it is the
memory of the machine that does; every longer text is taken not to fit in it. -/
def greatestLength : Nat := 0x10000000

/-- A text is never asked to be this long: 2^63. -/
def lengthLimit : Nat := 0x8000000000000000

def repeated (text : Text) (count : Nat) : Except Fault Text :=
  if lengthLimit ≤ max text.length 1 * count then .error .tooLarge
  else if text.isEmpty then .ok []
  else if greatestLength < text.length * count then .error .tooLong
  else .ok (List.replicate count text).flatten

/-- An index as a value, `-1` if there is none. -/
def indexValue (index : Option Nat) : Value :=
  match index with
  | some n => .int n
  | none => .int (-1)

abbrev StringMethod := Text → List Value → Result Value

/-- A method that only looks at its receiver. -/
def plain (f : Text → Text) : StringMethod := fun receiver _ => .ok (.str (f receiver))

/-- Whether the receiver contains a text, searched from a position on. -/
def stringIncludes : StringMethod := fun receiver args => do
  let part ← needle args
  let start ← intArgument args 1 0
  let rest := receiver.drop (relative start receiver.length)
  return .bool (Text.indexOf? part rest 0).isSome

/-- Whether a text stands at a position. -/
def stringStartsWith : StringMethod := fun receiver args => do
  let part ← needle args
  let start ← intArgument args 1 0
  return .bool (Text.startsWith (receiver.drop (relative start receiver.length)) part)

def stringEndsWith : StringMethod := fun receiver args => do
  let stop ← intArgument args 1 receiver.length
  let part ← needle args
  return .bool (Text.endsWith (receiver.take (relative stop receiver.length)) part)

/-- The first position of a text, searched from a position on. -/
def stringIndexOf : StringMethod := fun receiver args => do
  let part ← needle args
  let start ← intArgument args 1 0
  let offset := start.toNat
  if receiver.length < offset then return indexValue none
  return indexValue (Text.indexOf? part (receiver.drop offset) offset)

def stringLastIndexOf : StringMethod := fun receiver args => do
  return indexValue (Text.lastIndexOf? (← needle args) receiver 0)

/-- The part between two positions, of which negative ones count from the end. -/
def stringSlice : StringMethod := fun receiver args => do
  let start ← intArgument args 0 0
  let stop ← intArgument args 1 receiver.length
  return .str (receiver.slice (relative start receiver.length) (relative stop receiver.length))

/-- The part between two positions in either order. -/
def stringSubstring : StringMethod := fun receiver args => do
  let first := clamp (← intArgument args 0 0) receiver.length
  let second := clamp (← intArgument args 1 receiver.length) receiver.length
  return .str (receiver.slice (min first second) (max first second))

/-- The item at an index that does not count from the end. -/
def itemAt? {α : Type} (items : List α) (index : Int) : Option α :=
  if index < 0 then none else items[index.toNat]?

/-- The item at an index that may count from the end. -/
def itemFrom? {α : Type} (items : List α) (index : Int) : Option α :=
  itemAt? items (if index < 0 then index + items.length else index)

/-- The character at an index, empty if there is none. -/
def stringCharAt : StringMethod := fun receiver args => do
  return match itemAt? receiver (← intArgument args 0 0) with
    | some point => .str [point]
    | none => .str []

def stringCharCodeAt : StringMethod := fun receiver args => do
  return match itemAt? receiver (← intArgument args 0 0) with
    | some point => .int point.toNat
    | none => .num Num.nan

/-- The character at an index that may count from the end. -/
def stringAt : StringMethod := fun receiver args => do
  return match itemFrom? receiver (← intArgument args 0 0) with
    | some point => .str [point]
    | none => .undefined

def stringRepeat : StringMethod := fun receiver args => do
  let count ← intArgument args 0 0
  if count < 0 then throw (.declined .negativeRepeat)
  return .str (← calculate (repeated receiver count.toNat))

/-- What is missing to a width, cut from a repeated filler. -/
def padding (receiver : Text) (args : List Value) : Result Text := do
  let target ← intArgument args 0 0
  let filler ← textArgument args 1 " "
  let missing := target - receiver.length
  if missing ≤ 0 ∨ filler.isEmpty then return []
  let full ← calculate (repeated filler (missing.toNat / filler.length + 1))
  return full.take missing.toNat

/-- The receiver filled up at the front. -/
def stringPadStart : StringMethod := fun receiver args => do
  return .str ((← padding receiver args) ++ receiver)

/-- The receiver filled up at the end. -/
def stringPadEnd : StringMethod := fun receiver args => do
  return .str (receiver ++ (← padding receiver args))

/-- The receiver followed by the texts of the arguments. -/
def stringConcat : StringMethod := fun receiver args => do
  let texts ← calculate (args.mapM Value.toText)
  return .str (receiver ++ texts.flatten)

/-- The pieces of a text between the occurrences of a separator that is not empty.
`skip` code points of the text belong to a separator already found. -/
def splitFrom (separator : Text) : (skip : Nat) → Text → List Text
  | _, [] => [[]]
  | skip + 1, _ :: rest => splitFrom separator skip rest
  | 0, point :: rest =>
      if separator.isPrefixOf (point :: rest) then
        [] :: splitFrom separator (separator.length - 1) rest
      else
        match splitFrom separator 0 rest with
        | piece :: pieces => (point :: piece) :: pieces
        | [] => [[point]]

/-- The pieces of a text; an empty separator divides it into its code points. -/
def pieces (separator text : Text) : List Text :=
  if separator.isEmpty then text.map fun point => [point] else splitFrom separator 0 text

/-- The receiver divided at a separator, cut to a number of pieces. -/
def stringSplit : StringMethod := fun receiver args => do
  match args with
  | [] | .undefined :: _ => return .list [.str receiver]
  | _ =>
      let parts := pieces (← needle args) receiver
      let parts ←
        match args[1]? with
        | none | some .undefined => pure parts
        | some _ => pure (parts.take (← intArgument args 1 0).toNat)
      return .list (parts.map .str)

/-- The pattern and the replacement of a plain replacement. -/
def replacement (args : List Value) : Result (Text × Text) :=
  match args with
  | .str pattern :: .str new :: _ =>
      if new.any (·.is '$') then .error (.declined .notPlainReplacement) else .ok (pattern, new)
  | _ => .error (.declined .notPlainReplacement)

/-- The text with the first occurrence of a pattern replaced. -/
def replaceFirst (pattern new text : Text) : Text :=
  match Text.indexOf? pattern text 0 with
  | some index => text.take index ++ new ++ text.drop (index + pattern.length)
  | none => text

/-- The text with all occurrences of a pattern replaced; an empty pattern occurs
before every code point and at the end. -/
def replaceEvery (pattern new text : Text) : Text :=
  if pattern.isEmpty then new ++ text.flatMap fun point => point :: new
  else Text.join new (splitFrom pattern 0 text)

/-- The receiver with the first occurrence of a pattern replaced. -/
def stringReplace : StringMethod := fun receiver args => do
  let (pattern, new) ← replacement args
  return .str (replaceFirst pattern new receiver)

/-- The receiver with all occurrences of a pattern replaced. -/
def stringReplaceAll : StringMethod := fun receiver args => do
  let (pattern, new) ← replacement args
  return .str (replaceEvery pattern new receiver)

def ofStrings : List (String × StringMethod) := [
  ("toUpperCase", plain Text.toUpper),
  ("toLowerCase", plain Text.toLower),
  ("trim", plain (Text.trim CodePoint.isBlank)),
  ("trimStart", plain (Text.trimStart CodePoint.isBlank)),
  ("trimEnd", plain (Text.trimEnd CodePoint.isBlank)),
  ("includes", stringIncludes),
  ("startsWith", stringStartsWith),
  ("endsWith", stringEndsWith),
  ("indexOf", stringIndexOf),
  ("lastIndexOf", stringLastIndexOf),
  ("slice", stringSlice),
  ("substring", stringSubstring),
  ("charAt", stringCharAt),
  ("charCodeAt", stringCharCodeAt),
  ("at", stringAt),
  ("repeat", stringRepeat),
  ("padStart", stringPadStart),
  ("padEnd", stringPadEnd),
  ("concat", stringConcat),
  ("split", stringSplit),
  ("replace", stringReplace),
  ("replaceAll", stringReplaceAll),
  ("toString", plain id)]

abbrev ArrayMethod := List Value → List Value → Result Value

/-- The value that a search looks for. -/
def sought (args : List Value) : Value :=
  args.headD .undefined

/-- The items joined to a text; null and undefined have an empty text. -/
def arrayJoin : ArrayMethod := fun items args => do
  let separator ←
    match args with
    | [] | .undefined :: _ => pure (Text.ofString ",")
    | _ => needle args
  return .str (Text.join separator (← calculate (Value.toTexts items)))

def arrayIndexOf : ArrayMethod := fun items args =>
  .ok (indexValue (items.findIdx? fun item => Value.strictEquals item (sought args)))

def arrayLastIndexOf : ArrayMethod := fun items args =>
  let fromEnd := items.reverse.findIdx? fun item => Value.strictEquals item (sought args)
  .ok (indexValue (fromEnd.map fun index => items.length - 1 - index))

/-- Whether two values are both `nan`, told from their doubles. -/
def bothNaN : Value → Value → Except Fault Bool
  | .num a, .num b => do
      if (← a.toDouble).isNaN then return (← b.toDouble).isNaN
      return false
  | _, _ => .ok false

/-- Whether a value is among some items; `nan` is found here. -/
def isAmong (value : Value) : List Value → Except Fault Bool
  | [] => .ok false
  | item :: rest => do
      if Value.strictEquals item value then return true
      if ← bothNaN item value then return true
      isAmong value rest

/-- Whether a value is an item. -/
def arrayIncludes : ArrayMethod := fun items args => do
  return .bool (← calculate (isAmong (sought args) items))

/-- The items between two positions, of which negative ones count from the end. -/
def arraySlice : ArrayMethod := fun items args => do
  let start ← intArgument args 0 0
  let stop ← intArgument args 1 items.length
  return .list ((items.take (relative stop items.length)).drop (relative start items.length))

/-- The items followed by the arguments; arrays among them are spread. -/
def arrayConcat : ArrayMethod := fun items args =>
  .ok (.list (items ++ args.flatMap fun arg => arg.items?.getD [arg]))

/-- The item at an index that may count from the end. -/
def arrayAt : ArrayMethod := fun items args => do
  return (itemFrom? items (← intArgument args 0 0)).getD .undefined

/-- The items joined with commas. -/
def arrayToString : ArrayMethod := fun items _ => do
  return .str (← calculate (Value.list items).toText)

def ofArrays : List (String × ArrayMethod) := [
  ("join", arrayJoin),
  ("indexOf", arrayIndexOf),
  ("lastIndexOf", arrayLastIndexOf),
  ("includes", arrayIncludes),
  ("slice", arraySlice),
  ("concat", arrayConcat),
  ("at", arrayAt),
  ("toString", arrayToString)]

abbrev NumberMethod := Num → List Value → Result Value

/-- The number with a fixed number of places; from 10^21 on as it is written otherwise. -/
def numberToFixed : NumberMethod := fun number args => do
  let places ← intArgument args 0 0
  if places < 0 ∨ 100 < places then throw (.declined .placesOutOfRange)
  let double ← calculate number.toDouble
  let magnitude : Num :=
    match number with
    | .int n => .int n.natAbs
    | .float x => .float x.abs
  let isLarge := (magnitude.order? (.int Num.plainLimit)).any (· != .lt)
  match double with
  | .finite negative rank =>
      if isLarge then return .string (← calculate number.scriptText)
      return .string (Double.fixedText places.toNat negative rank)
  | _ => return .string (← calculate number.scriptText)

/-- The digits of a numeral in a base, least significant first. -/
def digitsInBase (base : Nat) : (fuel n : Nat) → List Nat
  | 0, _ => []
  | fuel + 1, n => if n = 0 then [] else n % base :: digitsInBase base fuel (n / base)

def digitChar (digit : Nat) : Char :=
  if digit < 10 then Char.ofNat ('0'.toNat + digit) else Char.ofNat ('a'.toNat + (digit - 10))

def radixText (base : Nat) (n : Int) : String :=
  let digits := (digitsInBase base (n.natAbs.log2 + 1) n.natAbs).reverse.map digitChar
  if n = 0 then "0" else (if n < 0 then "-" else "") ++ String.ofList digits

/-- The text of a number; in a base other than ten only of an integer. -/
def numberToString : NumberMethod := fun number args => do
  let radix ← intArgument args 0 10
  if radix = 10 then
    return .string (← calculate number.scriptText)
  if radix < 2 ∨ 36 < radix then throw (.declined .notIntegralRadix)
  let double ← calculate number.toDouble
  match double.toInt?, number.truncate? with
  | some _, some n => return .string (radixText radix.toNat n)
  | _, _ => throw (.declined .notIntegralRadix)

def ofNumbers : List (String × NumberMethod) := [
  ("toFixed", numberToFixed),
  ("toString", numberToString)]

def dictHasOwn (entries : List (Value × Value)) (args : List Value) : Result Value := do
  return .bool (Value.lookup (← needle args) entries).isSome

/-- The method of a value, as a function of its arguments. -/
def find? (receiver : Value) (name : Text) : Option (List Value → Result Value) :=
  match receiver with
  | .str text => (pick ofStrings).map fun method => method text
  | .list items | .tuple items => (pick ofArrays).map fun method => method items
  | .num number => (pick ofNumbers).map fun method => method number
  | .record entries =>
      if name.isString "hasOwnProperty" then some (dictHasOwn entries) else none
  | _ => none
where
  pick {α : Type} (methods : List (String × α)) : Option α :=
    (methods.find? fun entry => name.isString entry.1).map Prod.snd

end Method

end ScriptFold
