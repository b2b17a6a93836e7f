import ScriptFold.Value.Coercion

/-!
# Properties

Reading a property of a known value.  A name that every object, string or array
inherits is never unknown, but its value is not known either.
-/

namespace ScriptFold

namespace Property

def ofObjects : List String := [
  "constructor", "hasOwnProperty", "isPrototypeOf", "propertyIsEnumerable", "toLocaleString",
  "toString", "valueOf", "__proto__"]

def ofStrings : List String := ofObjects ++ [
  "at", "charAt", "charCodeAt", "codePointAt", "concat", "endsWith", "includes", "indexOf",
  "lastIndexOf", "localeCompare", "match", "matchAll", "normalize", "padEnd", "padStart",
  "repeat", "replace", "replaceAll", "search", "slice", "split", "startsWith", "substr",
  "substring", "toLocaleLowerCase", "toLocaleUpperCase", "toLowerCase", "toUpperCase", "trim",
  "trimEnd", "trimStart", "isWellFormed", "toWellFormed"]

def ofArrays : List String := ofObjects ++ [
  "at", "concat", "copyWithin", "entries", "every", "fill", "filter", "find", "findIndex",
  "findLast", "findLastIndex", "flat", "flatMap", "forEach", "includes", "indexOf", "join",
  "keys", "lastIndexOf", "map", "pop", "push", "reduce", "reduceRight", "reverse", "shift",
  "slice", "some", "sort", "splice", "toReversed", "toSorted", "toSpliced", "unshift", "values",
  "with"]

inductive Reading where
  /-- The value of the property. -/
  | found (value : Value)
  /-- The property may exist, and its value is not known. -/
  | unknownValue
  /-- There is no such property. -/
  | missing

/-- The number that a text of digits writes. -/
def digitsValue (name : Text) : Except Fault Nat := do
  return (← Numeral.require (Numeral.integer? 10 name)).toNat

/-- The index that a name is, if it is written as an index is. -/
def index? (name : Text) : Except Fault (Option Nat) := do
  if !Numeral.isDigits name then return none
  let n ← digitsValue name
  return if name.isString (digitsOf n) then some n else none

/-- A property that is not an own one: inherited or missing. -/
def inherited (names : List String) (name : Text) : Reading :=
  if name.isOneOf names then .unknownValue else .missing

def ofItems (names : List String) (items : List Value) (name : Text) : Except Fault Reading := do
  if name.isString "length" then return .found (.int items.length)
  match ← index? name with
  | some index =>
      return match items[index]? with
        | some item => .found item
        | none => .missing
  | none => return inherited names name

/-- The property of a value. -/
def read (receiver : Value) (name : Text) : Except Fault Reading :=
  match receiver with
  | .record entries =>
      match Value.lookup name entries with
      | some value => .ok (.found value)
      | none => .ok (inherited ofObjects name)
  | .str text => ofItems ofStrings (text.map fun point => .str [point]) name
  | .list items | .tuple items => ofItems ofArrays items name
  | _ => .ok .unknownValue

/-- Whether a container has a property of this key, if that can be told. -/
def contains? (key container : Value) : Except Fault (Option Bool) := do
  match ← key.propertyKey with
  | none => return none
  | some name =>
      match container with
      | .record entries => return some (Value.lookup name entries).isSome
      | .list items | .tuple items =>
          if name.isString "length" then return some true
          if !Numeral.isDigits name then return some false
          return some ((← digitsValue name) < items.length)
      | _ => return none

end Property

end ScriptFold
