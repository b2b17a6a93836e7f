import ScriptFold.Number.Basic
import ScriptFold.Number.Format
import ScriptFold.Text.Quoted

/-!
# Values

The values that are known while a script is folded.  Lists and tuples both behave
as arrays.  A function is known by its name in the host, and a sealed value has no
literal form and cannot be called.
-/

namespace ScriptFold

/-- A value known while folding. -/
inductive Value where
  | undefined
  | null
  | bool (b : Bool)
  | num (n : Num)
  | str (text : Text)
  | list (items : List Value)
  | tuple (items : List Value)
  | record (entries : List (Value × Value))
  | function (name : String)
  | sealed
  deriving Inhabited

namespace Value

def int (n : Int) : Value := .num (.int n)

/-- A double. -/
def float (x : Double) : Value := .num (.float x)

def string (s : String) : Value := .str (.ofString s)

def isNullish : Value → Bool
  | .undefined | .null => true
  | _ => false

def isNumber : Value → Bool
  | .num _ => true
  | _ => false

def isUndefined : Value → Bool
  | .undefined => true
  | _ => false

/-- Whether a value is neither an aggregate nor a function. -/
def isPrimitive : Value → Bool
  | .undefined | .null | .bool _ | .num _ | .str _ => true
  | _ => false

/-- Whether a value counts as true in a condition. -/
def isTruthy : Value → Bool
  | .undefined | .null => false
  | .bool b => b
  | .num n => !n.isZero && !n.isNaN
  | .str text => !text.isEmpty
  | _ => true

/-- The types that scripts tell apart. -/
inductive ScriptType where
  | undefined | object | boolean | number | string | function
  deriving DecidableEq, Repr

def ScriptType.word : ScriptType → String
  | .undefined => "undefined"
  | .object => "object"
  | .boolean => "boolean"
  | .number => "number"
  | .string => "string"
  | .function => "function"

def typeOf : Value → ScriptType
  | .undefined => .undefined
  | .null => .object
  | .bool _ => .boolean
  | .num _ => .number
  | .str _ => .string
  | .list _ | .tuple _ | .record _ | .sealed => .object
  | .function _ => .function

def items? : Value → Option (List Value)
  | .list items | .tuple items => some items
  | _ => none

/-- The value of a string key. -/
def lookup (key : Text) (entries : List (Value × Value)) : Option Value :=
  (entries.find? fun entry =>
    match entry.1 with
    | .str text => text == key
    | _ => false).map Prod.snd

/-- The number that a key counts as; truth values count as one and zero. -/
def keyNumber? : Value → Option Num
  | .num n => some n
  | .bool b => some (.int (if b then 1 else 0))
  | _ => none

mutual

/-- Whether two keys are the same.  Numbers are the same by value, tuples by their items
and functions by name; a sealed value is the same as no other. -/
def sameKey : Value → Value → Bool
  | .str a, .str b => a == b
  | .tuple a, .tuple b => sameKeys a b
  | .function a, .function b => a == b
  | .null, .null => true
  | .undefined, .undefined => true
  | a, b =>
      match keyNumber? a, keyNumber? b with
      | some x, some y => x.equals y
      | _, _ => false

/-- Whether two tuples hold the same keys. -/
def sameKeys : List Value → List Value → Bool
  | [], [] => true
  | a :: restA, b :: restB => sameKey a b && sameKeys restA restB
  | _, _ => false

end

mutual

/-- Whether a value can be a key: lists and dictionaries cannot. -/
def isKey : Value → Bool
  | .list _ | .record _ => false
  | .tuple items => areKeys items
  | _ => true

/-- Whether all of some values can be keys. -/
def areKeys : List Value → Bool
  | [] => true
  | item :: rest => isKey item && areKeys rest

end

/-- Give a key a value: in its place if it is there, else at the end. -/
def insert (key value : Value) : List (Value × Value) → List (Value × Value)
  | [] => [(key, value)]
  | (k, v) :: rest =>
      if sameKey k key then (k, value) :: rest else (k, v) :: insert key value rest

/-- A dictionary of pairs, in which a later value of a key takes the place of the earlier one. -/
def recordOf (pairs : List (Value × Value)) : Value :=
  .record (pairs.foldl (fun entries pair => insert pair.1 pair.2 entries) [])

/-- A dictionary of pairs, all of whose keys must be values that can be keys. -/
def keyedBy (pairs : List (Value × Value)) : Except Fault Value :=
  if pairs.all fun pair => pair.1.isKey then .ok (recordOf pairs) else .error .badKey

mutual

def listing : Value → Except Fault String
  | .undefined => .ok "undefined"
  | .null => .ok "None"
  | .bool b => .ok (if b then "True" else "False")
  | .num n => n.listingText
  | .str text => .ok text.quoted
  | .list items => do return "[" ++ String.intercalate ", " (← listings items) ++ "]"
  | .tuple [item] => do return "(" ++ (← listing item) ++ ",)"
  | .tuple items => do return "(" ++ String.intercalate ", " (← listings items) ++ ")"
  | .record entries => do
      return "\x7b" ++ String.intercalate ", " (← entryListings entries) ++ "\x7d"
  | .function name => .ok ("<function " ++ name ++ ">")
  | .sealed => .ok "<object>"

def listings : List Value → Except Fault (List String)
  | [] => .ok []
  | item :: rest => do
      let first ← listing item
      return first :: (← listings rest)

def entryListings : List (Value × Value) → Except Fault (List String)
  | [] => .ok []
  | (key, value) :: rest => do
      let name ← listing key
      let content ← listing value
      return (name ++ ": " ++ content) :: (← entryListings rest)

end

mutual

/-- How many aggregates of a value lie inside each other. -/
def depth : Value → Nat
  | .list items | .tuple items => depthOfItems items + 1
  | .record entries => depthOfEntries entries + 1
  | .undefined | .null | .bool _ | .num _ | .str _ | .function _ | .sealed => 0

/-- The depth of the deepest of some values. -/
def depthOfItems : List Value → Nat
  | [] => 0
  | item :: rest => max (depth item) (depthOfItems rest)

/-- The depth of the deepest key or value of some entries. -/
def depthOfEntries : List (Value × Value) → Nat
  | [] => 0
  | (key, value) :: rest => max (max (depth key) (depth value)) (depthOfEntries rest)

end

/-- A value as a listing shows it, on a stack of some frames. -/
def listed (value : Value) (frames : Nat := Stack.limit) : Except Fault String :=
  Stack.within .stackExhausted frames value.depth value.listing

theorem depth_le_depthOfItems {item : Value} {items : List Value} (there : item ∈ items) :
    item.depth ≤ depthOfItems items := by
  induction items with
  | nil => cases there
  | cons first rest induction =>
      cases there with
      | head => exact Nat.le_max_left _ _
      | tail _ there => exact Nat.le_trans (induction there) (Nat.le_max_right _ _)

theorem depth_le_depthOfEntries {entry : Value × Value} {entries : List (Value × Value)}
    (there : entry ∈ entries) : entry.2.depth ≤ depthOfEntries entries := by
  induction entries with
  | nil => cases there
  | cons first rest induction =>
      rw [depthOfEntries]
      cases there with
      | head => omega
      | tail _ there =>
          have := induction there
          omega

end Value

end ScriptFold
