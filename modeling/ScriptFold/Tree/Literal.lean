import ScriptFold.Text.StringLiteral
import ScriptFold.Tree.Basic
import ScriptFold.Value.Coercion

/-!
# Literals

The node that writes a value, and the value that a node writes.  Functions and
sealed values have no node; a node that is not a literal all the way down has no
value.

Scripts are folded on a stack that is made higher for them, so there `ofValue?` and `value?`
stand alone.  `write?` and `read?` are the same calculations on a stack of some frames.
-/

namespace ScriptFold

namespace Literal

/-- A literal of one token. -/
def ofWord (type : LeafType) (text : Text) : Node :=
  .made .literal [.word type text]

/-- The expression that stands for undefined. -/
def voidZero : Node :=
  .made .unary [.word .op "void", ofWord .number "0"]

def keyText : Value → Except Fault Text
  | .str text => .ok text
  | key => key.toText

mutual

/-- The node that writes a value, if there is one. -/
def ofValue? : Value → Except Fault (Option Node)
  | .undefined => .ok (some voidZero)
  | .null => .ok (some (ofWord .nullWord "null"))
  | .bool true => .ok (some (ofWord .trueWord "true"))
  | .bool false => .ok (some (ofWord .falseWord "false"))
  | .num n => do return some (ofWord .number (← n.literalText))
  | .str text => .ok (some (ofWord .string (StringLiteral.encode text)))
  | .list items => do return (← ofItems? items).map (.made .array)
  | .tuple items => do return (← ofItems? items).map (.made .array)
  | .record entries => do return (← ofEntries? entries).map (.made .object)
  | .function _ => .ok none
  | .sealed => .ok none

/-- The nodes that write the items of an array. -/
def ofItems? : List Value → Except Fault (Option (List Node))
  | [] => .ok (some [])
  | item :: rest => do
      match ← ofValue? item with
      | none => return none
      | some node => return (← ofItems? rest).map (node :: ·)

/-- The properties that write the entries of a dictionary. -/
def ofEntries? : List (Value × Value) → Except Fault (Option (List Node))
  | [] => .ok (some [])
  | (key, value) :: rest => do
      match ← ofValue? value with
      | none => return none
      | some node =>
          let word := ofWord .string (StringLiteral.encode (← keyText key))
          return (← ofEntries? rest).map (.made .property [word, node] :: ·)

end

mutual

/-- The frames that writing a value takes: one for each aggregate inside another, and what the
text of a key takes. -/
def writingFrames : Value → Nat
  | .list items | .tuple items => writingFramesOfItems items + 1
  | .record entries => writingFramesOfEntries entries + 1
  | .undefined | .null | .bool _ | .num _ | .str _ | .function _ | .sealed => 0

/-- The frames that the item takes that takes the most. -/
def writingFramesOfItems : List Value → Nat
  | [] => 0
  | item :: rest => max (writingFrames item) (writingFramesOfItems rest)

/-- The frames that the entry takes that takes the most. -/
def writingFramesOfEntries : List (Value × Value) → Nat
  | [] => 0
  | (key, value) :: rest =>
      max (max key.textFrames (writingFrames value)) (writingFramesOfEntries rest)

end

theorem writingFramesOfItems_le {items : List Value} {bound : Nat}
    (each : ∀ item, item ∈ items → writingFrames item ≤ bound) :
    writingFramesOfItems items ≤ bound := by
  induction items with
  | nil => exact Nat.zero_le bound
  | cons first rest induction =>
      rw [List.forall_mem_cons] at each
      exact Nat.max_le.mpr ⟨each.1, induction each.2⟩

theorem writingFramesOfEntries_le {entries : List (Value × Value)} {bound : Nat}
    (each : ∀ entry, entry ∈ entries →
      entry.1.textFrames ≤ bound ∧ writingFrames entry.2 ≤ bound) :
    writingFramesOfEntries entries ≤ bound := by
  induction entries with
  | nil => exact Nat.zero_le bound
  | cons first rest induction =>
      rw [List.forall_mem_cons] at each
      exact Nat.max_le.mpr ⟨Nat.max_le.mpr each.1, induction each.2⟩

/-- The node that writes a value, if there is one, on a stack of some frames. -/
def write? (value : Value) (frames : Nat := Stack.limit) : Except Fault (Option Node) :=
  Stack.within .stackExhausted frames (writingFrames value) (ofValue? value)

def token? : Node → Option Leaf
  | .tree .literal _ _ (⟨_, .leaf token⟩ :: _) => some token
  | _ => none

def tokenValue? (token : Leaf) : Except Fault (Option Value) :=
  match token.type with
  | .number => do return some (.num (← Numeral.literal token.text))
  | .string => do return some (.str (← StringLiteral.decode token.text))
  | .trueWord => .ok (some (.bool true))
  | .falseWord => .ok (some (.bool false))
  | .nullWord => .ok (some .null)
  | _ => .ok none

/-- The property name that a known key writes. -/
def keyName? : Option Value → Except Fault (Option Text)
  | some key => key.propertyKey
  | none => .ok none

mutual

/-- The value that a node writes, if it is a literal all the way down. -/
def value? : Node → Except Fault (Option Value)
  | .tree .literal _ _ (⟨_, .leaf token⟩ :: _) => tokenValue? token
  | .tree .paren _ _ (⟨_, inner⟩ :: _) => value? inner
  | .tree .exprStmt _ _ (⟨_, inner⟩ :: _) => value? inner
  | .tree .paren _ _ [] => .error .missingItem
  | .tree .exprStmt _ _ [] => .error .missingItem
  | .tree .unary _ _ [⟨_, op⟩, ⟨_, operand⟩] => do
      if op.leafText?.any fun text => text.isString "void" then
        return (← value? operand).map fun _ => .undefined
      return none
  | .tree .unary _ _ _ => .error .malformed
  | .tree .template _ _ [⟨_, piece⟩] => do
      return some (.str (← StringLiteral.unescape piece.description))
  | .tree .array _ _ elements => do return (← values? elements).map .list
  | .tree .object _ _ members => do return (← entries? [] members).map .record
  | _ => .ok none

/-- The values that the elements of an array write. -/
def values? : List (Child Node) → Except Fault (Option (List Value))
  | [] => .ok (some [])
  | ⟨_, node⟩ :: rest => do
      match ← value? node with
      | none => return none
      | some value => return (← values? rest).map (value :: ·)

/-- The entries that the members of an object write, after earlier ones. -/
def entries? (earlier : List (Value × Value)) :
    List (Child Node) → Except Fault (Option (List (Value × Value)))
  | [] => .ok (some earlier)
  | ⟨_, .tree .property _ _ [⟨_, .leaf token⟩, ⟨_, value⟩]⟩ :: rest => do
      if token.type ≠ .name then return none
      match ← value? value with
      | none => return none
      | some known => entries? (Value.insert (.str token.text) known earlier) rest
  | ⟨_, .tree .property _ _ [⟨_, .tree .computedKey _ _ (⟨_, key⟩ :: _)⟩, ⟨_, value⟩]⟩ :: rest => do
      match ← keyName? (← value? key) with
      | none => return none
      | some name =>
          match ← value? value with
          | none => return none
          | some known => entries? (Value.insert (.str name) known earlier) rest
  | ⟨_, .tree .property _ _ [⟨_, .tree .computedKey _ _ []⟩, _]⟩ :: _ => .error .missingItem
  | ⟨_, .tree .property _ _ [⟨_, key⟩, ⟨_, value⟩]⟩ :: rest => do
      match ← keyName? (← value? key) with
      | none => return none
      | some name =>
          match ← value? value with
          | none => return none
          | some known => entries? (Value.insert (.str name) known earlier) rest
  | ⟨_, .tree .property _ _ _⟩ :: _ => .error .malformed
  | _ :: _ => .ok none

end

/-- The value that a node writes, if any, on a stack of some frames: one for each level. -/
def read? (node : Node) (frames : Nat := Stack.limit) : Except Fault (Option Value) :=
  Stack.within .stackExhausted frames node.height (value? node)

/-- Whether a node is a literal all the way down. -/
def isConstant (node : Node) : Except Fault Bool := do
  return (← value? node).isSome

/-- Whether a node is a literal of one token that has a value. -/
def isPrimitive (node : Node) : Except Fault Bool := do
  match token? node with
  | some token => return (← tokenValue? token).isSome
  | none => return false

theorem isPrimitive_ok {node : Node} {value : Option Value} (known : value? node = .ok value) :
    ∃ found, isPrimitive node = .ok found := by
  unfold isPrimitive token?
  split
  case h_1 token isToken =>
    split at isToken
    case h_1 =>
      cases isToken
      rw [value?] at known
      rw [known]
      exact ⟨value.isSome, rfl⟩
    case h_2 => cases isToken
  case h_2 => exact ⟨false, rfl⟩

end Literal

/-! ### What literals are made of -/

/-- A property that is kept when literals are put together. -/
structure MakesLiterals (holds : Node → Prop) : Prop where
  word : ∀ type text, holds (Literal.ofWord type text)
  undefined : holds Literal.voidZero
  array : ∀ nodes, (∀ node, node ∈ nodes → holds node) → holds (.made .array nodes)
  object : ∀ members, (∀ member, member ∈ members → ∃ key value,
    member = .made .property [Literal.ofWord .string key, value] ∧ holds value) →
      holds (.made .object members)

/-- The literal of a value has every property that literals are made with. -/
theorem MakesLiterals.ofValue? {holds : Node → Prop} (makes : MakesLiterals holds)
    {value : Value} {node : Node} (written : Literal.ofValue? value = .ok (some node)) :
    holds node := by
  revert node
  refine Literal.ofValue?.induct
    (fun value => ∀ {node}, Literal.ofValue? value = .ok (some node) → holds node)
    (fun entries => ∀ {nodes}, Literal.ofEntries? entries = .ok (some nodes) →
      ∀ member, member ∈ nodes → ∃ key value,
        member = .made .property [Literal.ofWord .string key, value] ∧ holds value)
    (fun items => ∀ {nodes}, Literal.ofItems? items = .ok (some nodes) →
      ∀ node, node ∈ nodes → holds node)
    ?undefined ?null ?isTrue ?isFalse ?num ?str ?list ?tuple ?record ?function ?sealed
    ?noItems ?item ?noEntries ?entry value
  case undefined =>
    intro node written
    cases written
    exact makes.undefined
  case null | isTrue | isFalse | str =>
    intros
    rename_i written
    cases written
    exact makes.word _ _
  case num =>
    intro n node written
    rw [Literal.ofValue?] at written
    obtain ⟨text, _, written⟩ := Calculation.of_bind_eq_ok written
    cases written
    exact makes.word _ _
  case list | tuple =>
    intro items induction node written
    rw [Literal.ofValue?] at written
    obtain ⟨nodes, areNodes, written⟩ := Calculation.of_bind_eq_ok written
    cases nodes <;> cases written
    exact makes.array _ (induction areNodes)
  case record =>
    intro entries induction node written
    rw [Literal.ofValue?] at written
    obtain ⟨nodes, areNodes, written⟩ := Calculation.of_bind_eq_ok written
    cases nodes <;> cases written
    exact makes.object _ (induction areNodes)
  case function | sealed => intros; rename_i written; cases written
  case noItems | noEntries =>
    intro nodes written node there
    cases written
    cases there
  case item =>
    intro item rest itemIs restAre nodes written
    rw [Literal.ofItems?] at written
    obtain ⟨first, isFirst, written⟩ := Calculation.of_bind_eq_ok written
    cases first with
    | none => cases written
    | some first =>
        obtain ⟨others, areOthers, written⟩ := Calculation.of_bind_eq_ok written
        cases others <;> cases written
        exact List.forall_mem_cons.mpr ⟨itemIs isFirst, restAre areOthers⟩
  case entry =>
    intro key value rest valueIs restAre nodes written
    rw [Literal.ofEntries?] at written
    obtain ⟨first, isFirst, written⟩ := Calculation.of_bind_eq_ok written
    cases first with
    | none => cases written
    | some first =>
        obtain ⟨text, _, written⟩ := Calculation.of_bind_eq_ok written
        obtain ⟨others, areOthers, written⟩ := Calculation.of_bind_eq_ok written
        cases others <;> cases written
        exact List.forall_mem_cons.mpr ⟨⟨_, _, rfl, valueIs isFirst⟩, restAre areOthers⟩

end ScriptFold
