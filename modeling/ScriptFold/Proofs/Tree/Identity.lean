import ScriptFold.Proofs.Reading.AsRead

/-!
# Objects and the seats of their children

A node keeps no identity: its place says by seats which children are still the ones that were
read.  Here every word and every tree has an identity of its own, and a tree that was read
records the identities of the children it had, so that a child may be moved, removed, put under
another tree or changed without losing sight of which one it is.  The seats follow from the
identities: a child takes the seat of the record that names it.  What the printer asks of seats
is then what it asks of identities, which `isClean_node` says for clean trees.
-/

namespace ScriptFold

/-- A child that a tree has recorded: which object it was and where it stood. -/
inductive Recorded where
  | absent
  | present (id : Nat) (start stop : Option Nat)
  deriving DecidableEq, Inhabited

/-- Where a tree was read and the children it had then. -/
structure Snapshot where
  source : Source
  span : Span
  recorded : List Recorded
  deriving DecidableEq, Inhabited

/-- A word or a tree with its identity, or the absence of one. -/
inductive Object where
  | absent
  | leaf (id : Nat) (token : Leaf)
  | tree (id : Nat) (kind : Kind) (flags : Flags) (origin : Option Snapshot)
      (children : List Object)
  deriving Inhabited

namespace Object

/-- The identity of an object, if there is one at all. -/
def identity? : Object → Option Nat
  | .absent => none
  | .leaf id _ => some id
  | .tree id _ _ _ _ => some id

def children : Object → List Object
  | .tree _ _ _ _ children => children
  | _ => []

end Object

namespace Recorded

def identity? : Recorded → Option Nat
  | .absent => none
  | .present id _ _ => some id

/-- Whether a recorded child is this object.  The absence of a child is one and the same. -/
def names (record : Recorded) (object : Object) : Bool :=
  record.identity? == object.identity?

/-- What a node keeps of a recorded child. -/
def former : Recorded → FormerChild
  | .absent => .absent
  | .present _ start stop => .present start stop

end Recorded

namespace Object

/-- The seat of a child among recorded ones: its own index if it is still there, and else the
index at which it stood. -/
def seat? (recorded : List Recorded) (index : Nat) (child : Object) : Option Nat :=
  if recorded[index]?.any (·.names child) then some index
  else recorded.findIdx? (·.names child)

mutual

/-- An object as a node, its children in the seats that are recorded for them. -/
def node : Object → Node
  | .absent => .absent
  | .leaf _ token => .leaf token
  | .tree _ kind flags none children => .tree kind flags none (seated [] 0 children)
  | .tree _ kind flags (some origin) children =>
      .tree kind flags (some ⟨origin.source, origin.span, origin.recorded.map Recorded.former⟩)
        (seated origin.recorded 0 children)

/-- Children in the seats that are recorded for them, counted from `index`. -/
def seated (recorded : List Recorded) (index : Nat) : List Object → List (Child Node)
  | [] => []
  | child :: rest =>
      ⟨child.seat? recorded index, child.node⟩ :: seated recorded (index + 1) rest

end

/-- The record of an object as it stands now. -/
def toRecorded (object : Object) : Recorded :=
  match object.identity? with
  | none => .absent
  | some id => .present id object.node.extent.1 object.node.extent.2

mutual

/-- Whether a tree still has the children it was read with, all the way down. -/
def isUntouched : Object → Bool
  | .absent => true
  | .leaf _ _ => true
  | .tree _ _ _ none _ => false
  | .tree _ _ _ (some origin) children =>
      origin.recorded.length == children.length && areUntouched origin.recorded children

/-- Whether children are the recorded ones, one by one, and untouched themselves. -/
def areUntouched : List Recorded → List Object → Bool
  | record :: recorded, child :: children =>
      record.names child && child.isUntouched && areUntouched recorded children
  | _, _ => true

end

section Seats

variable {recorded : List Recorded} {index : Nat} {child : Object}

/-- A child sits where a record names it. -/
theorem named_of_seat {seat : Nat} (sits : child.seat? recorded index = some seat) :
    recorded[seat]?.any (·.names child) = true := by
  unfold seat? at sits
  split at sits
  case isTrue named =>
    cases sits
    exact named
  case isFalse =>
    obtain ⟨inside, named, _⟩ := List.findIdx?_eq_some_iff_getElem.mp sits
    rwa [List.getElem?_eq_getElem inside, Option.any_some]

/-- A child has its own index for a seat only if the record at that index names it. -/
theorem seat?_eq_index :
    (child.seat? recorded index == some index) = recorded[index]?.any (·.names child) := by
  cases named : recorded[index]?.any (·.names child) with
  | true => rw [seat?, if_pos named, beq_self_eq_true]
  | false =>
      rw [beq_eq_false_iff_ne]
      intro sits
      rw [named_of_seat sits] at named
      cases named

private theorem node_eq_absent : child.node = .absent ↔ child = .absent := by
  cases child with
  | absent | leaf => simp [node]
  | tree id kind flags origin children => cases origin <;> simp [node]

@[simp]
theorem toRecorded_names (object : Object) : object.toRecorded.names object = true := by
  cases object <;> simp [toRecorded, Recorded.names, Recorded.identity?, identity?]

@[simp]
theorem former_toRecorded (object : Object) :
    object.toRecorded.former = object.node.toFormer := by
  cases object with
  | absent | leaf => rfl
  | tree id kind flags origin children => cases origin <;> rfl

end Seats

/-- A child that sits where it was is one that its record names. -/
theorem areClean_cons {record : Recorded} {child : Object} {seat : Option Nat} {index : Nat}
    (here : (seat == some index) = record.names child) (formers : List FormerChild)
    (rest : List (Child Node)) :
    Node.areClean index (record.former :: formers) (⟨seat, child.node⟩ :: rest) =
      (record.names child && child.node.isClean && Node.areClean (index + 1) formers rest) := by
  by_cases bothAbsent : record = .absent ∧ child = .absent
  · obtain ⟨rfl, rfl⟩ := bothAbsent
    rfl
  · rw [Node.areClean, here]
    intro isAbsent nodeAbsent
    refine bothAbsent ⟨?_, node_eq_absent.mp nodeAbsent⟩
    cases record with
    | absent => rfl
    | present => cases isAbsent

private theorem length_seated (recorded : List Recorded) (index : Nat) (children : List Object) :
    (seated recorded index children).length = children.length := by
  induction children generalizing index with
  | nil => rfl
  | cons child rest induction => rw [seated, List.length_cons, induction, List.length_cons]

mutual

/-- A node is clean if the object is untouched, and only then. -/
theorem isClean_node (object : Object) : object.node.isClean = object.isUntouched := by
  match object with
  | .absent | .leaf _ _ => rfl
  | .tree _ _ _ none _ => rfl
  | .tree _ _ _ (some origin) children =>
      rw [node, Node.isClean, isUntouched, List.length_map, length_seated,
        areClean_seated (List.drop_zero)]

theorem areClean_seated {recorded suffix : List Recorded} {index : Nat} {children : List Object}
    (isSuffix : recorded.drop index = suffix) :
    Node.areClean index (suffix.map Recorded.former) (seated recorded index children) =
      areUntouched suffix children := by
  match suffix, children with
  | [], _ | _ :: _, [] => simp [Node.areClean, areUntouched, seated]
  | record :: suffix, child :: children =>
      have isRecord : recorded[index]? = some record := by
        rw [← List.head?_drop, isSuffix, List.head?_cons]
      have isRest : recorded.drop (index + 1) = suffix := by
        rw [← List.tail_drop, isSuffix, List.tail_cons]
      have here : (child.seat? recorded index == some index) = record.names child := by
        rw [seat?_eq_index, isRecord, Option.any_some]
      rw [List.map_cons, seated, areClean_cons here, areUntouched, isClean_node child,
        areClean_seated isRest]

end

end Object

end ScriptFold
