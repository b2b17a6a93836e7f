import Mathlib.Data.List.InsertIdx
import ScriptFold.Proofs.Reading.Statement
import ScriptFold.Proofs.Tree.Identity

/-!
# Trees that are changed after they were read

A tree that was read may have its children replaced, added to and removed again and again, with
parts of itself, of other trees that were read or of trees made on the way.  `Obtained` says which
objects come of this.  A change touches the children of one tree wherever it occurs; what is
recorded stays as it is.  So one change keeps what matters to a copy: a tree that was not read has
no flags to lose.
-/

namespace ScriptFold

namespace Object

/-! ### Objects that were read -/

/-- An object as it was read: every tree has recorded the children it has. -/
inductive Frozen : Object → Prop where
  | absent : Frozen .absent
  | leaf {id : Nat} {token : Leaf} : Frozen (.leaf id token)
  | tree {id : Nat} {kind : Kind} {flags : Flags} {source : Source} {span : Span}
      {children : List Object} (childrenAre : ∀ child ∈ children, Frozen child) :
      Frozen (.tree id kind flags (some ⟨source, span, children.map toRecorded⟩) children)

mutual

/-- A node as an object, each word and each tree with an identity of its own, and the next
identity that is free. -/
def hold (next : Nat) : Node → Object × Nat
  | .absent => (.absent, next)
  | .leaf token => (.leaf next token, next + 1)
  | .tree kind flags place children =>
      let (held, later) := holdAll next children
      let origin := place.map fun known => ⟨known.source, known.span, held.map toRecorded⟩
      (.tree later kind flags origin held, later + 1)

/-- Children as objects, and the next identity that is free. -/
def holdAll (next : Nat) : List (Child Node) → List Object × Nat
  | [] => ([], next)
  | ⟨_, node⟩ :: rest =>
      let (child, later) := hold next node
      let (others, last) := holdAll later rest
      (child :: others, last)

end

/-- Children that are recorded where they are sit in their own seats. -/
theorem seated_recorded {recorded : List Recorded} {index : Nat} {children : List Object}
    (areRecorded : recorded.drop index = children.map toRecorded) :
    seated recorded index children = Node.seatFrom index (children.map node) := by
  induction children generalizing index with
  | nil => rfl
  | cons child rest induction =>
      have isRecord : recorded[index]? = some child.toRecorded := by
        rw [← List.head?_drop, areRecorded, List.map_cons, List.head?_cons]
      have isRest : recorded.drop (index + 1) = rest.map toRecorded := by
        rw [← List.tail_drop, areRecorded, List.map_cons, List.tail_cons]
      rw [seated, List.map_cons, Node.seatFrom, induction isRest, seat?, isRecord,
        Option.any_some, toRecorded_names, if_pos rfl]

/-- A tree that has recorded the children it has is a node as it is read. -/
theorem node_frozen (id : Nat) (kind : Kind) (flags : Flags) (source : Source) (span : Span)
    (children : List Object) :
    (Object.tree id kind flags (some ⟨source, span, children.map toRecorded⟩) children).node =
      .read kind flags source span (children.map node) := by
  have formers : (children.map toRecorded).map Recorded.former =
      (children.map node).map Node.toFormer := by
    rw [List.map_map, List.map_map]
    exact List.map_congr_left fun child _ => former_toRecorded child
  rw [node, Node.read, formers, seated_recorded (List.drop_zero)]

section Holding

variable {children : List Node}

private theorem holdAll_seatFrom (index next : Nat)
    (each : ∀ child ∈ children, ∀ next,
      Frozen (hold next child).1 ∧ (hold next child).1.node = child) :
    (∀ held ∈ (holdAll next (Node.seatFrom index children)).1, Frozen held) ∧
      (holdAll next (Node.seatFrom index children)).1.map node = children := by
  induction children generalizing index next with
  | nil => exact ⟨nofun, rfl⟩
  | cons child rest induction =>
      obtain ⟨here, later⟩ := List.forall_mem_cons.mp each
      have isHeld := here next
      have areHeld := induction (index + 1) (hold next child).2 later
      exact ⟨List.forall_mem_cons.mpr ⟨isHeld.1, areHeld.1⟩,
        List.cons_eq_cons.mpr ⟨isHeld.2, areHeld.2⟩⟩

/-- A node as it is read is held by an object as it was read. -/
theorem hold_asRead {tree : Node} (asRead : Grammar.AsRead tree) (next : Nat) :
    Frozen (hold next tree).1 ∧ (hold next tree).1.node = tree := by
  induction asRead generalizing next with
  | absent => exact ⟨.absent, rfl⟩
  | leaf => exact ⟨.leaf, rfl⟩
  | @read kind flags source span children _ _ induction =>
      obtain ⟨areFrozen, areNodes⟩ := holdAll_seatFrom 0 next induction
      refine ⟨.tree areFrozen, ?_⟩
      exact (node_frozen _ kind flags source span _).trans (by rw [areNodes])

end Holding

/-! ### Changes -/

inductive Change where
  | replace (index : Nat) (part : Object)
  | add (index : Nat) (part : Object)
  | remove (index : Nat)

namespace Change

/-- The object that a change brings in. -/
def part? : Change → Option Object
  | .replace _ part => some part
  | .add _ part => some part
  | .remove _ => none

/-- Children after a change. -/
def applied (children : List Object) : Change → List Object
  | .replace index part => children.set index part
  | .add index part => children.insertIdx index part
  | .remove index => children.eraseIdx index

/-- A child after a change was there before, or is what the change brings in. -/
theorem mem_applied {change : Change} {children : List Object} {child : Object}
    (there : child ∈ change.applied children) :
    child ∈ children ∨ change.part? = some child := by
  cases change with
  | replace index part => exact (List.mem_or_eq_of_mem_set there).imp_right (congrArg some ·.symm)
  | add index part =>
      exact (List.eq_or_mem_of_mem_insertIdx there).symm.imp_right (congrArg some ·.symm)
  | remove index => exact .inl (List.mem_of_mem_eraseIdx there)

end Change

mutual

/-- An object after the children of the tree with this identity are changed, wherever it
occurs. -/
def edit (target : Nat) (change : Change) : Object → Object
  | .absent => .absent
  | .leaf id token => .leaf id token
  | .tree id kind flags origin children =>
      let edited := editAll target change children
      .tree id kind flags origin (if id = target then change.applied edited else edited)

/-- Objects after the children of the tree with this identity are changed. -/
def editAll (target : Nat) (change : Change) : List Object → List Object
  | [] => []
  | child :: rest => child.edit target change :: editAll target change rest

end

theorem editAll_eq_map (target : Nat) (change : Change) (children : List Object) :
    editAll target change children = children.map (edit target change) := by
  induction children with
  | nil => rfl
  | cons child rest induction => rw [editAll, List.map_cons, induction]

/-- The child of an object at an index, absent if there is none. -/
def childAt (object : Object) (index : Nat) : Object :=
  object.children.getD index .absent

/-- Objects that come of scripts by changes.  What a change brings in may be a script, a tree made
on the way, a word or any part of such an object. -/
inductive Obtained : Object → Prop where
  | absent : Obtained .absent
  | leaf {id : Nat} {token : Leaf} : Obtained (.leaf id token)
  | read {source : Source} {object : Object} (frozen : Frozen object)
      (parsed : parseScript source = .ok object.node) : Obtained object
  | made {id : Nat} {kind : Kind} {children : List Object}
      (childrenAre : ∀ child ∈ children, Obtained child) :
      Obtained (.tree id kind {} none children)
  | part {object child : Object} (obtained : Obtained object) (isChild : child ∈ object.children) :
      Obtained child
  | edited {object : Object} (target : Nat) {change : Change} (obtained : Obtained object)
      (partIs : ∀ part, change.part? = some part → Obtained part) :
      Obtained (object.edit target change)

namespace Obtained

variable {object part : Object}

theorem replaced (target index : Nat) (obtained : Obtained object) (partIs : Obtained part) :
    Obtained (object.edit target (.replace index part)) :=
  obtained.edited target fun _ brought => Option.some.inj brought ▸ partIs

theorem added (target index : Nat) (obtained : Obtained object) (partIs : Obtained part) :
    Obtained (object.edit target (.add index part)) :=
  obtained.edited target fun _ brought => Option.some.inj brought ▸ partIs

theorem removed (target index : Nat) (obtained : Obtained object) :
    Obtained (object.edit target (.remove index)) :=
  obtained.edited target nofun

theorem childAt (obtained : Obtained object) (index : Nat) :
    Obtained (object.childAt index) := by
  rw [Object.childAt, List.getD_eq_getElem?_getD]
  cases found : object.children[index]? with
  | none => exact .absent
  | some child => exact obtained.part (List.mem_of_getElem? found)

end Obtained

/-- The object of a script, absent if the text is not one. -/
def ofScript (source : Source) : Object :=
  match parseScript source with
  | .ok root => (hold 0 root).1
  | .error _ => .absent

theorem ofScript_obtained (source : Source) : Obtained (ofScript source) := by
  unfold ofScript
  split
  case h_1 root parsed =>
    obtain ⟨_, _, asRead⟩ := parseScript_asRead parsed
    obtain ⟨frozen, isNode⟩ := hold_asRead asRead 0
    exact .read frozen (isNode.symm ▸ parsed)
  case h_2 => exact .absent

/-- An object whose trees have flags only where they were read. -/
inductive Unflagged : Object → Prop where
  | absent : Unflagged .absent
  | leaf {id : Nat} {token : Leaf} : Unflagged (.leaf id token)
  | tree {id : Nat} {kind : Kind} {flags : Flags} {origin : Option Snapshot}
      {children : List Object} (bare : origin = none → flags = {})
      (childrenAre : ∀ child ∈ children, Unflagged child) :
      Unflagged (.tree id kind flags origin children)

namespace Unflagged

variable {object : Object}

theorem children (unflagged : Unflagged object) : ∀ child ∈ object.children, Unflagged child := by
  cases unflagged with
  | absent | leaf => exact nofun
  | tree _ childrenAre => exact childrenAre

theorem of_frozen (frozen : Frozen object) : Unflagged object := by
  induction frozen with
  | absent => exact .absent
  | leaf => exact .leaf
  | tree _ induction => exact .tree nofun induction

/-- A change brings no flags if what it brings in has none. -/
theorem edit {change : Change} (target : Nat) (unflagged : Unflagged object)
    (partIs : ∀ part, change.part? = some part → Unflagged part) :
    Unflagged (object.edit target change) := by
  induction unflagged with
  | absent => exact .absent
  | leaf => exact .leaf
  | @tree id kind flags origin children bare _ induction =>
      have areEdited : ∀ child ∈ editAll target change children, Unflagged child := by
        rw [editAll_eq_map]
        exact List.forall_mem_map.mpr induction
      refine .tree bare ?_
      split
      case isTrue =>
        exact fun child there => (Change.mem_applied there).elim (areEdited child) (partIs child)
      case isFalse => exact areEdited

theorem copyAll_seated {recorded : List Recorded} {children : List Object} (index : Nat)
    (each : ∀ child ∈ children, child.node.copy = child.node) :
    Node.copyAll (seated recorded index children) = seated recorded index children := by
  induction children generalizing index with
  | nil => rfl
  | cons child rest induction =>
      obtain ⟨here, later⟩ := List.forall_mem_cons.mp each
      rw [seated, Node.copyAll, here, induction (index + 1) later]

/-- Where no flags are lost, a copy is what was copied. -/
theorem copy_node (unflagged : Unflagged object) : object.node.copy = object.node := by
  induction unflagged with
  | absent | leaf => rfl
  | @tree id kind flags origin children bare _ induction =>
      cases origin with
      | none => rw [node, Node.copy, copyAll_seated 0 induction, bare rfl]
      | some origin => rw [node, Node.copy, copyAll_seated 0 induction]

end Unflagged

/-- What comes of scripts by changes has flags only where it was read. -/
theorem Obtained.unflagged {object : Object} (obtained : Obtained object) : Unflagged object := by
  induction obtained with
  | absent => exact .absent
  | leaf => exact .leaf
  | read frozen _ => exact .of_frozen frozen
  | made _ induction => exact .tree (fun _ => rfl) induction
  | part _ isChild induction => exact induction.children _ isChild
  | edited target _ _ unflagged partIs => exact unflagged.edit target partIs

end Object

end ScriptFold
