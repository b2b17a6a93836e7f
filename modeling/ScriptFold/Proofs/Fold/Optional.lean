import ScriptFold.Proofs.Coupling.Walk
import ScriptFold.Proofs.Fold.Substitution
import ScriptFold.Proofs.Tree.Placed

/-!
# Optional chains

An optional link over null or undefined gives undefined, and so does the whole chain that it
begins.  Folding takes each link on its own: the optional one becomes undefined, and those after
it are kept as reads of that.  Only a chain of one link is folded to what it means.
-/

namespace ScriptFold

namespace Chain

/-- A link of a chain: a member or subscript without the object that it reads. -/
structure Link where
  kind : Kind
  flags : Flags
  place : Option Place
  seat : Option Nat
  key : Child Node

def Link.over (link : Link) (object : Node) : Node :=
  .tree link.kind link.flags link.place [⟨link.seat, object⟩, link.key]

/-- The name under which a link reads a property, if it can be told.  The key of the link is a
word after a dot or a literal in brackets. -/
inductive Link.Reads : Link → Option Text → Prop where
  | member {flags : Flags} {place : Option Place} {seat keySeat : Option Nat} {word : Leaf} :
      Reads ⟨.member, flags, place, seat, ⟨keySeat, .leaf word⟩⟩
        (if word.type = .name then some word.text else none)
  | subscript {flags keyFlags : Flags} {place keyPlace : Option Place}
      {seat keySeat wordSeat : Option Nat} {word : Leaf} {value : Option Value}
      {name : Option Text} :
      Literal.tokenValue? word = .ok value → Literal.keyName? value = .ok name →
      Reads ⟨.subscript, flags, place, seat,
        ⟨keySeat, .tree .literal keyFlags keyPlace [⟨wordSeat, .leaf word⟩]⟩⟩ name

/-- Links over an object, the last one first. -/
def linked (object : Node) : List Link → Node
  | [] => object
  | link :: earlier => link.over (linked object earlier)

/-- Links over undefined, the last one first.  The one over undefined itself has a new object. -/
def overUndefined : List Link → Node
  | [] => Literal.voidZero
  | link :: earlier =>
      { link with seat := if earlier.isEmpty then none else link.seat }.over
        (overUndefined earlier)

/-- What folding makes of an optional link over null or undefined with some links after it. -/
def shortened (later : List Link) : Folded :=
  if later.isEmpty then .instead (overUndefined later) else .same (overUndefined later)

/-- Evaluating an expression reads a property of null or undefined. -/
inductive ReadsNullish : Node → Prop where
  | here {kind : Kind} {flags : Flags} {place : Option Place} {object key : Child Node}
      {value : Value} : (kind = .member ∨ kind = .subscript) → flags.optional = false →
      Literal.value? object.node = .ok (some value) → value.isNullish = true →
      ReadsNullish (.tree kind flags place [object, key])
  | inObject {kind : Kind} {flags : Flags} {place : Option Place} {object key : Child Node} :
      (kind = .member ∨ kind = .subscript) → ReadsNullish object.node →
      ReadsNullish (.tree kind flags place [object, key])

theorem Link.Reads.kind {link : Link} {name : Option Text} (reads : link.Reads name) :
    link.kind = .member ∨ link.kind = .subscript := by
  cases reads with
  | member => exact .inl rfl
  | subscript => exact .inr rfl

theorem isKind_over {link : Link} {name : Option Text} (reads : link.Reads name) {object : Node} :
    (link.over object).isKind .ident = false := by
  cases reads <;> rfl

theorem value?_voidZero : Literal.value? Literal.voidZero = .ok (some .undefined) := by
  rfl

/-- No property is read if there are no links after the optional one. -/
theorem readsNullish_overUndefined {later : List Link}
    (reads : ∀ link ∈ later, ∃ name, link.Reads name)
    (plain : ∀ link ∈ later, link.flags.optional = false) :
    ReadsNullish (overUndefined later) ↔ later ≠ [] := by
  constructor
  · rintro reading rfl
    rw [overUndefined, Literal.voidZero] at reading
    cases reading with
    | here isLink => cases isLink <;> contradiction
    | inObject isLink => cases isLink <;> contradiction
  · intro notEmpty
    induction later with
    | nil => exact absurd rfl notEmpty
    | cons link earlier induction =>
        obtain ⟨⟨name, readsName⟩, readsEarlier⟩ := List.forall_mem_cons.mp reads
        obtain ⟨isPlain, plainEarlier⟩ := List.forall_mem_cons.mp plain
        cases earlier with
        | nil => exact .here readsName.kind isPlain value?_voidZero rfl
        | cons before earlier =>
            have readsBefore := induction readsEarlier plainEarlier (List.cons_ne_nil _ _)
            exact .inObject readsName.kind readsBefore

section Walk

open Fold (Expander Inert walk walk_tree)

variable {context : Context} {expand : Expander}

private theorem expression_literal {flags : Flags} {place : Option Place} {seat wordSeat
    : Option Nat}
    {word : Leaf} :
    Slot.expression ⟨context, expand context, walk context expand⟩
        ⟨seat, .tree .literal flags place [⟨wordSeat, .leaf word⟩]⟩ =
      pure ⟨seat, .tree .literal flags place [⟨wordSeat, .leaf word⟩]⟩ := by
  have walked : walk context expand (.tree .literal flags place [⟨wordSeat, .leaf word⟩]) =
      pure (.same (.tree .literal flags place [⟨wordSeat, .leaf word⟩])) := by
    rw [walk_tree]
    rfl
  simp only [Slot.expression, walked]
  rfl

/-- The key of a link stays as it is. -/
theorem memberKey_of_reads {link : Link} {name : Option Text} (reads : link.Reads name)
    (object : Child Node) :
    memberKey ⟨context, expand context, walk context expand⟩
        ⟨link.kind, link.flags, link.place, [object, link.key]⟩ = pure (link.key, name) := by
  cases reads with
  | @member _ _ _ _ word =>
      obtain ⟨type, text, found⟩ := word
      cases type <;> rfl
  | @subscript _ _ _ _ _ _ _ word value _ known named =>
      simp only [memberKey, Branch.child, List.getElem?_cons_succ, List.getElem?_cons_zero,
        pure_bind, reduceCtorEq, if_false, expression_literal, Slot.valueOf, Literal.value?, known]
      cases value with
      | none =>
          cases named
          rfl
      | some value =>
          rw [Literal.keyName?] at named
          simp only [FoldM.calculate, pure_bind, named]

/-- What is left of an object that is neither a name nor folded to a value with properties. -/
structure Settles (context : Context) (expand : Expander) (former object : Child Node) : Prop where
  notName : former.node.isKind .ident = false
  folds : Slot.expression ⟨context, expand context, walk context expand⟩ former = pure object
  value : Literal.value? object.node = .ok none ∨ Literal.value? object.node = .ok (some .undefined)

/-- A link that is not optional is kept over such an object. -/
theorem member_kept {former object : Child Node} (settles : Settles context expand former object)
    {link : Link} {name : Option Text} (reads : link.Reads name)
    (plain : link.flags.optional = false) :
    member ⟨context, expand context, walk context expand⟩
        ⟨link.kind, link.flags, link.place, [former, link.key]⟩ =
      pure (.same (.tree link.kind link.flags link.place [object, link.key])) := by
  have noName : Name.value? context former.node = pure none := by
    simp [Name.value?, settles.notName]
  have first : Branch.child ⟨link.kind, link.flags, link.place, [former, link.key]⟩ 0 =
      pure former := rfl
  have received (value : Option Value) (known : Literal.value? object.node = .ok value) :
      receiver ⟨context, expand context, walk context expand⟩ former =
        pure ⟨object, value, true⟩ := by
    simp only [receiver, noName, pure_bind, settles.folds, Slot.valueOf, known]
    rfl
  rcases settles.value with unknown | undefined
  · simp only [member, first, pure_bind, received none unknown, memberKey_of_reads reads]
    rfl
  · simp only [member, first, pure_bind, received _ undefined, memberKey_of_reads reads]
    cases name with
    | none => rfl
    | some name =>
        simp only [readProperty, plain, Bool.false_and]
        rfl

/-- A link is folded as a read of its object. -/
theorem walk_over {link : Link} {name : Option Text} (reads : link.Reads name) (object : Node) :
    walk context expand (link.over object) =
      FoldM.locating (link.over object)
        (member ⟨context, expand context, walk context expand⟩
          ⟨link.kind, link.flags, link.place, [⟨link.seat, object⟩, link.key]⟩) := by
  rw [Link.over, walk_tree]
  cases reads <;> rfl

/-- What the links up to one of the later ones leave for it. -/
theorem linked_settles {first : Link} {key : Text} {object : Node} {later : List Link}
    (reads : first.Reads (some key)) (areReads : ∀ link ∈ later, ∃ name, link.Reads name)
    (walked : walk context expand (linked (first.over object) later) = pure (shortened later))
    (seat : Option Nat) :
    Settles context expand ⟨seat, linked (first.over object) later⟩
      ⟨if later.isEmpty then none else seat, overUndefined later⟩ := by
  cases later with
  | nil =>
      constructor
      · exact isKind_over reads
      · have present : (linked (first.over object) []).isAbsent = false := rfl
        simp only [Slot.expression, present, walked]
        rfl
      · exact .inr value?_voidZero
  | cons link earlier =>
      obtain ⟨name, readsName⟩ := areReads link List.mem_cons_self
      constructor
      · exact isKind_over readsName
      · have present : (linked (first.over object) (link :: earlier)).isAbsent = false := rfl
        simp only [Slot.expression, present, walked]
        cases readsName <;> rfl
      · left
        cases readsName <;> rfl

section Bound

variable {name key : Text} {value : Value} {object : Node} {first : Link}
  (isName : object.IsAtom (.name name)) (inert : Inert context name)
  (notFragment : context.fragments.binds name = false)
  (bound : context.values.lookup name = some value) (nullish : value.isNullish = true)
  (reads : first.Reads (some key)) (optional : first.flags.optional = true)
include isName inert notFragment bound

private theorem value?_of_bound : Name.value? context object = pure (some value) := by
  cases isName
  have named : ∀ flags place seat found,
      Name.of? (.tree .ident flags place [⟨seat, .leaf ⟨.name, name, found⟩⟩]) = some name :=
    fun _ _ _ _ => rfl
  simp only [Atom.kind, Atom.type, Atom.text, Name.value?, named, bound, Name.refuseCallable,
    inert.notFunction, inert.notMacro, notFragment]
  rfl

include nullish reads optional

/-- An optional link over a name that is bound to null or undefined. -/
theorem walk_first :
    walk context expand (first.over object) = pure (.instead Literal.voidZero) := by
  have received : receiver ⟨context, expand context, walk context expand⟩ ⟨first.seat, object⟩ =
      pure ⟨⟨first.seat, object⟩, some value, false⟩ := by
    simp only [receiver, value?_of_bound isName inert notFragment bound]
    rfl
  have begins : Branch.child ⟨first.kind, first.flags, first.place,
      [⟨first.seat, object⟩, first.key]⟩ 0 = pure ⟨first.seat, object⟩ := rfl
  rw [walk_over reads]
  simp only [member, begins, pure_bind, received, memberKey_of_reads reads, readProperty, optional,
    nullish, Bool.and_true, if_true]
  rfl

variable {later : List Link}

/-- The links after an optional one are kept over undefined. -/
theorem walk_linked (areReads : ∀ link ∈ later, ∃ name, link.Reads name)
    (plain : ∀ link ∈ later, link.flags.optional = false) :
    walk context expand (linked (first.over object) later) = pure (shortened later) := by
  induction later with
  | nil => exact walk_first isName inert notFragment bound nullish reads optional
  | cons link earlier induction =>
      obtain ⟨⟨name, readsName⟩, readsEarlier⟩ := List.forall_mem_cons.mp areReads
      obtain ⟨isPlain, plainEarlier⟩ := List.forall_mem_cons.mp plain
      have settles := linked_settles reads readsEarlier
        (induction readsEarlier plainEarlier) link.seat
      rw [linked, walk_over readsName, member_kept settles readsName isPlain]
      rfl

end Bound

/-- An optional chain over null or undefined is folded to undefined if it has one link.  Each link
after the optional one is kept, and the first of them reads a property of undefined. -/
theorem walk_optionalChain {name key : Text} {value : Value} {object : Node} {first : Link}
    {later : List Link} (isName : object.IsAtom (.name name)) (inert : Inert context name)
    (notFragment : context.fragments.binds name = false)
    (bound : context.values.lookup name = some value) (nullish : value.isNullish = true)
    (reads : first.Reads (some key)) (optional : first.flags.optional = true)
    (areReads : ∀ link ∈ later, ∃ name, link.Reads name)
    (plain : ∀ link ∈ later, link.flags.optional = false) :
    walk context expand (linked (first.over object) later) = pure (shortened later) ∧
      (Literal.value? (overUndefined later) = .ok (some .undefined) ↔ later = []) ∧
      (ReadsNullish (overUndefined later) ↔ later ≠ []) := by
  refine ⟨?_, ?_, ?_⟩
  · exact walk_linked isName inert notFragment bound nullish reads optional areReads plain
  · cases later with
    | nil => simp [overUndefined, value?_voidZero]
    | cons link earlier =>
        obtain ⟨name, readsName⟩ := areReads link List.mem_cons_self
        have unknown : Literal.value? (overUndefined (link :: earlier)) = .ok none := by
          cases readsName <;> rfl
        simp [unknown]
  · exact readsNullish_overUndefined areReads plain

/-- A context in which `x` is null. -/
def nullName : Context :=
  ⟨Host.none, [("x", .null)], [], [], [], 100⟩

def nullRead : Node :=
  .tree .ident {} none [⟨some 0, .leaf ⟨.name, "x", none⟩⟩]

/-- The link of a name, as in `x.a` and `x?.a`. -/
def dotted (isOptional : Bool) (name : Text) : Link :=
  ⟨.member, { optional := isOptional }, none, some 0, ⟨some 1, .leaf ⟨.name, name, none⟩⟩⟩

def bracketed (word : Text) : Link :=
  ⟨.subscript, {}, none, some 0,
    ⟨some 1, .tree .literal {} none [⟨some 0, .leaf ⟨.string, word, none⟩⟩]⟩⟩

/-- An expander for scripts without macros. -/
def leavesCalls : Expander :=
  fun _ call _ => pure (.same call.toNode)

/-- The links of `.b["c"]`, the last one first. -/
def laterLinks : List Link :=
  [bracketed "\"c\"", dotted false "b"]

theorem laterLinks_read : ∀ link ∈ laterLinks, ∃ name, link.Reads name := by
  have bracketedReads : (bracketed "\"c\"").Reads (some "c") :=
    .subscript (show Literal.tokenValue? _ = .ok (some (.str "c")) from rfl) rfl
  intro link there
  simp only [laterLinks, List.mem_cons, List.not_mem_nil, or_false] at there
  obtain rfl | rfl := there
  · exact ⟨_, bracketedReads⟩
  · exact ⟨_, .member⟩

theorem laterLinks_plain : ∀ link ∈ laterLinks, link.flags.optional = false := by
  decide

/-- Folding `x?.a.b["c"]`. -/
theorem laterLinks_kept :
    walk nullName leavesCalls (linked ((dotted true "a").over nullRead) laterLinks) =
      pure (shortened laterLinks) ∧
    (Literal.value? (overUndefined laterLinks) = .ok (some .undefined) ↔ laterLinks = []) ∧
    (ReadsNullish (overUndefined laterLinks) ↔ laterLinks ≠ []) := by
  have isName : nullRead.IsAtom (.name "x") := .intro
  have bound : nullName.values.lookup (Text.ofString "x") = some .null := rfl
  have reads : (dotted true "a").Reads (some "a") := .member
  exact walk_optionalChain isName ⟨rfl, rfl⟩ rfl bound rfl reads rfl laterLinks_read
    laterLinks_plain

/-- A chain that an optional link begins may be folded to a read of undefined. -/
theorem optionalChain_readsNullish :
    ¬ ∀ (context : Context) (expand : Expander) (name key : Text) (value : Value) (object : Node)
      (first : Link) (later : List Link), object.IsAtom (.name name) → Inert context name →
      context.fragments.binds name = false → context.values.lookup name = some value →
      value.isNullish = true → first.Reads (some key) → first.flags.optional = true →
      (∀ link ∈ later, ∃ name, link.Reads name) →
      (∀ link ∈ later, link.flags.optional = false) →
      ∀ node, walk context expand (linked (first.over object) later) = pure (.same node) ∨
          walk context expand (linked (first.over object) later) = pure (.instead node) →
        ¬ ReadsNullish node := by
  intro shortCircuits
  have isName : nullRead.IsAtom (.name "x") := .intro
  have bound : nullName.values.lookup (Text.ofString "x") = some .null := rfl
  have reads : (dotted true "a").Reads (some "a") := .member
  have walked : walk nullName leavesCalls (linked ((dotted true "a").over nullRead) laterLinks) =
      pure (.same (overUndefined laterLinks)) :=
    walk_linked isName ⟨rfl, rfl⟩ rfl bound rfl reads rfl laterLinks_read laterLinks_plain
  refine shortCircuits nullName leavesCalls "x" "a" .null nullRead (dotted true "a") laterLinks
    isName ⟨rfl, rfl⟩ rfl bound rfl reads rfl laterLinks_read laterLinks_plain _ (.inl walked) ?_
  exact (readsNullish_overUndefined laterLinks_read laterLinks_plain).mpr (List.cons_ne_nil _ _)

end Walk

end Chain

end ScriptFold
