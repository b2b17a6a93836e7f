import ScriptFold.Fold.Chain
import ScriptFold.Printer.Basic
import ScriptFold.Proofs.Fold.Returns
import ScriptFold.Proofs.Shape.Parts
import ScriptFold.Proofs.Whole.Slip
import Mathlib.Data.List.Forall2

/-!
# Trees in which nothing is missing

A tree is whole if every node has the children that its kind asks for: as many as there have
to be, an operator where one is looked up, a list of arguments where arguments are folded.
Steps on whole trees never look for a child that is not there.  What can still stop them is
an error of the script, a slip, which is a calculation on values and texts that has no answer,
or the end of the stack.
-/

namespace ScriptFold

/-! ### Steps that only fail in a few ways -/

/-- Whether a failure is an error of the script, a slip or the end of the stack. -/
def Failure.IsAllowed : Failure → Prop
  | .lexical _ | .parse _ | .fold _ _ => True
  | .fault cause => Slip cause ∨ cause = .stackExhausted
  | .host | .unprintable _ | .missingOperator _ | .wrongFragment _ _ => False

theorem Failure.IsAllowed.locate {failure : Failure} (allowed : failure.IsAllowed)
    (position : Option (Nat × Nat)) : (failure.locate position).IsAllowed := by
  unfold Failure.locate
  split
  · trivial
  · exact allowed

namespace FoldM

/-- Every run of a step gives a value with a property, or ends with an error of the script, with
a slip or at the end of the stack. -/
def Safe {α : Type} (step : FoldM α) (holds : α → Prop) : Prop :=
  ∀ before, match (step.run.run before).1 with
    | .ok value => holds value
    | .error failure => failure.IsAllowed

section Rules

variable {α β : Type} {holds other : α → Prop} {middle : β → Prop}

theorem Safe.of_pure {value : α} (is : holds value) : Safe (pure value) holds :=
  fun _ => is

theorem Safe.of_throw {failure : Failure} (allowed : failure.IsAllowed) :
    Safe (throw failure : FoldM α) holds :=
  fun _ => allowed

theorem Safe.of_fail {cause : FoldError} {node : Node} : Safe (fail cause node : FoldM α) holds :=
  fun _ => trivial

theorem Safe.of_report {finding : Finding} {node : Node} :
    Safe (report finding node) fun _ => True :=
  fun _ => trivial

theorem Safe.bind {step : FoldM β} {next : β → FoldM α} (begins : Safe step middle)
    (goes : ∀ value, middle value → Safe (next value) holds) : Safe (step >>= next) holds := by
  intro before
  have first := begins before
  rw [run_bind]
  cases ran : step.run.run before with
  | mk outcome between =>
      rw [ran] at first
      cases outcome with
      | error failure => exact first
      | ok value => exact goes value first between

theorem Safe.mono {step : FoldM α} (safe : Safe step other)
    (implies : ∀ value, other value → holds value) : Safe step holds := by
  intro before
  have ends := safe before
  split at ends
  · exact implies _ ends
  · exact ends

theorem Safe.of_calculate {calculated : Except Fault α} (slips : Calculation.Slips calculated) :
    Safe (calculate calculated) fun value => calculated = .ok value := by
  cases calculated with
  | ok value => exact .of_pure rfl
  | error fault => exact .of_throw (.inl (slips fault rfl))

theorem Safe.locating {node : Node} {step : FoldM α} (safe : Safe step holds) :
    Safe (FoldM.locating node step) holds := by
  intro before
  have ends := safe before
  rw [run_locating]
  cases ran : step.run.run before with
  | mk outcome between =>
      rw [ran] at ends
      cases outcome with
      | ok value => exact ends
      | error failure => exact ends.locate _

/-- One of two steps, and one way on. -/
theorem Safe.either {condition : Prop} [Decidable condition] {first second : FoldM β}
    {next : β → FoldM α} (begins : Safe (if condition then first else second) middle)
    (goes : ∀ value, middle value → Safe (next value) holds) :
    Safe (if condition then first >>= next else second >>= next) holds := by
  by_cases is : condition
  · rw [if_pos is] at begins ⊢
    exact begins.bind goes
  · rw [if_neg is] at begins ⊢
    exact begins.bind goes

/-- A step after a check that may refuse. -/
theorem Safe.refusing {condition : Prop} [Decidable condition] {cause : FoldError} {node : Node}
    {next : PUnit → FoldM α} (safe : Safe (next ⟨⟩) holds) :
    Safe (if condition then fail cause node >>= next else next ⟨⟩) holds := by
  split
  · exact Safe.bind of_fail fun _ (_ : True) => safe
  · exact safe

/-- A step for every item of a list. -/
theorem Safe.mapM {act : β → FoldM α} {relates : β → α → Prop} {items : List β}
    (acts : ∀ item, item ∈ items → Safe (act item) (relates item)) :
    Safe (items.mapM act) (List.Forall₂ relates items) := by
  induction items with
  | nil => exact .of_pure .nil
  | cons item rest induction =>
      rw [List.forall_mem_cons] at acts
      rw [List.mapM_cons]
      apply acts.1.bind
      intro first isFirst
      apply (induction acts.2).bind
      intro others areOthers
      exact .of_pure (.cons isFirst areOthers)

end Rules

end FoldM

section Forall₂

variable {α β : Type} {relates : β → α → Prop} {items : List β} {results : List α}
variable {holds : α → Prop}

theorem all_of_forall₂ (related : List.Forall₂ relates items results)
    (implies : ∀ item result, relates item result → holds result) :
    ∀ result, result ∈ results → holds result := by
  induction related with
  | nil => nofun
  | cons first rest induction => exact List.forall_mem_cons.mpr ⟨implies _ _ first, induction⟩

theorem at_of_forall₂ (related : List.Forall₂ relates items results) {index : Nat} {result : α}
    (found : results[index]? = some result) :
    ∃ item, items[index]? = some item ∧ relates item result := by
  induction related generalizing index with
  | nil => cases found
  | cons first rest induction =>
      cases index with
      | zero =>
          cases found
          exact ⟨_, rfl, first⟩
      | succ index => exact induction found

end Forall₂

/-! ### Whole trees -/

namespace Node

def isOperator : Node → Bool
  | .leaf token => token.type == .op || token.type == .assignOp
  | _ => false

end Node

namespace Kind

/-- Kinds of nodes that folding leaves in their place. -/
def isSteady (kind : Kind) : Bool :=
  match kind.category? with
  | some .leaf | some .statementList | some .declaration | some .function | some .pattern
  | some .compound => true
  | _ => false

end Kind

/-- Whether folding leaves a node in its place. -/
def Node.isSteady (node : Node) : Bool :=
  node.kind?.all Kind.isSteady

namespace Kind

/-- Whether a node of some kind may have so many children. -/
def counts (kind : Kind) (count : Nat) : Bool :=
  match kind with
  | .program | .block | .sequence | .args | .params | .array | .object | .arrayPattern
  | .objectPattern | .classBody | .template | .thisExpr | .superExpr | .emptyStmt
  | .debuggerStmt => true
  | .varDecl | .switchStmt | .switchCase => decide (0 < count)
  | .literal | .regex | .metaProperty | .binding | .importDecl | .exportNamed | .exportAll
  | .ident | .paren | .exprStmt | .throwStmt | .awaitExpr | .spread | .computedKey | .importCall
  | .rest | .shorthandProperty | .returnStmt | .yieldExpr | .exportDefault | .exportDecl
  | .staticBlock | .breakStmt | .continueStmt => count == 1
  | .taggedTemplate | .labeledStmt | .withStmt | .whileStmt | .doWhileStmt | .call | .newExpr
  | .member | .subscript | .assignPattern | .declarator | .arrow | .property | .patternProperty
  | .classField | .unary | .prefixUpdate | .postfixUpdate | .catchClause => count == 2
  | .binary | .logical | .assign | .conditional | .ifStmt | .functionDecl | .functionExpr
  | .classDecl | .classExpr | .method | .tryStmt | .forInStmt | .forOfStmt => count == 3
  | .forStmt => count == 4
  | .other _ => false

/-- Whether a node may stand at an index of a node of some kind. -/
def takes (kind : Kind) (index : Nat) (node : Node) : Bool :=
  match kind, index with
  | .literal, 0 => node.leafText?.isSome
  | .unary, 0 | .prefixUpdate, 0 | .postfixUpdate, 1 | .logical, 1 => node.isOperator
  | .taggedTemplate, 1 => node.isKind .template
  | .call, 1 | .newExpr, 1 => node.isKind .args || node.isAbsent
  | .shorthandProperty, 0 => node.isKind .ident
  | .object, _ => node.isOneOf [.property, .shorthandProperty, .method, .spread]
  | .switchStmt, _ + 1 => node.isKind .switchCase
  | .varDecl, _ + 1 => node.isKind .declarator
  | .functionDecl, 1 | .functionDecl, 2 | .functionExpr, 1 | .functionExpr, 2 | .arrow, 0
  | .classDecl, 2 | .classExpr, 2 | .classBody, _ | .method, 1 | .method, 2 | .staticBlock, 0
  | .declarator, 0 | .tryStmt, _ | .catchClause, _ | .exportDecl, 0 => node.isSteady
  | _, _ => true

/-- Whether a node of some kind always has a child at an index. -/
def needs (kind : Kind) (index : Nat) : Bool :=
  (List.range (index + 1)).all fun count => !kind.counts count

theorem lt_of_needs {kind : Kind} {index count : Nat} (needs : kind.needs index = true)
    (counts : kind.counts count = true) : index < count := by
  by_contra few
  have tooFew := List.all_eq_true.mp needs count (List.mem_range.mpr (by omega))
  rw [counts] at tooFew
  cases tooFew

end Kind

/-- Whether a colon follows an offset of a source. -/
def Source.HasColonAfter (source : Source) (offset : Nat) : Prop :=
  (Text.indexOf? [.char ':'] (source.text.drop offset) offset).isSome = true

/-- The head of a case as it was read: a test with both of its offsets, or none, and a colon
behind it. -/
def Place.HasCaseHead (place : Place) : Prop :=
  match place.former.head? with
  | some (.present start stop) =>
      start.isSome = true ∧ ∃ last, stop = some last ∧ place.source.HasColonAfter last
  | _ => place.source.HasColonAfter place.span.start

/-- A place at which a list of statements was read, behind the head of a case or alone.  A
statement that keeps its seat is one of those that were read. -/
structure Place.Lists (place : Place) (head : Nat) (children : List (Child Node)) : Prop where
  formers : ∀ former, former ∈ place.former.drop head →
    (Printer.formerSpan? former).isSome = true
  seats : ∀ child, child ∈ children.drop head → ∀ seat, child.seat = some seat →
    seat < place.former.length
  caseHead : head = 1 → place.HasCaseHead

/-- The children of a node are what its kind asks for. -/
structure Kind.Holds (kind : Kind) (place : Option Place) (children : List (Child Node)) :
    Prop where
  counts : kind.counts children.length = true
  takes : ∀ index child, children[index]? = some child → kind.takes index child.node = true
  listed : ∀ head, Printer.listHead? kind = some head → ∀ known, place = some known →
    known.Lists head children

/-- A tree in which every node has the children that its kind asks for. -/
inductive Node.Whole : Node → Prop where
  | absent : Whole .absent
  | leaf {token : Leaf} : Whole (.leaf token)
  | tree {kind : Kind} {flags : Flags} {place : Option Place} {children : List (Child Node)}
      (holds : kind.Holds place children) (all : ∀ child, child ∈ children → Whole child.node) :
      Whole (.tree kind flags place children)

def AllWhole (children : List (Child Node)) : Prop :=
  ∀ child, child ∈ children → child.node.Whole

variable {kind : Kind} {flags : Flags} {place : Option Place} {inner others : List (Child Node)}
variable {part : Child Node} {index : Nat} {node : Node} {nodes : List Node}

/-- The children of a node of a kind that never lists statements. -/
theorem Kind.Holds.unlisted (counts : kind.counts inner.length = true)
    (takes : ∀ index child, inner[index]? = some child → kind.takes index child.node = true)
    (noList : Printer.listHead? kind = none) : kind.Holds place inner := by
  refine ⟨counts, takes, ?_⟩
  intro head isHead
  rw [noList] at isHead
  cases isHead

/-- Other children, as many as before, where no list of statements is. -/
theorem Kind.Holds.replace (holds : kind.Holds place inner)
    (noList : Printer.listHead? kind = none) (same : others.length = inner.length)
    (takes : ∀ index child, others[index]? = some child → kind.takes index child.node = true) :
    kind.Holds place others := by
  apply Kind.Holds.unlisted ?_ takes noList
  rw [same]
  exact holds.counts

/-- The children of a node that has no place. -/
theorem Kind.Holds.made (counts : kind.counts nodes.length = true)
    (takes : ∀ index node, nodes[index]? = some node → kind.takes index node = true) :
    kind.Holds none (Node.unseated nodes) := by
  refine ⟨?_, ?_, nofun⟩
  · rw [Node.unseated, List.length_map]
    exact counts
  · intro index child found
    rw [Node.unseated, List.getElem?_map] at found
    obtain ⟨node, isNode, rfl⟩ := Option.map_eq_some_iff.mp found
    exact takes index node isNode

/-- Whether a node may stand somewhere can be seen from a copy. -/
theorem takes_copy : kind.takes index node.copy = kind.takes index node := by
  cases node with
  | absent | leaf => rw [Node.copy]
  | tree inner flags place children =>
      cases place <;> rw [Node.copy] <;> unfold Kind.takes <;> split <;> rfl

theorem Kind.Holds.copied (holds : kind.Holds place inner) :
    kind.Holds place (inner.map fun child => ⟨child.seat, child.node.copy⟩) := by
  constructor
  · rw [List.length_map]
    exact holds.counts
  · intro index child found
    rw [List.getElem?_map] at found
    obtain ⟨former, isFormer, rfl⟩ := Option.map_eq_some_iff.mp found
    rw [takes_copy]
    exact holds.takes index former isFormer
  · intro head isHead known isPlace
    have lists := holds.listed head isHead known isPlace
    refine ⟨lists.formers, ?_, lists.caseHead⟩
    rw [← List.map_drop, List.forall_mem_map]
    exact lists.seats

namespace AllWhole

theorem nil : AllWhole [] :=
  nofun

theorem cons (first : part.node.Whole) (rest : AllWhole inner) : AllWhole (part :: inner) :=
  List.forall_mem_cons.mpr ⟨first, rest⟩

theorem head (all : AllWhole (part :: inner)) : part.node.Whole :=
  all part List.mem_cons_self

theorem tail (all : AllWhole (part :: inner)) : AllWhole inner :=
  fun other there => all other (List.mem_cons_of_mem _ there)

end AllWhole

/-- Steps for the items of a list that give whole children. -/
theorem FoldM.Safe.mapM_whole {β : Type} {act : β → FoldM (Child Node)} {items : List β}
    (acts : ∀ item, item ∈ items → Safe (act item) fun result => result.node.Whole) :
    Safe (items.mapM act) fun results => results.length = items.length ∧ AllWhole results := by
  have related : Safe (items.mapM act)
      (List.Forall₂ (fun _ (result : Child Node) => result.node.Whole) items) := Safe.mapM acts
  apply related.mono
  intro results related
  exact ⟨related.length_eq.symm, all_of_forall₂ related fun _ _ is => is⟩

namespace Node.Whole

theorem holds (whole : (Node.tree kind flags place inner).Whole) :
    kind.Holds place inner := by
  cases whole with
  | tree holds all => exact holds

theorem all (whole : (Node.tree kind flags place inner).Whole) : AllWhole inner := by
  cases whole with
  | tree holds all => exact all

theorem head {rest : List (Child Node)}
    (whole : (Node.tree kind flags place (part :: rest)).Whole) : part.node.Whole :=
  whole.all part List.mem_cons_self

theorem second {first : Child Node} {rest : List (Child Node)}
    (whole : (Node.tree kind flags place (first :: part :: rest)).Whole) : part.node.Whole :=
  whole.all part (List.mem_cons_of_mem _ List.mem_cons_self)

theorem at_index (whole : (Node.tree kind flags place inner).Whole) (index : Nat)
    (found : inner[index]? = some part) :
    part.node.Whole ∧ kind.takes index part.node = true :=
  ⟨whole.all part (List.mem_of_getElem? found), whole.holds.takes index part found⟩

/-- Other children in place of the present ones. -/
theorem replace (whole : (Node.tree kind flags place inner).Whole)
    (noList : Printer.listHead? kind = none) (same : others.length = inner.length)
    (takes : ∀ index child, others[index]? = some child → kind.takes index child.node = true)
    (all : AllWhole others) : (Node.tree kind flags place others).Whole :=
  .tree (whole.holds.replace noList same takes) all

/-- Another child at an index. -/
theorem set (whole : (Node.tree kind flags place inner).Whole)
    (noList : Printer.listHead? kind = none) (index : Nat) (partIs : part.node.Whole)
    (takes : kind.takes index part.node = true) :
    (Node.tree kind flags place (inner.set index part)).Whole := by
  apply whole.replace noList (List.length_set ..)
  · intro other found isFound
    rw [List.getElem?_set] at isFound
    split at isFound
    case isTrue same =>
      subst same
      split at isFound
      · cases isFound
        exact takes
      · cases isFound
    case isFalse => exact whole.holds.takes other found isFound
  · intro found there
    rcases List.mem_or_eq_of_mem_set there with there | rfl
    · exact whole.all found there
    · exact partIs

theorem made (counts : kind.counts nodes.length = true)
    (takes : ∀ index node, nodes[index]? = some node → kind.takes index node = true)
    (all : ∀ node, node ∈ nodes → node.Whole) : (Node.made kind nodes).Whole := by
  apply Node.Whole.tree (.made counts takes)
  intro child there
  obtain ⟨node, isNode, rfl⟩ := List.mem_map.mp there
  exact all node isNode

theorem children (whole : node.Whole) : ∀ inner, inner ∈ node.children → inner.Whole := by
  cases whole with
  | absent | leaf => simp [Node.children, Node.seated]
  | tree holds all =>
      intro inner there
      obtain ⟨child, isChild, rfl⟩ := List.mem_map.mp there
      exact all child isChild

/-- A child that nodes of this kind always have. -/
theorem childAt (whole : node.Whole) (isKind : node.kind? = some kind)
    (needs : kind.needs index = true) :
    ∃ inner, node.childAt index = .ok inner ∧ inner.Whole := by
  cases whole with
  | absent | leaf => cases isKind
  | @tree kind flags place children holds all =>
      cases isKind
      have found := List.getElem?_eq_getElem (Kind.lt_of_needs needs holds.counts)
      refine ⟨_, ?_, all _ (List.mem_of_getElem? found)⟩
      simp only [Node.childAt, found]

theorem child (whole : node.Whole) (index : Nat) : (node.child index).Whole := by
  rw [Node.child, List.getD_eq_getElem?_getD]
  cases found : node.children[index]? with
  | none => exact .absent
  | some inner => exact whole.children inner (List.mem_of_getElem? found)

/-- A child that a node is asked for and has. -/
theorem branch (whole : (Node.tree kind flags place inner).Whole)
    (needs : kind.needs index = true) :
    ∃ child, inner[index]? = some child ∧
      Branch.child ⟨kind, flags, place, inner⟩ index = pure child ∧
      child.node.Whole ∧ kind.takes index child.node = true := by
  have found := List.getElem?_eq_getElem (Kind.lt_of_needs needs whole.holds.counts)
  refine ⟨_, found, ?_, whole.at_index _ found⟩
  simp only [Branch.child, found]

theorem copy (whole : node.Whole) : node.copy.Whole := by
  induction whole with
  | absent => exact .absent
  | leaf => exact .leaf
  | @tree kind flags place children holds all induction =>
      have copied : kind.Holds place (Node.copyAll children) := by
        rw [copyAll_eq_map]
        exact holds.copied
      have allCopied : AllWhole (Node.copyAll children) := by
        rw [copyAll_eq_map, AllWhole, List.forall_mem_map]
        exact induction
      cases place <;> exact .tree copied allCopied

end Node.Whole

end ScriptFold
