import ScriptFold.Proofs.Coupling.Control
import ScriptFold.Proofs.Scoping.Expression

/-!
# Declarations and the blocks they belong to

Folding moves statements outward: chosen branches, dissolved switches and the heads of loops that
never run join the list of statements around them.  `Supplies` says which block-scoped declarations
may come with them.
-/

namespace ScriptFold

open FoldM (Gives Returns)

/-- Whether a node declares names of the block it stands in: with `let` or `const`, as a class or
as a function. -/
def Node.isBlockScoped (node : Node) : Bool :=
  match node.kind? with
  | some .varDecl => (node.child 0).leafText?.any fun word => word.isOneOf ["let", "const"]
  | some .classDecl | some .functionDecl => true
  | _ => false

/-- A list of statements in which no program stands directly, and so on for the blocks in it. -/
inductive Node.IsFlat : Node → Prop where
  | intro {node : Node}
      (notProgram : node.kind? = some .program ∨ node.kind? = some .block →
        ∀ child, child ∈ node.children → child.kind? ≠ some .program)
      (flat : node.kind? = some .program ∨ node.kind? = some .block →
        ∀ child, child ∈ node.children → child.IsFlat) :
      IsFlat node

/-- A node that lists of statements take as one statement. -/
structure Node.IsItem (node : Node) : Prop where
  notProgram : node.kind? ≠ some .program
  flat : node.IsFlat

/-- A test that folding finds to hold or not. -/
def Settles (walker : Walker) (test : Child Node) (truth : Bool) : Prop :=
  ∃ folded value, Returns (Operation.test walker test) folded ∧
    Literal.value? folded.node = .ok (some value) ∧ value.isTruthy = truth

/-- How a statement comes to bring a block-scoped declaration to the statements around it: it is
that declaration, or a loop that never runs with the declaration in its head, or an `if` whose
chosen branch brings it. -/
inductive Supplies (walker : Walker) : Node → Node → Prop where
  | itself {former result : Node} (isScoped : former.isBlockScoped = true)
      (walked : Returns (walker.walk former) (.same result)) : Supplies walker former result
  | head {flags : Flags} {place : Option Place} {initial test update body : Child Node}
      {result : Node} (isDeclaration : initial.node.isKind .varDecl = true)
      (isScoped : initial.node.isBlockScoped = true)
      (walked : Returns (walker.walk initial.node) (.same result))
      (settles : Settles walker test false) :
      Supplies walker (.tree .forStmt flags place [initial, test, update, body])
        (.made .varDecl result.children)
  | branch {flags : Flags} {place : Option Place} {test consequent alternate : Child Node}
      {truth : Bool} {result : Node} (settles : Settles walker test truth)
      (supplies : Supplies walker (if truth then consequent else alternate).node result) :
      Supplies walker (.tree .ifStmt flags place [test, consequent, alternate]) result

/-- A node that stands where another stood and brings no block-scoped declaration but those that
the other supplies. -/
structure Brings (walker : Walker) (former result : Node) : Prop where
  isItem : result.IsItem
  supplies : result.isBlockScoped = true → Supplies walker former result

/-- What folding makes of a node: every statement in its place brings only what the node
supplies. -/
inductive Folded.Passes (walker : Walker) (former : Node) : Folded → Prop where
  | same {node : Node} (sameKind : node.kind? = former.kind?)
      (sameScope : node.isBlockScoped = former.isBlockScoped) (flat : node.IsFlat) :
      Passes walker former (.same node)
  | instead {node : Node} (brings : Brings walker former node) :
      Passes walker former (.instead node)
  | statements {nodes : List Node}
      (bring : ∀ node, node ∈ nodes.flatMap Slot.splice → Brings walker former node) :
      Passes walker former (.statements nodes)
  | removed : Passes walker former .removed

variable {walker : Walker} {former result : Node} {branch : Branch} {levels : Nat}

/-! ### Items of lists -/

namespace Node

theorem isItem_of_kind {node : Node} (notProgram : node.kind? ≠ some .program)
    (notBlock : node.kind? ≠ some .block) : node.IsItem :=
  ⟨notProgram, .intro (fun isList => (isList.elim notProgram notBlock).elim)
    fun isList => (isList.elim notProgram notBlock).elim⟩

theorem isBlockScoped_of_kind {node : Node}
    (isScoped : node.isBlockScoped = true) : node.kind? = some .varDecl ∨
      node.kind? = some .classDecl ∨ node.kind? = some .functionDecl := by
  unfold isBlockScoped at isScoped
  split at isScoped
  case h_1 isKind => exact .inl isKind
  case h_2 isKind => exact .inr (.inl isKind)
  case h_3 isKind => exact .inr (.inr isKind)
  case h_4 => cases isScoped

/-- Apart from declarations with a word, the kind decides. -/
theorem isBlockScoped_congr {node other : Node} (sameKind : node.kind? = other.kind?)
    (sameWord : other.kind? = some .varDecl → node.child 0 = other.child 0) :
    node.isBlockScoped = other.isBlockScoped := by
  unfold isBlockScoped
  rw [sameKind]
  split
  case h_1 isKind => rw [sameWord isKind]
  all_goals rfl

theorem isItem_of_notStatement {node : Node} (notStatement : node.isStatement = false) :
    node.IsItem := by
  apply isItem_of_kind
  · intro isProgram
    rw [isStatement_of_kind isProgram] at notStatement
    cases notStatement
  · intro isBlock
    rw [isStatement_of_kind isBlock] at notStatement
    cases notStatement

theorem not_isBlockScoped_of_notStatement {node : Node} (notStatement : node.isStatement = false) :
    node.isBlockScoped = false := by
  apply Bool.eq_false_iff.mpr
  intro isScoped
  rcases isBlockScoped_of_kind isScoped with isKind | isKind | isKind <;>
    (rw [isStatement_of_kind isKind] at notStatement; cases notStatement)

theorem children_made (kind : Kind) (nodes : List Node) : (made kind nodes).children = nodes := by
  show (unseated nodes).map Child.node = nodes
  simp [unseated, Function.comp_def]

theorem isFlat_of_items {node : Node} (items : ∀ child, child ∈ node.children → child.IsItem) :
    node.IsFlat :=
  .intro (fun _ child there => (items child there).notProgram)
    fun _ child there => (items child there).flat

private theorem isItem_block {nodes : List Node} (items : ∀ node, node ∈ nodes → node.IsItem) :
    (made .block nodes).IsItem := by
  refine ⟨nofun, isFlat_of_items fun child there => ?_⟩
  rw [children_made] at there
  exact items child there

/-- The statements of a flat list. -/
theorem IsFlat.item {node child : Node} (flat : node.IsFlat)
    (isList : node.kind? = some .program ∨ node.kind? = some .block)
    (there : child ∈ node.children) : child.IsItem := by
  cases flat with
  | intro notProgram flat => exact ⟨notProgram isList child there, flat isList child there⟩

end Node

theorem Brings.of_not_scoped (isItem : result.IsItem) (notScoped : result.isBlockScoped = false) :
    Brings walker former result := by
  refine ⟨isItem, fun isScoped => ?_⟩
  rw [notScoped] at isScoped
  cases isScoped

theorem Brings.of_notStatement (notStatement : result.isStatement = false) :
    Brings walker former result :=
  .of_not_scoped (Node.isItem_of_notStatement notStatement)
    (Node.not_isBlockScoped_of_notStatement notStatement)

theorem brings_expression {nodes : List Node} : Brings walker former (.made .exprStmt nodes) :=
  .of_not_scoped (Node.isItem_of_kind nofun nofun) rfl

theorem brings_empty : Brings walker former (.made .emptyStmt []) :=
  .of_not_scoped (Node.isItem_of_kind nofun nofun) rfl

theorem brings_block {nodes : List Node} (items : ∀ node, node ∈ nodes → node.IsItem) :
    Brings walker former (.made .block nodes) :=
  .of_not_scoped (Node.isItem_block items) rfl

/-- A node that stays brings what it declares itself. -/
theorem brings_same {node : Node} (walked : Returns (walker.walk former) (.same node))
    (sameScope : node.isBlockScoped = former.isBlockScoped) (isItem : node.IsItem) :
    Brings walker former node :=
  ⟨isItem, fun isScoped => .itself (sameScope.symm.trans isScoped) walked⟩

/-- A node of most kinds that stays. -/
theorem Folded.Keeps.passes {folded : Folded} (keeps : folded.Keeps former)
    (notProgram : former.kind? ≠ some .program) (notBlock : former.kind? ≠ some .block)
    (notDeclaration : former.kind? ≠ some .varDecl) : folded.Passes walker former := by
  obtain ⟨node, rfl, sameKind⟩ := keeps
  apply Passes.same sameKind
  · exact Node.isBlockScoped_congr sameKind fun isDeclaration => absurd isDeclaration notDeclaration
  · rw [← sameKind] at notProgram notBlock
    exact (Node.isItem_of_kind notProgram notBlock).flat

theorem Folded.passes_of_removed_or_keeps {folded : Folded}
    (is : folded = .removed ∨ folded.Keeps former) (notProgram : former.kind? ≠ some .program)
    (notBlock : former.kind? ≠ some .block) (notDeclaration : former.kind? ≠ some .varDecl) :
    folded.Passes walker former := by
  rcases is with rfl | keeps
  · exact .removed
  · exact keeps.passes notProgram notBlock notDeclaration

theorem Folded.Expresses.passes {folded : Folded} (expresses : folded.Expresses former)
    (notStatement : former.isStatement = false) : folded.Passes walker former := by
  cases expresses with
  | @same node sameKind =>
      have notNode : node.isStatement = false := by rwa [Node.isStatement, sameKind]
      apply Passes.same sameKind
      · rw [Node.not_isBlockScoped_of_notStatement notStatement,
          Node.not_isBlockScoped_of_notStatement notNode]
      · exact (Node.isItem_of_notStatement notNode).flat
  | «instead» notNode => exact .instead (.of_notStatement notNode)
  | removed => exact .removed

/-! ### Lists of statements -/

namespace Slot

/-- A node that is no program adds itself, or an expression statement of its own. -/
theorem mem_splice {node statement : Node} (notProgram : node.kind? ≠ some .program)
    (there : statement ∈ splice node) : statement = node ∨ statement = .made .exprStmt [node] := by
  unfold splice at there
  split at there
  case h_1 => cases there
  case h_2 => exact .inl (List.mem_singleton.mp there)
  case h_3 => cases there
  case h_4 => exact absurd rfl notProgram
  case h_5 => cases there
  case h_6 =>
    dsimp only at there
    split at there
    · exact .inl (List.mem_singleton.mp there)
    · exact .inr (List.mem_singleton.mp there)

theorem splice_brings {node : Node} (brings : Brings walker former node) :
    ∀ statement, statement ∈ splice node → Brings walker former statement := by
  intro statement there
  rcases mem_splice brings.isItem.notProgram there with rfl | rfl
  · exact brings
  · exact brings_expression

/-- What a folded statement adds to a list. -/
theorem spliceFolded_brings {seat : Option Nat} {folded : Folded}
    (notProgram : former.kind? ≠ some .program) (walked : Returns (walker.walk former) folded)
    (passes : folded.Passes walker former) :
    ∀ child, child ∈ spliceFolded seat folded → Brings walker former child.node := by
  intro child there
  cases passes with
  | removed => cases there
  | statements bring => exact bring _ (mem_unseated there)
  | «instead» brings => exact splice_brings brings _ (mem_unseated there)
  | @same node sameKind sameScope flat =>
      have brings := brings_same walked sameScope ⟨sameKind ▸ notProgram, flat⟩
      rw [spliceFolded] at there
      split at there
      · rw [List.mem_singleton.mp there]
        exact brings
      · exact splice_brings brings _ (mem_unseated there)

theorem statements_bring {children : List (Child Node)}
    (walks : ∀ child, child ∈ children → child.node.kind? ≠ some .program ∧
      Gives (walker.walk child.node) (Folded.Passes walker child.node)) :
    Gives (statements walker children) fun results => ∀ result, result ∈ results →
      ∃ child, child ∈ children ∧ Brings walker child.node result.node := by
  induction children with
  | nil => exact .of_pure nofun
  | cons child rest induction =>
      rw [List.forall_mem_cons] at walks
      obtain ⟨⟨notProgram, walk⟩, walkRest⟩ := walks
      apply walk.returning.bind
      rintro folded ⟨walked, passes⟩
      apply (induction walkRest).bind
      intro others bring
      apply Gives.of_pure
      intro result there
      rcases List.mem_append.mp there with isFirst | isOther
      · exact ⟨child, List.mem_cons_self, spliceFolded_brings notProgram walked passes _ isFirst⟩
      · obtain ⟨other, isChild, brings⟩ := bring result isOther
        exact ⟨other, List.mem_cons_of_mem _ isChild, brings⟩

/-! ### Single statements -/

theorem single_brings {nodes : List Node}
    (bring : ∀ node, node ∈ nodes → Brings walker former node) :
    Brings walker former (single nodes) := by
  unfold single
  split
  · exact brings_empty
  · exact bring _ List.mem_cons_self
  · exact brings_block fun node there => (bring node there).isItem

theorem statementOf_brings {seat : Option Nat} {outcome : Outcome} (flat : outcome.node.IsFlat)
    (supplies : outcome.node.isBlockScoped = true → Supplies walker former outcome.node) :
    Brings walker former (statementOf seat outcome).node := by
  unfold statementOf
  split
  case h_1 isProgram => exact brings_block fun child there => flat.item (.inl isProgram) there
  case h_2 kind notProgram isKind =>
    split
    · rw [node_inSeat]
      refine ⟨⟨fun isProgram => ?_, flat⟩, supplies⟩
      rw [isKind] at isProgram
      exact notProgram (Option.some.inj isProgram)
    · exact brings_expression
  case h_3 isNone =>
    split
    · exact brings_empty
    · rw [node_inSeat]
      refine ⟨⟨fun isProgram => ?_, flat⟩, supplies⟩
      rw [isNone] at isProgram
      cases isProgram

theorem statement_brings {child : Child Node}
    (walks : Gives (walker.walk child.node) (Folded.Passes walker child.node)) :
    Gives (statement walker child) fun result => Brings walker child.node result.node := by
  unfold statement
  split
  case isTrue isAbsent =>
    apply Gives.of_pure
    apply Brings.of_notStatement
    revert isAbsent
    cases child.node <;> first | exact fun _ => rfl | nofun
  case isFalse =>
    apply walks.returning.bind
    rintro folded ⟨walked, passes⟩
    cases passes with
    | removed => exact .of_pure brings_empty
    | statements bring => exact .of_pure (single_brings bring)
    | «instead» brings =>
        exact .of_pure (statementOf_brings brings.isItem.flat brings.supplies)
    | @same node sameKind sameScope flat =>
        have supplies : node.isBlockScoped = true → Supplies walker child.node node :=
          fun isScoped => .itself (sameScope.symm.trans isScoped) walked
        have brings : Brings walker child.node (statementOf child.seat (.same node)).node :=
          statementOf_brings flat supplies
        exact .of_pure brings

/-! ### Chosen branches -/

theorem declaresInBlock_of_isBlockScoped {node : Node} (isScoped : node.isBlockScoped = true) :
    declaresInBlock node = .ok true := by
  rcases Node.isBlockScoped_of_kind isScoped with isKind | isKind | isKind
  · cases node with
    | absent | leaf => cases isKind
    | tree kind flags place children =>
        cases isKind
        match children with
        | [] => cases isScoped
        | ⟨_, .absent⟩ :: _ | ⟨_, .tree _ _ _ _⟩ :: _ => cases isScoped
        | ⟨_, .leaf token⟩ :: _ => exact congrArg Except.ok isScoped
  · rw [declaresInBlock, isKind]
    rfl
  · rw [declaresInBlock, isKind]
    rfl

theorem not_isBlockScoped_of_anyM {nodes : List Node}
    (declares : nodes.anyM declaresInBlock = .ok false) :
    ∀ node, node ∈ nodes → node.isBlockScoped = false := by
  induction nodes with
  | nil => nofun
  | cons node rest induction =>
      rw [List.anyM_cons] at declares
      obtain ⟨first, isFirst, declares⟩ := Calculation.of_bind_eq_ok declares
      cases first with
      | true => cases declares
      | false =>
          rw [List.forall_mem_cons]
          refine ⟨Bool.eq_false_iff.mpr fun isScoped => ?_, induction declares⟩
          rw [declaresInBlock_of_isBlockScoped isScoped] at isFirst
          cases isFirst

/-- A chosen branch brings what it brought before: the statements of a block only come out of it
if they declare nothing in it. -/
theorem unwrapBlock_passes {node : Node} (brings : Brings walker former node) :
    Gives (unwrapBlock node) (Folded.Passes walker former) := by
  unfold unwrapBlock
  split
  · exact .of_pure .removed
  · exact .of_pure .removed
  case h_3 isBlock =>
    apply Gives.of_calculate.bind
    intro declares known
    cases declares with
    | true => exact .of_pure (.instead brings)
    | false =>
        apply Gives.of_pure
        apply Folded.Passes.statements
        intro statement there
        obtain ⟨child, isChild, there⟩ := List.mem_flatMap.mp there
        apply splice_brings _ _ there
        exact .of_not_scoped (brings.isItem.flat.item (.inr isBlock) isChild)
          (not_isBlockScoped_of_anyM known child isChild)
  · exact .of_pure (.instead brings)

end Slot

end ScriptFold
