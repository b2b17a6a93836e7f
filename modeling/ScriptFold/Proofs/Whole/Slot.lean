import ScriptFold.Fold.Name
import ScriptFold.Proofs.Whole.Basic

/-!
# Folding the children of whole trees

If a walker folds whole nodes safely, then so do the positions of a tree.  What comes of a
child is whole again, and what stays in its place keeps its kind.
-/

namespace ScriptFold

open Calculation (Slips slips_ok)
open FoldM (Safe)

variable {walker : Walker} {node former : Node} {nodes : List Node} {child : Child Node}
variable {kind : Kind} {flags : Flags} {place : Option Place} {children others : List (Child Node)}

/-! ### Literals -/

namespace Literal

theorem tokenValue?_slips (token : Leaf) : Slips (tokenValue? token) := by
  unfold tokenValue?
  split
  · exact Slips.bind Numeral.literal_slips fun _ _ => slips_ok _
  · exact Slips.bind StringLiteral.decode_slips fun _ _ => slips_ok _
  all_goals exact slips_ok _

theorem keyName?_slips (key : Option Value) : Slips (keyName? key) := by
  cases key with
  | none => exact slips_ok _
  | some value => exact Value.propertyKey_slips

theorem keyText_slips (key : Value) : Slips (keyText key) := by
  unfold keyText
  split
  · exact slips_ok _
  · exact Value.toText_slips _

/-- Writing a value can only fail at a number or a key. -/
theorem ofValue?_slips (value : Value) : Slips (ofValue? value) := by
  refine ofValue?.induct (fun value => Slips (ofValue? value))
    (fun entries => Slips (ofEntries? entries)) (fun items => Slips (ofItems? items))
    ?undefined ?null ?isTrue ?isFalse ?num ?str ?list ?tuple ?record ?function ?sealed
    ?noItems ?item ?noEntries ?entry value
  case undefined | null | isTrue | isFalse | str | function | sealed | noItems | noEntries =>
    intros
    exact slips_ok _
  case num =>
    intro number
    rw [ofValue?]
    exact Slips.bind Num.literalText_slips fun _ _ => slips_ok _
  case list | tuple =>
    intro items induction
    rw [ofValue?]
    exact induction.bind fun _ _ => slips_ok _
  case record =>
    intro entries induction
    rw [ofValue?]
    exact induction.bind fun _ _ => slips_ok _
  case item =>
    intro item rest itemIs restAre
    rw [ofItems?]
    apply itemIs.bind
    intro first _
    cases first with
    | none => exact slips_ok _
    | some node => exact restAre.bind fun _ _ => slips_ok _
  case entry =>
    intro key value rest valueIs restAre
    rw [ofEntries?]
    apply valueIs.bind
    intro first _
    cases first with
    | none => exact slips_ok _
    | some node =>
        exact (keyText_slips key).bind fun _ _ => restAre.bind fun _ _ => slips_ok _

/-- The entry that a member of an object adds, and the entries of the members behind it. -/
theorem entry_slips {key : Except Fault (Option Value)} {value : Except Fault (Option Value)}
    {next : Text → Value → Except Fault (Option (List (Value × Value)))} (keyIs : Slips key)
    (valueIs : Slips value) (nextAre : ∀ name known, Slips (next name known)) :
    Slips (do
      match ← keyName? (← key) with
      | none => return none
      | some name =>
          match ← value with
          | none => return none
          | some known => next name known) := by
  apply keyIs.bind
  intro known _
  apply (keyName?_slips known).bind
  intro name _
  cases name with
  | none => exact slips_ok _
  | some name =>
      apply valueIs.bind
      intro known _
      cases known with
      | none => exact slips_ok _
      | some known => exact nextAre name known

/-- Reading the value of a whole node can only fail at a token or a key. -/
theorem value?_slips {node : Node} (whole : node.Whole) : Slips (value? node) := by
  revert whole
  refine value?.induct (fun node => node.Whole → Slips (value? node))
    (fun earlier members => AllWhole members → Slips (entries? earlier members))
    (fun elements => AllWhole elements → Slips (values? elements))
    ?literal ?paren ?statement ?emptyParen ?emptyStatement ?void ?notVoid ?oddUnary ?template
    ?array ?object ?other ?noMember ?notNamed ?named ?computed ?emptyKey ?keyed ?oddProperty
    ?notProperty ?noElement ?element node
  case literal =>
    intro flags place seat token tail whole
    rw [value?]
    exact tokenValue?_slips token
  case paren | statement =>
    intro flags place seat inner tail induction whole
    rw [value?]
    exact induction whole.head
  case emptyParen | emptyStatement =>
    intro flags place whole
    cases whole.holds.counts
  case void =>
    intro flags place seat op otherSeat operand isVoid induction whole
    rw [value?, if_pos isVoid]
    exact (induction whole.second).bind fun _ _ => slips_ok _
  case notVoid =>
    intro flags place seat op otherSeat operand notVoid whole
    rw [value?, if_neg notVoid]
    exact slips_ok _
  case oddUnary =>
    intro flags place children notTwo whole
    obtain ⟨⟨seat, op⟩, ⟨otherSeat, operand⟩, rfl⟩ :=
      List.length_eq_two.mp (beq_iff_eq.mp whole.holds.counts)
    exact (notTwo seat op otherSeat operand rfl).elim
  case template =>
    intro flags place seat piece whole
    rw [value?]
    exact Slips.bind StringLiteral.unescape_slips fun _ _ => slips_ok _
  case array | object =>
    intro flags place parts induction whole
    rw [value?]
    exact (induction whole.all).bind fun _ _ => slips_ok _
  case other =>
    intros
    rw [value?]
    · exact slips_ok _
    all_goals assumption
  case noMember | noElement =>
    intros
    exact slips_ok _
  case notNamed =>
    intro earlier seat flags place keySeat token valueSeat value rest notName all
    rw [entries?, if_pos notName]
    exact slips_ok _
  case named =>
    intro earlier seat flags place keySeat token valueSeat value rest isName valueIs restAre all
    rw [entries?, if_neg isName]
    have whole := all.head
    apply (valueIs whole.second).bind
    intro known _
    cases known with
    | none => exact slips_ok _
    | some known => exact restAre known all.tail
  case computed =>
    intro earlier seat flags place keySeat keyFlags keyPlace innerSeat key tail valueSeat value rest
      keyIs valueIs restAre all
    have whole := all.head
    rw [entries?]
    exact entry_slips (keyIs whole.head.head) (valueIs whole.second) fun name known =>
      restAre name known all.tail
  case emptyKey =>
    intro earlier seat flags place keySeat keyFlags keyPlace head tail all
    cases (all.head).head.holds.counts
  case keyed =>
    intro earlier seat flags place keySeat key valueSeat value rest notLeaf notComputed notEmpty
      keyIs valueIs restAre all
    have whole := all.head
    rw [entries?]
    · exact entry_slips (keyIs whole.head) (valueIs whole.second) fun name known =>
        restAre name known all.tail
    all_goals assumption
  case oddProperty =>
    intro earlier seat flags place children tail _ _ _ notTwo all
    obtain ⟨⟨keySeat, key⟩, ⟨valueSeat, value⟩, rfl⟩ :=
      List.length_eq_two.mp (beq_iff_eq.mp (all.head).holds.counts)
    exact (notTwo keySeat key valueSeat value rfl).elim
  case notProperty =>
    intros
    rw [entries?]
    · exact slips_ok _
    all_goals assumption
  case element =>
    intro seat node rest nodeIs restAre all
    rw [values?]
    apply (nodeIs (all.head)).bind
    intro known _
    cases known with
    | none => exact slips_ok _
    | some known =>
        exact (restAre all.tail).bind fun _ _ => slips_ok _

theorem isConstant_slips {node : Node} (whole : node.Whole) : Slips (isConstant node) :=
  (value?_slips whole).bind fun _ _ => slips_ok _

theorem isPrimitive_slips (node : Node) : Slips (isPrimitive node) := by
  unfold isPrimitive
  split
  · exact (tokenValue?_slips _).bind fun _ _ => slips_ok _
  · exact slips_ok _

end Literal

/-! ### What folding gives -/

/-- All nodes that a fold gives are whole. -/
def Folded.Whole : Folded → Prop
  | .same node | .instead node => node.Whole
  | .statements nodes => ∀ node, node ∈ nodes → node.Whole
  | .removed => True

/-- What folding makes of a whole node: whole nodes.  If it is the node itself it has its kind,
and a steady node stays. -/
structure FoldsWhole (former : Node) (folded : Folded) : Prop where
  whole : folded.Whole
  sameKind : ∀ node, folded = .same node → node.kind? = former.kind?
  stays : former.isSteady = true → ∃ node, folded = .same node

/-- What takes the place of a node is whole, and it is not the node itself. -/
def Folded.IsNew : Folded → Prop
  | .same _ => False
  | folded => folded.Whole

theorem FoldsWhole.of_isNew {folded : Folded} (isNew : folded.IsNew)
    (notSteady : former.isSteady = false) :
    FoldsWhole former folded := by
  refine ⟨?_, ?_, fun steady => ?_⟩
  · cases folded with
    | same => cases isNew
    | «instead» | statements | removed => exact isNew
  · rintro node rfl
    cases isNew
  · rw [notSteady] at steady
    cases steady

theorem FoldsWhole.keep (whole : (Node.tree kind flags place others).Whole) :
    FoldsWhole (.tree kind flags place children)
      (Branch.keep ⟨kind, flags, place, children⟩ others) := by
  refine ⟨whole, ?_, fun _ => ⟨_, rfl⟩⟩
  intro node same
  cases same
  rfl

theorem Folded.isNew_ofNode (whole : node.Whole) : (Folded.ofNode node).IsNew := by
  cases node with
  | absent => trivial
  | leaf | tree => exact whole

/-- A host all of whose functions have answers. -/
def Host.IsTotal (host : Host) : Prop :=
  ∀ name arguments, ∃ value, host.call name arguments = .ok value

/-- A walker that folds whole nodes safely. -/
structure Walker.IsSafe (walker : Walker) : Prop where
  answers : walker.context.host.IsTotal
  fragments : ∀ entry, entry ∈ walker.context.fragments → entry.2.Whole
  walk : ∀ node, node.Whole → Safe (walker.walk node) (FoldsWhole node)
  expand : ∀ call name, call.toNode.Whole → call.kind = .call ∨ call.kind = .newExpr →
    Safe (walker.expand call name) (FoldsWhole call.toNode)

/-- What folding makes of a child: a whole node, and one of the same kind if it keeps a seat. -/
structure Child.Refolds (former child : Child Node) : Prop where
  whole : child.node.Whole
  sameKind : child.seat.isSome = true → child.node.kind? = former.node.kind?

theorem FoldM.Safe.of_childAt {index : Nat} (whole : node.Whole)
    (isKind : node.kind? = some kind) (needs : kind.needs index = true) :
    Safe (FoldM.calculate (node.childAt index)) Node.Whole := by
  obtain ⟨inner, isInner, innerIs⟩ := whole.childAt isKind needs
  rw [isInner]
  exact .of_pure innerIs

namespace Slot

theorem valueOf_safe (whole : node.Whole) : Safe (valueOf node) fun _ => True :=
  (Safe.of_calculate (Literal.value?_slips whole)).mono fun _ _ => trivial

/-- A node of a kind that takes any children. -/
theorem made_whole (counts : kind.counts nodes.length = true)
    (free : ∀ index node, kind.takes index node = true) (all : ∀ node, node ∈ nodes → node.Whole) :
    (Node.made kind nodes).Whole :=
  .made counts (fun index node _ => free index node) all

theorem ofWord_whole (type : LeafType) (text : Text) : (Literal.ofWord type text).Whole := by
  apply Node.Whole.made rfl
  · intro index node found
    cases index with
    | zero =>
        cases found
        rfl
    | succ => cases found
  · simp [Node.word, Node.Whole.leaf]

theorem voidZero_whole : Literal.voidZero.Whole := by
  apply Node.Whole.made rfl
  · intro index node found
    cases index with
    | zero =>
        cases found
        rfl
    | succ => rfl
  · simp [Node.word, Node.Whole.leaf, ofWord_whole]

private theorem makesLiterals_whole : MakesLiterals Node.Whole := by
  refine ⟨ofWord_whole, voidZero_whole, fun _ => made_whole rfl fun _ _ => rfl, ?_⟩
  intro members membersAre
  apply Node.Whole.made rfl
  · intro index member found
    obtain ⟨key, value, rfl, _⟩ := membersAre member (List.mem_of_getElem? found)
    rfl
  · intro member there
    obtain ⟨key, value, rfl, whole⟩ := membersAre member there
    apply made_whole rfl fun _ _ => rfl
    simp [ofWord_whole, whole]

theorem nodeOf_safe (value : Value) :
    Safe (nodeOf value) fun found => ∀ node, found = some node → node.Whole := by
  apply (Safe.of_calculate (Literal.ofValue?_slips value)).mono
  rintro found written node rfl
  exact makesLiterals_whole.ofValue? written

theorem expressionOf_safe {seat : Option Nat} {outcome : Outcome} (whole : outcome.node.Whole) :
    Safe (expressionOf former seat outcome) fun child =>
      child.node.Whole ∧ (child.seat.isSome = true → outcome = .same child.node) := by
  have inSeat : Safe (pure (outcome.inSeat seat)) fun child : Child Node =>
      child.node.Whole ∧ (child.seat.isSome = true → outcome = .same child.node) := by
    cases outcome with
    | same node => exact .of_pure ⟨whole, fun _ => rfl⟩
    | «instead» node => exact .of_pure ⟨whole, nofun⟩
  unfold expressionOf
  split
  case h_2 => exact inSeat
  case h_1 kind isKind =>
    by_cases isStatement : kind.isStatement = true
    · rw [if_pos isStatement]
      by_cases isExpression : kind = .exprStmt
      · subst isExpression
        apply (Safe.of_childAt whole isKind rfl).bind
        intro inner innerIs
        exact .of_pure ⟨innerIs, nofun⟩
      · rw [if_neg isExpression]
        exact .of_fail
    · rw [if_neg isStatement]
      exact inSeat

theorem expression_safe (safe : walker.IsSafe) (whole : child.node.Whole) :
    Safe (expression walker child) child.Refolds := by
  unfold expression
  by_cases isAbsent : child.node.isAbsent = true
  · rw [if_pos isAbsent]
    exact .of_pure ⟨whole, fun _ => rfl⟩
  · rw [if_neg isAbsent]
    apply (safe.walk child.node whole).bind
    intro folded folds
    cases folded with
    | removed => exact .of_pure ⟨voidZero_whole, nofun⟩
    | statements nodes =>
        cases nodes with
        | nil => exact .of_pure ⟨voidZero_whole, nofun⟩
        | cons => exact .of_fail
    | same node =>
        have whole : (Outcome.same node).node.Whole := folds.whole
        apply (expressionOf_safe whole).mono
        rintro result ⟨resultIs, isSame⟩
        refine ⟨resultIs, fun seated => ?_⟩
        cases isSame seated
        exact folds.sameKind _ rfl
    | «instead» node =>
        have whole : (Outcome.instead node).node.Whole := folds.whole
        apply (expressionOf_safe whole).mono
        rintro result ⟨resultIs, isSame⟩
        refine ⟨resultIs, fun seated => ?_⟩
        cases isSame seated

/-! ### Statements -/

theorem exprStmt_whole (whole : node.Whole) : (Node.made .exprStmt [node]).Whole :=
  made_whole rfl (fun _ _ => rfl) (by simp [whole])

theorem emptyStmt_whole : (Node.made .emptyStmt []).Whole :=
  made_whole rfl (fun _ _ => rfl) nofun

theorem block_whole (all : ∀ node, node ∈ nodes → node.Whole) : (Node.made .block nodes).Whole :=
  made_whole rfl (fun _ _ => rfl) all

/-- What a whole node adds to a list of statements. -/
theorem splice_whole (whole : node.Whole) :
    ∀ statement, statement ∈ splice node → statement.Whole := by
  revert whole
  refine splice.induct
    (fun node => node.Whole → ∀ statement, statement ∈ splice node → statement.Whole)
    (fun children => AllWhole children →
      ∀ statement, statement ∈ spliceAll children → statement.Whole)
    ?absent ?leaf ?empty ?program ?emptyBlock ?statement ?expression ?none ?cons node
  case absent | empty | emptyBlock | none =>
    intros
    rename_i there
    cases there
  case leaf =>
    intro token whole statement there
    rw [splice, List.mem_singleton] at there
    rw [there]
    exact whole
  case program =>
    intro flags place children induction whole
    rw [splice]
    exact induction whole.all
  case statement =>
    intro kind flags place children notEmpty notProgram notBlock isStatement whole statement there
    rw [splice] at there
    · rw [if_pos isStatement, List.mem_singleton] at there
      rw [there]
      exact whole
    all_goals assumption
  case expression =>
    intro kind flags place children notEmpty notProgram notBlock notStatement whole statement there
    rw [splice] at there
    · rw [if_neg notStatement, List.mem_singleton] at there
      rw [there]
      exact exprStmt_whole whole
    all_goals assumption
  case cons =>
    intro seat node rest nodeIs restAre all statement there
    rw [spliceAll, List.mem_append] at there
    exact there.elim (nodeIs all.head statement) (restAre all.tail statement)

theorem splices_whole (all : ∀ node, node ∈ nodes → node.Whole) :
    ∀ statement, statement ∈ nodes.flatMap splice → statement.Whole := by
  intro statement there
  obtain ⟨node, isNode, there⟩ := List.mem_flatMap.mp there
  exact splice_whole (all node isNode) statement there

/-- Children that came of some others: whole ones, and what has a seat had it before. -/
structure Renewed (former children : List (Child Node)) : Prop where
  whole : AllWhole children
  seats : ∀ child, child ∈ children → ∀ seat, child.seat = some seat →
    ∃ other, other ∈ former ∧ other.seat = some seat

theorem Renewed.nil {former : List (Child Node)} : Renewed former [] :=
  ⟨.nil, fun _ there => absurd there List.not_mem_nil⟩

private theorem spliceFolded_renewed {folded : Folded} (whole : folded.Whole) :
    Renewed [child] (spliceFolded child.seat folded) := by
  have unseated : ∀ nodes : List Node, (∀ node, node ∈ nodes → node.Whole) →
      Renewed [child] (Node.unseated nodes) := by
    intro nodes all
    constructor
    · rw [AllWhole, Node.unseated, List.forall_mem_map]
      exact all
    · rw [Node.unseated, List.forall_mem_map]
      intro node _ seat isSeat
      cases isSeat
  cases folded with
  | removed => exact .nil
  | statements nodes => exact unseated _ (splices_whole whole)
  | «instead» node => exact unseated _ (splice_whole whole)
  | same node =>
      rw [spliceFolded]
      by_cases stays : staysWhole node = true
      · rw [if_pos stays]
        exact ⟨.cons whole .nil, by simp⟩
      · rw [if_neg stays]
        exact unseated _ (splice_whole whole)

theorem statements_safe (safe : walker.IsSafe) (all : AllWhole children) :
    Safe (statements walker children) (Renewed children) := by
  induction children with
  | nil => exact .of_pure .nil
  | cons child rest induction =>
      apply (safe.walk child.node all.head).bind
      intro folded folds
      apply (induction all.tail).bind
      intro others othersAre
      have firstIs : Renewed [child] (spliceFolded child.seat folded) :=
        spliceFolded_renewed folds.whole
      apply Safe.of_pure
      constructor
      · intro part there
        exact (List.mem_append.mp there).elim (firstIs.whole part) (othersAre.whole part)
      · intro part there seat isSeat
        rcases List.mem_append.mp there with there | there
        · obtain ⟨other, isOther, sameSeat⟩ := firstIs.seats part there seat isSeat
          cases List.mem_singleton.mp isOther
          exact ⟨child, List.mem_cons_self, sameSeat⟩
        · obtain ⟨other, isOther, sameSeat⟩ := othersAre.seats part there seat isSeat
          exact ⟨other, List.mem_cons_of_mem _ isOther, sameSeat⟩

private theorem single_whole (all : ∀ node, node ∈ nodes → node.Whole) : (single nodes).Whole := by
  unfold single
  split
  · exact emptyStmt_whole
  · exact all _ List.mem_cons_self
  · exact block_whole all

theorem statementOf_whole {seat : Option Nat} {outcome : Outcome} (whole : outcome.node.Whole) :
    (statementOf seat outcome).node.Whole := by
  have inSeat : (outcome.inSeat seat).node.Whole := by
    cases outcome <;> exact whole
  unfold statementOf
  split
  · exact block_whole whole.children
  · split
    · exact inSeat
    · exact exprStmt_whole whole
  · split
    · exact emptyStmt_whole
    · exact inSeat

theorem statement_safe (safe : walker.IsSafe) (whole : child.node.Whole) :
    Safe (statement walker child) fun result => result.node.Whole := by
  unfold statement
  by_cases isAbsent : child.node.isAbsent = true
  · rw [if_pos isAbsent]
    exact .of_pure whole
  · rw [if_neg isAbsent]
    apply (safe.walk child.node whole).bind
    intro folded folds
    have foldedIs := folds.whole
    cases folded with
    | removed => exact .of_pure emptyStmt_whole
    | statements nodes => exact .of_pure (single_whole (splices_whole foldedIs))
    | same node =>
        have whole : (Outcome.same node).node.Whole := foldedIs
        exact .of_pure (statementOf_whole whole)
    | «instead» node =>
        have whole : (Outcome.instead node).node.Whole := foldedIs
        exact .of_pure (statementOf_whole whole)

/-- A steady node stays where it is. -/
theorem anyNode_safe (safe : walker.IsSafe) (whole : child.node.Whole)
    (steady : child.node.isSteady = true) :
    Safe (anyNode walker child) fun result =>
      result.node.Whole ∧ result.node.kind? = child.node.kind? := by
  apply (safe.walk child.node whole).bind
  intro folded folds
  obtain ⟨node, rfl⟩ := folds.stays steady
  exact .of_pure ⟨folds.whole, folds.sameKind node rfl⟩

/-- Every child of a node whose kind takes steady ones. -/
theorem steadyChildren_safe {act : Child Node → FoldM (Child Node)}
    (whole : (Node.tree kind flags place children).Whole) (noList : Printer.listHead? kind = none)
    (takes : ∀ index node, kind.takes index node = node.isSteady)
    (acts : ∀ child, child.node.Whole → child.node.isSteady = true →
      Safe (act child) fun result => result.node.Whole ∧ result.node.kind? = child.node.kind?) :
    Safe (children.mapM act) fun results => (Node.tree kind flags place results).Whole := by
  have steadily : Safe (children.mapM act) (List.Forall₂ (fun _ (result : Child Node) =>
      result.node.Whole ∧ result.node.isSteady = true) children) := by
    apply Safe.mapM
    intro child there
    obtain ⟨index, found⟩ := List.getElem?_of_mem there
    obtain ⟨childIs, fits⟩ := whole.at_index index found
    rw [takes] at fits
    apply (acts child childIs fits).mono
    rintro result ⟨resultIs, sameKind⟩
    exact ⟨resultIs, by rw [Node.isSteady, sameKind]; exact fits⟩
  apply steadily.mono
  intro results related
  apply whole.replace noList related.length_eq.symm
  · intro index child found
    obtain ⟨_, _, _, steady⟩ := at_of_forall₂ related found
    rw [takes]
    exact steady
  · exact all_of_forall₂ related fun _ _ is => is.1

/-- Every child of a node whose kind takes any. -/
theorem everyChild_safe (safe : walker.IsSafe) (whole : (Node.tree kind flags place children).Whole)
    (noList : Printer.listHead? kind = none) (free : ∀ index node, kind.takes index node = true) :
    Safe (everyChild walker ⟨kind, flags, place, children⟩)
      (FoldsWhole (.tree kind flags place children)) := by
  unfold everyChild
  refine Safe.bind (Safe.mapM_whole fun child there => ?_) ?_
  · have childIs := whole.all child there
    split
    · exact .of_pure childIs
    · split
      · exact statement_safe safe childIs
      · exact (expression_safe safe childIs).mono fun _ refolds => refolds.whole
  · rintro results ⟨sameLength, resultsAre⟩
    apply Safe.of_pure (FoldsWhole.keep _)
    exact whole.replace noList sameLength (fun index child _ => free index child.node) resultsAre

/-- A list of statements keeps its place, and its statements the seats they had. -/
theorem Renewed.lists {known : Place} {head : Nat} {former : List (Child Node)}
    (renewed : Renewed (former.drop head) (children.drop head)) (lists : known.Lists head former) :
    known.Lists head children := by
  refine ⟨lists.formers, ?_, lists.caseHead⟩
  intro child there seat isSeat
  obtain ⟨other, isOther, sameSeat⟩ := renewed.seats child there seat isSeat
  exact lists.seats other isOther seat sameSeat

/-- Statements in place of others, in a node that lists them. -/
theorem listing_whole {head : Nat} {former : List (Child Node)}
    (whole : (Node.tree kind flags place former).Whole)
    (isHead : Printer.listHead? kind = some head)
    (free : ∀ index node, kind.takes index node = true)
    (counts : kind.counts children.length = true) (all : AllWhole children)
    (renewed : Renewed (former.drop head) (children.drop head)) :
    (Node.tree kind flags place children).Whole := by
  refine .tree ⟨counts, fun index child _ => free index child.node, ?_⟩ all
  intro other isOther known isPlace
  rw [isHead] at isOther
  cases isOther
  exact renewed.lists (whole.holds.listed head isHead known isPlace)

theorem statementList_safe (safe : walker.IsSafe)
    (whole : (Node.tree kind flags place children).Whole)
    (isList : kind.category? = some .statementList) :
    Safe (statementList walker ⟨kind, flags, place, children⟩)
      (FoldsWhole (.tree kind flags place children)) := by
  unfold statementList
  by_cases isCase : kind = .switchCase
  · subst isCase
    cases children with
    | nil => cases whole.holds.counts
    | cons test rest =>
        apply (expression_safe safe whole.head).bind
        intro test refolds
        apply (statements_safe safe (AllWhole.tail whole.all)).bind
        intro statements renewed
        apply Safe.of_pure (FoldsWhole.keep _)
        exact listing_whole whole rfl (fun _ _ => rfl) rfl (.cons refolds.whole renewed.whole)
          renewed
  · rw [if_neg isCase]
    have counts : ∀ count, kind.counts count = true := by
      cases kind <;> first | exact absurd rfl isCase | exact fun _ => rfl | cases isList
    have isHead : Printer.listHead? kind = some 0 := by
      cases kind <;> first | exact absurd rfl isCase | rfl | cases isList
    have free : ∀ index node, kind.takes index node = true := by
      cases kind <;> first | exact fun _ _ => rfl | cases isList
    apply (statements_safe safe whole.all).bind
    intro statements renewed
    exact .of_pure (FoldsWhole.keep
      (listing_whole whole isHead free (counts _) renewed.whole renewed))

/-! ### Branches that are taken -/

theorem declaresInBlock_slips (whole : node.Whole) : Slips (declaresInBlock node) := by
  unfold declaresInBlock
  split
  case h_1 isKind =>
    obtain ⟨inner, isInner, _⟩ := whole.childAt isKind (show Kind.varDecl.needs 0 = true from rfl)
    rw [isInner]
    exact slips_ok _
  all_goals exact slips_ok _

theorem anyM_slips {α : Type} {test : α → Except Fault Bool} {items : List α}
    (tests : ∀ item, item ∈ items → Slips (test item)) : Slips (items.anyM test) := by
  induction items with
  | nil => exact slips_ok _
  | cons item rest induction =>
      rw [List.forall_mem_cons] at tests
      apply tests.1.bind
      intro holds _
      cases holds with
      | true => exact slips_ok _
      | false => exact induction tests.2

/-- What a chosen branch adds to the statements around it. -/
theorem unwrapBlock_safe (whole : node.Whole) : Safe (unwrapBlock node) Folded.IsNew := by
  unfold unwrapBlock
  split
  · exact .of_pure trivial
  · exact .of_pure trivial
  · have slips : Slips (node.children.anyM declaresInBlock) :=
      anyM_slips fun inner there => declaresInBlock_slips (whole.children inner there)
    apply (Safe.of_calculate slips).bind
    intro declares _
    apply Safe.of_pure
    split
    · exact whole
    · exact whole.children
  · exact .of_pure whole

end Slot

/-! ### Names -/

namespace Name

theorem unwrapStatement_ok (whole : node.Whole) :
    ∃ inner, unwrapStatement node = .ok inner ∧ inner.Whole := by
  unfold unwrapStatement
  by_cases isStatement : node.isKind .exprStmt = true
  · rw [if_pos isStatement]
    exact whole.childAt (beq_iff_eq.mp isStatement) rfl
  · rw [if_neg isStatement]
    exact ⟨node, rfl, whole⟩

/-- A copy of a whole fragment, shaped for its position. -/
theorem insertable_ok (whole : node.Whole) :
    ∃ folded, insertable node = .ok folded ∧ folded.IsNew := by
  have copied := whole.copy
  unfold insertable
  by_cases isProgram : node.copy.isKind .program = true
  · simp only [isProgram, if_true]
    split
    · exact ⟨_, rfl, trivial⟩
    · rename_i single isSingle
      have singleIs : single.Whole := copied.children single
        (by rw [isSingle]; exact List.mem_singleton_self _)
      obtain ⟨inner, isInner, innerIs⟩ := unwrapStatement_ok singleIs
      rw [isInner]
      exact ⟨_, rfl, Folded.isNew_ofNode innerIs⟩
    · exact ⟨_, rfl, copied.children⟩
  · simp only [isProgram]
    obtain ⟨inner, isInner, innerIs⟩ := unwrapStatement_ok copied
    rw [isInner]
    exact ⟨_, rfl, Folded.isNew_ofNode innerIs⟩

theorem refuseCallable_safe {context : Context} {name : Text} :
    Safe (refuseCallable context name node) fun _ => True := by
  unfold refuseCallable
  dsimp only
  apply Safe.refusing
  split
  · exact .of_fail
  · exact .of_pure trivial

theorem fold_safe (safe : walker.IsSafe) (whole : (Node.tree .ident flags place children).Whole) :
    Safe (fold walker ⟨.ident, flags, place, children⟩)
      (FoldsWhole (.tree .ident flags place children)) := by
  have keep : FoldsWhole (.tree .ident flags place children)
      (.same (.tree .ident flags place children)) :=
    .keep whole
  have notSteady : (Node.tree .ident flags place children).isSteady = false := rfl
  unfold fold
  dsimp only
  split
  · exact .of_pure keep
  · apply refuseCallable_safe.bind
    intro _ _
    split
    case h_1 found =>
      obtain ⟨folded, isFolded, isNew⟩ :=
        insertable_ok (safe.fragments _ (Table.mem_of_lookup found))
      rw [isFolded]
      exact .of_pure (.of_isNew isNew notSteady)
    case h_2 =>
      apply (Slot.nodeOf_safe _).bind
      intro literal literalIs
      cases literal with
      | some literal => exact .of_pure (.of_isNew (literalIs literal rfl) notSteady)
      | none =>
          apply Safe.of_report.bind
          intro _ _
          exact .of_pure keep
    case h_3 => exact .of_pure keep

theorem value?_safe {context : Context} : Safe (value? context node) fun _ => True := by
  unfold value?
  split
  · exact .of_pure trivial
  · split
    · exact .of_pure trivial
    · split
      · exact .of_pure trivial
      · apply refuseCallable_safe.bind
        intro _ _
        exact .of_pure trivial

end Name

end ScriptFold
