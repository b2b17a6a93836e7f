import ScriptFold.Proofs.Coupling.Places
import ScriptFold.Proofs.Fold.Chains
import ScriptFold.Proofs.Scoping.Statement
import ScriptFold.Proofs.Shape.Statement

/-!
# Folding keeps block scopes

With values and functions alone, a declaration of a block that stands directly in a folded script
was supplied by a statement that stood directly in the script: declarations of blocks and of
switch cases stay where they are.
-/

namespace ScriptFold

open FoldM (Gives Returns)

/-- A walker without macros and fragments under which every node of at most so many levels brings
only what it supplies. -/
structure Walker.Scopes (walker : Walker) (levels : Nat) : Prop where
  plain : walker.Plain levels
  passes : ∀ node, Below .loose levels node → Gives (walker.walk node) (Folded.Passes walker node)

variable {walker : Walker} {former result : Node} {branch : Branch} {levels : Nat}

/-! ### Expression statements -/

/-- An expression stays in its statement, also one that comes as a statement of its own. -/
theorem Fold.statementOf_keeps (outcome : Outcome) {seat : Option Nat}
    (notStatement : outcome.node.isStatement = false) :
    Gives
      (do
        match outcome.node.kind? with
        | some .exprStmt =>
            return branch.keep (branch.children.set 0
              ⟨none, ← FoldM.calculate (outcome.node.childAt 0)⟩)
        | some kind =>
            if kind.isStatement then return .instead outcome.node
            return branch.keep (branch.children.set 0 (outcome.inSeat seat))
        | none => return branch.keep (branch.children.set 0 (outcome.inSeat seat)))
      fun folded => folded.Keeps branch.toNode := by
  split
  · apply Gives.after
    intro inner
    exact .of_pure Branch.keep_keeps
  case h_2 kind _ isKind =>
    rw [isStatement_of_kind isKind] at notStatement
    simp only [notStatement]
    exact .of_pure Branch.keep_keeps
  · exact .of_pure Branch.keep_keeps

theorem Fold.expressionStatement_keeps (plain : walker.Plain levels)
    (isStatement : branch.kind = .exprStmt) (below : Below .loose (levels + 1) branch.toNode) :
    Gives (expressionStatement walker branch) fun folded =>
      folded = .removed ∨ folded.Keeps branch.toNode := by
  apply Gives.of_child.bind
  intro child isChild
  obtain ⟨below, notStatement⟩ := below.operand isChild (by rw [isStatement]; rfl)
  apply (plain.expresses child.node below notStatement).bind
  intro folded expresses
  cases expresses with
  | removed => exact .of_pure (.inl rfl)
  | «instead» notNode => exact (statementOf_keeps (.instead _) notNode).mono fun _ => .inr
  | @same node sameKind =>
      have notNode : node.isStatement = false := by rwa [Node.isStatement, sameKind]
      dsimp only
      split
      · exact .of_pure (.inl rfl)
      · exact (statementOf_keeps (.same node) notNode).mono fun _ => .inr

/-! ### Branches -/

namespace Control

theorem branchOf_brings {child : Child Node}
    (walks : Gives (walker.walk child.node) (Folded.Passes walker child.node)) :
    Gives (branchOf walker child) fun result => Brings walker child.node result.node := by
  unfold branchOf
  split
  case isTrue isEmpty =>
    have isKind : child.node.kind? = some .emptyStmt := kind?_of_isKind isEmpty
    apply Gives.of_pure
    apply Brings.of_not_scoped
    · apply Node.isItem_of_kind <;> rw [isKind] <;> nofun
    · rw [Node.isBlockScoped, isKind]
  case isFalse => exact Slot.statement_brings walks

private theorem brings_branch {flags : Flags} {place : Option Place}
    {test consequent alternate : Child Node} {truth : Bool} (settles : Settles walker test truth)
    (brings : Brings walker (if truth then consequent else alternate).node result) :
    Brings walker (.tree .ifStmt flags place [test, consequent, alternate]) result :=
  ⟨brings.isItem, fun isScoped => .branch settles (brings.supplies isScoped)⟩

theorem ifStatement_passes (scopes : walker.Scopes levels) (isIf : branch.kind = .ifStmt)
    (below : Below .loose (levels + 1) branch.toNode) :
    Gives (ifStatement walker branch) (Folded.Passes walker branch.toNode) := by
  obtain ⟨kind, flags, place, children⟩ := branch
  subst isIf
  unfold ifStatement
  split
  case h_1 test consequent alternate isChildren =>
    obtain rfl : children = [test, consequent, alternate] := isChildren
    have passes : ∀ child, child ∈ [test, consequent, alternate] →
        Gives (walker.walk child.node) (Folded.Passes walker child.node) :=
      fun child there => scopes.passes child.node (Below.child below there)
    simp only [List.forall_mem_cons] at passes
    obtain ⟨_, consequentPasses, alternatePasses, _⟩ := passes
    apply (Gives.refl _).bind
    intro test' tested
    apply (branchOf_brings consequentPasses).bind
    intro consequent' consequentBrings
    apply (branchOf_brings alternatePasses).bind
    intro alternate' alternateBrings
    apply Gives.of_calculate.bind
    intro known isKnown
    cases known with
    | none => exact .of_pure (Branch.keep_keeps.passes nofun nofun nofun)
    | some value =>
        have settles : Settles walker test value.isTruthy := ⟨test', value, tested, isKnown, rfl⟩
        apply Slot.unwrapBlock_passes
        apply brings_branch settles
        cases value.isTruthy with
        | true => exact consequentBrings
        | false => exact alternateBrings
  case h_2 => exact .of_throw

/-! ### Loops -/

theorem neverHolds_false {test : Node} : Gives (neverHolds test) fun never => never = true →
    ∃ value, Literal.value? test = .ok (some value) ∧ value.isTruthy = false := by
  apply Gives.of_calculate.bind
  intro known isKnown
  apply Gives.of_pure
  intro never
  cases known with
  | none => cases never
  | some value => exact ⟨value, isKnown, by simpa using never⟩

/-- The first part of the head of a loop only declares what it declared before. -/
theorem initialPart_scoped (scopes : walker.Scopes levels) {child : Child Node}
    (below : Below .loose levels child.node)
    (admitted : (Role.operand true [.varDecl]).admits child.node) :
    Gives (initialPart walker child) fun result => result.node.isBlockScoped = true →
      child.node.isKind .varDecl = true ∧ child.node.isBlockScoped = true ∧
        Returns (walker.walk child.node) (.same result.node) := by
  unfold initialPart
  split
  case isTrue isDeclaration =>
    apply (scopes.passes child.node below).returning.bind
    rintro folded ⟨walked, passes⟩
    cases passes with
    | removed => exact .of_pure nofun
    | statements => exact .of_throw
    | same sameKind sameScope flat =>
        exact .of_pure fun isScoped => ⟨isDeclaration, sameScope.symm.trans isScoped, walked⟩
    | «instead» brings =>
        apply Gives.of_pure
        intro isScoped
        have isKind := kind?_of_isKind isDeclaration
        generalize child.node = initial at *
        cases brings.supplies isScoped with
        | itself formerIs walked => exact ⟨isDeclaration, formerIs, walked⟩
        | head | branch => cases isKind
  case isFalse notDeclaration =>
    have notStatement : child.node.isStatement = false := by
      rcases admitted with isOperand | ⟨_, isAbsent⟩ | ⟨kind, isAlso, isKind⟩
      · exact not_isStatement_of_isOperand isOperand
      · rw [isAbsent]
        rfl
      · rw [List.mem_singleton.mp isAlso] at isKind
        rw [Node.isKind, isKind] at notDeclaration
        exact absurd (beq_self_eq_true _) notDeclaration
    apply (Slot.expression_notStatement scopes.plain ⟨below, notStatement⟩).mono
    intro result notResult isScoped
    rw [Node.not_isBlockScoped_of_notStatement notResult] at isScoped
    cases isScoped

private theorem initialOnly_passes {initial : Node}
    (supplies : initial.isBlockScoped = true →
      Supplies walker former (.made .varDecl initial.children)) :
    (initialOnly initial).Passes walker former := by
  unfold initialOnly
  split
  · exact .removed
  · split
    case isTrue isDeclaration =>
      have isKind : initial.kind? = some .varDecl := kind?_of_isKind isDeclaration
      apply Folded.Passes.instead
      refine ⟨Node.isItem_of_kind nofun nofun, fun isScoped => supplies ?_⟩
      rw [← isScoped]
      apply Node.isBlockScoped_congr isKind
      intro _
      rw [Node.child, Node.child, Node.children_made]
    case isFalse => exact .instead brings_expression

theorem forLoop_passes (scopes : walker.Scopes levels) (isFor : branch.kind = .forStmt)
    (below : Below .loose (levels + 1) branch.toNode) :
    Gives (forLoop walker branch) (Folded.Passes walker branch.toNode) := by
  obtain ⟨kind, flags, place, children⟩ := branch
  subst isFor
  unfold forLoop
  split
  case h_1 initial test update body isChildren =>
    obtain rfl : children = [initial, test, update, body] := isChildren
    obtain ⟨slotted, initialBelow⟩ := Below.slotted below (rfl : _[0]? = some initial)
    apply (initialPart_scoped scopes initialBelow slotted.fits.admitted).bind
    intro initial' isInitial
    apply (Gives.refl _).either
    intro test' tested
    apply neverHolds_false.bind
    intro never isNever
    split
    case isTrue isOver =>
      apply Gives.of_pure
      apply initialOnly_passes
      intro isScoped
      obtain ⟨isDeclaration, formerIs, walked⟩ := isInitial isScoped
      obtain ⟨isPresent, holdsNever⟩ := Bool.and_eq_true_iff.mp isOver
      obtain ⟨value, known, isFalse⟩ := isNever holdsNever
      have testFolded : Returns (Operation.test walker test) test' := by
        split at tested
        · rw [tested.eq_of_pure] at isPresent
          simp_all
        · exact tested
      exact .head isDeclaration formerIs walked ⟨test', value, testFolded, known, isFalse⟩
    case isFalse =>
      apply Gives.after
      intro update'
      apply Gives.after
      intro body'
      exact .of_pure (Branch.keep_keeps.passes nofun nofun nofun)
  case h_2 => exact .of_throw

theorem whileLoop_keeps : Gives (whileLoop walker branch) fun folded =>
    folded = .removed ∨ folded.Keeps branch.toNode := by
  apply Gives.after
  intro child
  apply Gives.after
  intro test
  apply Gives.after
  intro never
  split
  · exact .of_pure (.inl rfl)
  · apply Gives.after
    intro child
    apply Gives.after
    intro body
    exact .of_pure (.inr Branch.keep_keeps)

theorem doWhileLoop_keeps :
    Gives (doWhileLoop walker branch) (Folded.Keeps branch.toNode) := by
  apply Gives.after
  intro child
  apply Gives.after
  intro body
  apply Gives.after
  intro child
  apply Gives.after
  intro test
  exact .of_pure Branch.keep_keeps

private theorem forEachLoop_keeps : Gives (forEachLoop walker branch) fun folded =>
    folded = .removed ∨ folded.Keeps branch.toNode := by
  unfold forEachLoop
  split
  · apply (Gives.refl _).either
    intro left _
    apply Gives.after
    intro right
    apply Gives.after
    intro known
    split
    · exact .of_pure (.inl rfl)
    · apply Gives.after
      intro body
      exact .of_pure (.inr Branch.keep_keeps)
  · exact .of_throw

theorem loop_passes (scopes : walker.Scopes levels) (isLoop : branch.kind.category? = some .loop)
    (below : Below .loose (levels + 1) branch.toNode) :
    Gives (loop walker branch) (Folded.Passes walker branch.toNode) := by
  have isStable : branch.toNode.kind? ≠ some .program ∧ branch.toNode.kind? ≠ some .block ∧
      branch.toNode.kind? ≠ some .varDecl := by
    refine ⟨fun isKind => ?_, fun isKind => ?_, fun isKind => ?_⟩ <;>
      (rw [Option.some.inj isKind] at isLoop; cases isLoop)
  obtain ⟨notProgram, notBlock, notDeclaration⟩ := isStable
  unfold loop
  split
  case h_1 =>
    exact whileLoop_keeps.mono fun _ is =>
      Folded.passes_of_removed_or_keeps is notProgram notBlock notDeclaration
  case h_2 =>
    exact doWhileLoop_keeps.mono fun _ keeps => keeps.passes notProgram notBlock notDeclaration
  case h_3 isFor => exact forLoop_passes scopes isFor below
  case h_4 | h_5 =>
    exact forEachLoop_keeps.mono fun _ is =>
      Folded.passes_of_removed_or_keeps is notProgram notBlock notDeclaration
  case h_6 => exact .of_pure (Folded.Keeps.passes ⟨_, rfl, rfl⟩ notProgram notBlock notDeclaration)

end Control

/-! ### Switches -/

namespace Switch

/-- The statements of a case are no programs, and of at most so many levels. -/
def BodyBelow (levels : Nat) (case : Node) : Prop :=
  ∀ child, child ∈ case.seated.drop 1 →
    child.node.kind? ≠ some .program ∧ Below .loose levels child.node

private theorem bodyBelow_of_slotted {flags : Flags} {place : Option Place} {children : List
    (Child Node)}
    (below : Below .loose levels (.tree .switchCase flags place children)) :
    BodyBelow levels (.tree .switchCase flags place children) := by
  intro child there
  obtain ⟨index, found⟩ := List.mem_iff_getElem?.mp there
  rw [List.getElem?_drop] at found
  have slotted := below.formed.slotted found
  have admitted := slotted.fits.admitted
  rw [Nat.add_comm] at admitted
  have isLower : child.node.height < (Node.tree .switchCase flags place children).height :=
    height_lt_of_mem (List.mem_of_getElem? found)
  exact ⟨admitted.2, trivial, slotted.formed, Nat.le_trans (Nat.le_of_lt isLower) below.height⟩

theorem foldTest_below {child : Child Node}
    (below : Below .loose levels child.node)
    (admitted : (Role.only .switchCase).admits child.node) :
    Gives (foldTest walker child) fun result => BodyBelow levels result.node := by
  unfold foldTest
  split
  case h_1 kind flags place test body isTree =>
    apply Gives.after
    intro test
    apply Gives.of_pure
    rw [isTree] at below admitted
    rcases admitted with isCase | isAbsent
    · obtain rfl : kind = .switchCase := Option.some.inj isCase
      exact fun child there => bodyBelow_of_slotted below child there
    · cases isAbsent
  case h_2 => exact .of_throw
  case h_3 => exact .of_throw

/-- A switch that is dissolved keeps a block around its statements if they declare something
in it. -/
theorem chosen_passes {nodes : List Node} {folded : Folded}
    (items : ∀ node, node ∈ nodes → node.IsItem) (isChosen : chosen nodes = .ok folded) :
    folded.Passes walker former := by
  unfold chosen at isChosen
  split at isChosen
  · cases isChosen
    exact .removed
  · obtain ⟨declares, known, isChosen⟩ := Calculation.of_bind_eq_ok isChosen
    cases declares with
    | true =>
        cases isChosen
        exact .instead (brings_block items)
    | false =>
        cases isChosen
        apply Folded.Passes.statements
        intro statement there
        obtain ⟨node, isNode, there⟩ := List.mem_flatMap.mp there
        apply Slot.splice_brings _ _ there
        exact .of_not_scoped (items node isNode) (Slot.not_isBlockScoped_of_anyM known node isNode)

theorem fold_passes (scopes : walker.Scopes levels) (isSwitch : branch.kind = .switchStmt)
    (below : Below .loose (levels + 1) branch.toNode) :
    Gives (fold walker branch) (Folded.Passes walker branch.toNode) := by
  obtain ⟨kind, flags, place, children⟩ := branch
  subst isSwitch
  unfold fold
  split
  case h_1 => exact .of_throw
  case h_2 discriminant cases isChildren =>
    obtain rfl : children = discriminant :: cases := isChildren
    apply Gives.after
    intro discriminant'
    have casesBelow : ∀ case, case ∈ cases →
        Gives (foldTest walker case) fun result => BodyBelow levels result.node := by
      intro case there
      obtain ⟨index, found⟩ := List.mem_iff_getElem?.mp there
      have isCase : (discriminant :: cases)[index + 1]? = some case := by
        rwa [List.getElem?_cons_succ]
      obtain ⟨slotted, caseBelow⟩ := Below.slotted below isCase
      exact foldTest_below caseBelow slotted.fits.admitted
    apply (Gives.mapM casesBelow).bind
    intro tested bodies
    have kept : Gives
        (do
          let bodies ← tested.mapM (foldBody walker)
          return Branch.keep ⟨.switchStmt, flags, place, discriminant :: cases⟩
            (discriminant' :: bodies))
        (Folded.Passes walker (.tree .switchStmt flags place (discriminant :: cases))) := by
      apply Gives.after
      intro bodies
      have keeps : Folded.Keeps (.tree .switchStmt flags place (discriminant :: cases))
          (Branch.keep ⟨.switchStmt, flags, place, discriminant :: cases⟩
            (discriminant' :: bodies)) :=
        Branch.keep_keeps
      exact .of_pure (keeps.passes nofun nofun nofun)
    apply Gives.after
    intro value
    split
    · exact kept
    · apply Gives.after
      intro entry
      split
      · exact kept
      · exact .of_pure .removed
      · apply Gives.of_calculate.bind
        intro planned isPlan
        split
        · exact kept
        case h_2 nodes =>
          have walks : ∀ child, child ∈ Node.unseated nodes →
              child.node.kind? ≠ some .program ∧
                Gives (walker.walk child.node) (Folded.Passes walker child.node) := by
            intro child there
            obtain ⟨case, isCase, inCase⟩ :=
              List.mem_flatMap.mp (mem_of_plan isPlan (mem_unseated there))
            obtain ⟨_, _, bodyBelow⟩ := bodies case (List.mem_of_mem_drop isCase)
            rw [Node.children, ← List.map_drop] at inCase
            obtain ⟨statement, isStatement, isNode⟩ := List.mem_map.mp inCase
            obtain ⟨notProgram, statementBelow⟩ := bodyBelow statement isStatement
            rw [isNode] at notProgram statementBelow
            exact ⟨notProgram, scopes.passes child.node statementBelow⟩
          apply (Slot.statements_bring walks).bind
          intro statements bring
          apply Gives.of_calculate.mono
          intro folded isChosen
          apply chosen_passes _ isChosen
          intro node isNode
          obtain ⟨child, there, rfl⟩ := List.mem_map.mp isNode
          obtain ⟨_, _, brings⟩ := bring child there
          exact brings.isItem

end Switch

/-! ### All nodes -/

namespace Fold

/-- The statements of a program or block. -/
theorem statementList_passes (scopes : walker.Scopes levels)
    (isList : branch.kind = .program ∨ branch.kind = .block)
    (below : Below .loose (levels + 1) branch.toNode) :
    Gives (Slot.statementList walker branch) fun folded => ∃ results,
      folded = branch.keep results ∧ ∀ result, result ∈ results →
        ∃ child, child ∈ branch.children ∧ Brings walker child.node result.node := by
  have notCase : branch.kind ≠ .switchCase := by
    rcases isList with isKind | isKind <;> rw [isKind] <;> nofun
  have isListed : ∀ index, branch.kind.role index = .listed := by
    rcases isList with isKind | isKind <;> rw [isKind] <;> exact fun _ => rfl
  have walks : ∀ child, child ∈ branch.children → child.node.kind? ≠ some .program ∧
      Gives (walker.walk child.node) (Folded.Passes walker child.node) := by
    intro child there
    obtain ⟨index, found⟩ := List.mem_iff_getElem?.mp there
    obtain ⟨slotted, childBelow⟩ := Below.slotted below found
    have admitted := slotted.fits.admitted
    rw [isListed] at admitted
    exact ⟨admitted.2, scopes.passes child.node childBelow⟩
  unfold Slot.statementList
  rw [if_neg notCase]
  apply (Slot.statements_bring walks).bind
  intro results bring
  exact .of_pure ⟨results, rfl, bring⟩

theorem passthrough_passes (scopes : walker.Scopes levels)
    (isPassthrough : branch.kind.category? = some .passthrough)
    (isStatement : branch.kind.isStatement = true)
    (below : Below .loose (levels + 1) branch.toNode) :
    Gives (passthrough walker branch) (Folded.Passes walker branch.toNode) := by
  obtain ⟨kind, flags, place, children⟩ := branch
  have of_keeps : ∀ {folded : Folded},
      folded = .removed ∨ folded.Keeps (.tree kind flags place children) →
        folded.Passes walker (.tree kind flags place children) := by
    intro folded is
    apply Folded.passes_of_removed_or_keeps is <;> (intro isKind; cases isKind; cases isPassthrough)
  cases kind <;> first | (cases isPassthrough <;> cases isStatement; done) | skip
  case exprStmt =>
    exact (expressionStatement_keeps scopes.plain rfl below).mono fun _ => of_keeps
  case returnStmt | throwStmt | withStmt =>
    exact Slot.everyChild_keeps.mono fun _ keeps => of_keeps (.inr keeps)
  case exportDefault =>
    apply Gives.after
    intro child
    apply (Gives.refl _).either
    intro exported _
    exact .of_pure (of_keeps (.inr Branch.keep_keeps))
  case exportDecl | labeledStmt =>
    apply Gives.after
    intro child
    apply Gives.after
    intro inner
    exact .of_pure (of_keeps (.inr Branch.keep_keeps))

/-- What sort of construct a statement can be. -/
theorem category_of_isStatement {kind : Kind} (isStatement : kind.isStatement = true) :
    kind.category? ∈ [some .leaf, some .passthrough, some .statementList, some .conditional,
      some .loop, some .switch, some .declaration, some .function, some .compound] := by
  cases kind <;> first | (cases isStatement; done) | decide

/-- What folding makes of one statement. -/
theorem statement_passes (scopes : walker.Scopes levels)
    (isStatement : branch.kind.isStatement = true)
    (below : Below .loose (levels + 1) branch.toNode) :
    Gives (step walker branch) (Folded.Passes walker branch.toNode) := by
  have isSort := category_of_isStatement isStatement
  have of_keeps : ∀ {step : FoldM Folded}, branch.kind.category? ≠ some .statementList →
      branch.kind.category? ≠ some .declaration → Gives step (Folded.Keeps branch.toNode) →
        Gives step (Folded.Passes walker branch.toNode) := by
    intro step notList notDeclaration gives
    apply gives.mono
    intro folded keeps
    apply keeps.passes <;> intro isKind
    · exact notList (by rw [Option.some.inj isKind]; rfl)
    · exact notList (by rw [Option.some.inj isKind]; rfl)
    · exact notDeclaration (by rw [Option.some.inj isKind]; rfl)
  unfold step
  split
  case h_2 isCategory =>
    apply of_keeps (by rw [isCategory]; nofun) (by rw [isCategory]; nofun)
    exact .of_pure ⟨_, rfl, rfl⟩
  case h_3 isCategory => exact passthrough_passes scopes isCategory isStatement below
  case h_4 isCategory =>
    have isList : branch.kind = .program ∨ branch.kind = .block := by
      cases isKind : branch.kind <;> rw [isKind] at isCategory isStatement <;>
        first | exact .inl rfl | exact .inr rfl | (cases isCategory <;> cases isStatement)
    apply (statementList_passes scopes isList below).mono
    rintro folded ⟨results, rfl, bring⟩
    have sameKind : (Node.tree branch.kind branch.flags branch.place results).kind? =
        branch.toNode.kind? := rfl
    apply Folded.Passes.same sameKind
    · apply Node.isBlockScoped_congr sameKind
      intro isDeclaration
      rw [show branch.kind = .varDecl from Option.some.inj isDeclaration] at isCategory
      cases isCategory
    · apply Node.isFlat_of_items
      intro child there
      obtain ⟨result, isResult, rfl⟩ := List.mem_map.mp there
      obtain ⟨_, _, brings⟩ := bring result isResult
      exact brings.isItem
  case h_8 isCategory =>
    split
    case isTrue isIf => exact Control.ifStatement_passes scopes isIf below
    case isFalse notIf =>
      cases isKind : branch.kind <;> rw [isKind] at isCategory isStatement <;>
        first | exact absurd isKind notIf | (cases isCategory <;> cases isStatement)
  case h_9 isCategory => exact Control.loop_passes scopes isCategory below
  case h_10 isCategory =>
    apply Switch.fold_passes scopes _ below
    cases isKind : branch.kind <;> rw [isKind] at isCategory <;> first | rfl | cases isCategory
  case h_15 isCategory =>
    apply Callable.declared_keeps.bind
    rintro node ⟨sameKind, sameWord⟩
    apply Gives.of_pure
    apply Folded.Passes.same sameKind (Node.isBlockScoped_congr sameKind sameWord)
    apply Node.IsItem.flat
    apply Node.isItem_of_kind <;>
      (rw [sameKind]; intro isKind; rw [Option.some.inj isKind] at isCategory; cases isCategory)
  case h_16 isCategory =>
    exact of_keeps (by rw [isCategory]; nofun) (by rw [isCategory]; nofun) Callable.fold_keeps
  case h_19 isCategory =>
    exact of_keeps (by rw [isCategory]; nofun) (by rw [isCategory]; nofun) compound_keeps
  all_goals
    rename_i isCategory
    rw [isCategory] at isSort
    exact absurd isSort (by decide)

private theorem step_passes (scopes : walker.Scopes levels)
    (below : Below .loose (levels + 1) branch.toNode) :
    Gives (step walker branch) (Folded.Passes walker branch.toNode) := by
  cases isStatement : branch.kind.isStatement with
  | false =>
      exact (step_expresses scopes.plain isStatement below).mono
        fun _ expresses => expresses.passes isStatement
  | true => exact statement_passes scopes isStatement below

theorem walkerOf_scopes {context : Context} (plain : context.Plain) (expand : Expander)
    (levels : Nat) : (walkerOf context expand).Scopes levels := by
  have leaf : ∀ node : Node, node.kind? = none →
      Folded.Passes (walkerOf context expand) node (.same node) := by
    intro node isNone
    apply Folded.Keeps.passes ⟨node, rfl, rfl⟩ <;> (rw [isNone]; nofun)
  induction levels with
  | zero =>
      refine ⟨walkerOf_plain plain expand 0, fun node below => ?_⟩
      cases node with
      | absent => exact .of_pure (leaf .absent rfl)
      | leaf token => exact .of_pure (leaf (.leaf token) rfl)
      | tree kind flags place children => exact absurd below.height (Nat.not_succ_le_zero _)
  | succ levels induction =>
      refine ⟨walkerOf_plain plain expand (levels + 1), fun node below => ?_⟩
      cases node with
      | absent => exact .of_pure (leaf .absent rfl)
      | leaf token => exact .of_pure (leaf (.leaf token) rfl)
      | tree kind flags place children =>
          show Gives (walk context expand _) _
          rw [walk_tree]
          apply Gives.locating
          exact step_passes induction below

end Fold

/-! ### Scripts -/

namespace Evaluate

variable {host : Host} {values : Table Value} {functions : Table String} {depthLimit : Int}

/-- How the statements of a script are folded with values and functions alone. -/
def plainWalker (host : Host) (values : Table Value) (functions : Table String)
    (depthLimit : Int) : Walker :=
  Fold.walkerOf ⟨host, values, functions, [], [], depthLimit⟩
    (Fold.expandWithin depthLimit.toNat)

/-- Every block-scoped declaration that stands directly in a folded script was supplied by a
statement that stood directly in the script. -/
theorem blockScoped_supplied {source : Source} {folded : Node}
    (returns : Returns (Evaluate.tree host ⟨values, functions, [], []⟩ depthLimit source) folded) :
    ∃ program, parseScript source = .ok program ∧
      ∀ child, child ∈ folded.seated → child.node.isBlockScoped = true →
        ∃ former, former ∈ program.seated ∧
          Supplies (plainWalker host values functions depthLimit) former.node child.node := by
  obtain ⟨context, prepared, returns⟩ := returns.of_bind
  obtain ⟨program, parsed, returns⟩ := returns.of_bind
  obtain ⟨fragments, preparedAll, prepared⟩ := prepared.of_bind
  cases preparedAll.eq_of_pure
  cases prepared.eq_of_pure
  have parsed := parsed_of_returns parsed
  refine ⟨program, parsed, ?_⟩
  obtain ⟨formed, isProgram⟩ := parseScript_shaped parsed
  cases program with
  | absent | leaf => cases isProgram
  | tree kind flags place children =>
      cases isProgram
      have scopes : (plainWalker host values functions depthLimit).Scopes
          (Node.heightAll children) := Fold.walkerOf_scopes ⟨rfl, rfl⟩ _ _
      have below : Below .loose (Node.heightAll children + 1)
          (Branch.toNode ⟨.program, flags, place, children⟩) := ⟨trivial, formed, Nat.le_refl _⟩
      have walked := Fold.returns_of_program (Fold.returns_of_programOnStack returns)
      rw [Fold.foldWithin_eq_walk, Fold.walk_tree] at walked
      have lists := (Fold.statementList_passes scopes (.inl rfl) below).of_returns
      obtain ⟨results, isFolded, bring⟩ := lists _ walked.of_locating
      cases isFolded
      intro child there isScoped
      obtain ⟨former, isFormer, brings⟩ := bring child there
      exact ⟨former, isFormer, brings.supplies isScoped⟩

/-- Declarations that stay, alone in a chosen branch, and in the head of a loop that never runs;
those of a block and of a case stay in it. -/
def scopesScript : Source :=
  ⟨Text.ofString ("const a = 1; if (true) class B \x7b\x7d for (let i = 0; false; i++); "
      ++ "if (true) \x7b let c; \x7d switch (2) \x7b case 2: let d; \x7d"),
    none, .script⟩

theorem scopesScript_supplied :
    ∃ folded, Returns (Evaluate.tree Host.none ⟨[], [], [], []⟩ 100 scopesScript) folded ∧
      folded.children.map Node.isBlockScoped = [true, true, true, false, false] ∧
      ∃ program, parseScript scopesScript = .ok program ∧
        ∀ child, child ∈ folded.seated → child.node.isBlockScoped = true →
          ∃ former, former ∈ program.seated ∧
            Supplies (plainWalker Host.none [] [] 100) former.node child.node := by
  have ends :
      ((Evaluate.tree Host.none ⟨[], [], [], []⟩ 100 scopesScript).run.run []).1.toOption.any
        (fun folded => folded.children.map Node.isBlockScoped ==
          [true, true, true, false, false]) = true := by
    decide +kernel
  obtain ⟨folded, returns, isScoped⟩ := FoldM.exists_returns_of_any ends
  exact ⟨folded, returns, beq_iff_eq.mp isScoped, blockScoped_supplied returns⟩

def neverRuns : Source :=
  ⟨Text.ofString "for (let i = 0; false; i++) \x7b\x7d", none, .script⟩

/-- Not every block-scoped declaration that stands directly in a folded script stood there
before. -/
theorem neverRuns_lifts :
    ¬ ∀ (host : Host) (values : Table Value) (functions : Table String) (depthLimit : Int)
      (source : Source) (program folded : Node), parseScript source = .ok program →
      Returns (Evaluate.tree host ⟨values, functions, [], []⟩ depthLimit source) folded →
      ∀ child, child ∈ folded.seated → child.node.isBlockScoped = true →
        ∃ former, former ∈ program.seated ∧ former.node.isBlockScoped = true := by
  intro keeps
  have reads : ((FoldM.parse neverRuns).run.run []).1.toOption.any
      (fun program => program.children.all fun node => !node.isBlockScoped) = true := by
    decide +kernel
  have ends : ((Evaluate.tree Host.none ⟨[], [], [], []⟩ 100 neverRuns).run.run []).1.toOption.any
      (fun folded => folded.children.any Node.isBlockScoped) = true := by
    decide +kernel
  obtain ⟨program, parsed, declaresNothing⟩ := FoldM.exists_returns_of_any reads
  obtain ⟨folded, returns, declares⟩ := FoldM.exists_returns_of_any ends
  obtain ⟨node, isNode, isScoped⟩ := List.any_eq_true.mp declares
  obtain ⟨child, isChild, rfl⟩ := List.mem_map.mp isNode
  obtain ⟨former, isFormer, formerScoped⟩ := keeps Host.none [] [] 100 neverRuns program folded
    (parsed_of_returns parsed) returns child isChild isScoped
  have notScoped := List.all_eq_true.mp declaresNothing former.node
    (List.mem_map_of_mem isFormer)
  rw [formerScoped] at notScoped
  cases notScoped

end Evaluate

end ScriptFold
