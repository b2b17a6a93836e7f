import ScriptFold.Fold.Control
import ScriptFold.Fold.Switch
import ScriptFold.Proofs.Shape.Target

/-!
# Folded branches, loops and switches

What a branch, loop or switch is replaced by is formed, and one that is left has a test
that is not known.
-/

namespace ScriptFold

open FoldM (Meets EachFrom)

variable {law : Law} {levels : Nat} {walker : Walker} {given : Prop}
variable {kind : Kind} {flags : Flags} {place : Option Place} {former : Node}

/-! ### Branches -/

theorem unwrapBlock_meets {node : Node} (unstable : former.isStable = false) :
    Meets (Good law node) (Slot.unwrapBlock node) (Walked law former) := by
  unfold Slot.unwrapBlock
  split
  case h_1 | h_2 => exact .of_pure fun _ => .removed unstable
  case h_3 isBlock =>
    refine Meets.of_calculate.bind fun declares => .of_pure fun known => ?_
    cases node with
    | absent | leaf => cases isBlock
    | tree kind flags place children =>
        cases isBlock
        split
        case isTrue => exact .instead known.1 rfl unstable
        case isFalse =>
          refine .statements (fun node there => ?_) unstable
          obtain ⟨child, isChild, rfl⟩ := List.mem_map.mp there
          obtain ⟨index, found⟩ := List.mem_iff_getElem?.mp isChild
          exact (known.1.formed.slotted found).listed rfl
  case h_4 isKind => exact .of_pure fun good => .instead good (isTree_of_kind isKind) unstable

theorem branchOf_meets (sound : Sound law levels walker) {children : List (Child Node)}
    {child : Child Node} (index : Nat)
    (found : given → FoundAt law levels kind flags place children index child) :
    Meets given (Control.branchOf walker child) fun result => Good law result.node := by
  unfold Control.branchOf
  split
  case isTrue isEmpty =>
    have isKind := kind?_of_isKind isEmpty
    refine .of_pure fun known => ?_
    have below := ((found known).1.slotted (found known).2).2
    refine (below.formed.of_inert ?_).good ?_
    · rw [Node.isInert, isKind]
      rfl
    · rw [isKind]
      rfl
  case isFalse =>
    exact (statement_meets sound child).weaken
      fun known => ((found known).1.slotted (found known).2).2

theorem ifStatement_meets (sound : Sound law levels walker) {children : List (Child Node)} :
    Meets (Below law (levels + 1) (.tree .ifStmt flags place children))
      (Control.ifStatement walker ⟨.ifStmt, flags, place, children⟩)
      (Walked law (.tree .ifStmt flags place children)) := by
  rcases children with _ | ⟨test, _ | ⟨consequent, _ | ⟨alternate, _ | _⟩⟩⟩
  case cons.cons.cons.nil =>
    refine (requiredTest_meets sound 0 rfl fun below => ⟨below, rfl⟩).bind fun test' => ?_
    refine (branchOf_meets sound 1 fun known => ⟨known.1, rfl⟩).bind fun consequent' => ?_
    refine (branchOf_meets sound 2 fun known => ⟨known.1.1, rfl⟩).bind fun alternate' => ?_
    refine valueOf_meets.bind fun value => ?_
    cases value with
    | some value =>
        refine (unwrapBlock_meets rfl).weaken fun known => ?_
        split
        · exact known.1.1.2
        · exact known.1.2
    | none =>
        refine .of_pure fun known => .kept (formed_iff_slotted.mpr
          (.cons (.of_operand known.1.1.1.2 rfl) (.cons (.of_any known.1.1.2 rfl)
            (.cons (.of_any known.1.2 rfl) .nil)))) ?_
        rintro ⟨_, residue⟩
        cases residue with
        | ifStatement testIs => exact not_isConstant known.2 testIs
  all_goals exact .of_throw

theorem conditional_meets (sound : Sound law levels walker) {children : List (Child Node)} :
    Meets (Below law (levels + 1) (.tree .conditional flags place children))
      (Control.conditional walker ⟨.conditional, flags, place, children⟩)
      (Walked law (.tree .conditional flags place children)) := by
  refine Meets.of_child.bind fun test => (requiredTest_meets sound 0 rfl id).bind fun test' => ?_
  refine Meets.of_child.bind fun consequent =>
    (operand_meets sound 1 rfl fun known => ⟨known.1.1.1, known.2⟩).bind fun consequent' => ?_
  refine Meets.of_child.bind fun alternate =>
    (operand_meets sound 2 rfl fun known => ⟨known.1.1.1.1.1, known.2⟩).bind fun alternate' => ?_
  refine valueOf_meets.bind fun value => ?_
  cases value with
  | some value =>
      refine .of_pure ?_
      rintro ⟨⟨⟨⟨_, consequentIs⟩, _⟩, alternateIs⟩, _⟩
      refine .of_ofNode ?_ rfl
      split
      · exact consequentIs.operand rfl
      · exact alternateIs.operand rfl
  | none =>
      refine .of_pure ?_
      rintro ⟨⟨⟨⟨⟨⟨_, testIs⟩, _⟩, consequentIs⟩, _⟩, alternateIs⟩, unknown⟩
      refine .kept (formed_iff_slotted.mpr
        (.cons (.of_operand testIs rfl) (.cons consequentIs (.cons alternateIs .nil)))) ?_
      rintro ⟨_, residue⟩
      cases residue with
      | conditional isConstant => exact not_isConstant unknown isConstant

/-! ### Loops -/

theorem neverHolds_meets {node : Node} :
    Meets given (Control.neverHolds node) fun never => never = false → ¬ IsFalsy node := by
  refine valueOf_meets.bind fun value => .of_pure ?_
  rintro ⟨_, isValue⟩ holds ⟨falsy, isFalsy, notTruthy⟩
  rw [isValue] at isFalsy
  cases isFalsy
  simp [notTruthy] at holds

theorem whileLoop_meets (sound : Sound law levels walker) {children : List (Child Node)} :
    Meets (Below law (levels + 1) (.tree .whileStmt flags place children))
      (Control.whileLoop walker ⟨.whileStmt, flags, place, children⟩)
      (Walked law (.tree .whileStmt flags place children)) := by
  refine Meets.of_child.bind fun test => (requiredTest_meets sound 0 rfl id).bind fun test' => ?_
  refine neverHolds_meets.bind fun never => ?_
  cases never with
  | true => exact .of_pure fun _ => .removed rfl
  | false =>
      refine Meets.of_child.bind fun body => (statementAt_meets sound 1 rfl
        fun known => ⟨known.1.1.1.1, known.2⟩).bind fun body' => .of_pure ?_
      rintro ⟨⟨⟨⟨⟨below, found⟩, testIs⟩, holds⟩, _⟩, bodyIs⟩
      refine .kept (((Patched.refl.set 0 (.of_operand testIs rfl)).set 1 bodyIs).formed
        below.formed rfl) ?_
      rintro ⟨_, residue⟩
      rcases children with _ | ⟨first, rest⟩
      · cases found
      · cases residue with
        | whileLoop testIs => exact holds rfl testIs

theorem doWhileLoop_meets (sound : Sound law levels walker) {children : List (Child Node)} :
    Meets (Below law (levels + 1) (.tree .doWhileStmt flags place children))
      (Control.doWhileLoop walker ⟨.doWhileStmt, flags, place, children⟩)
      (Walked law (.tree .doWhileStmt flags place children)) := by
  refine Meets.of_child.bind fun body => (statementAt_meets sound 0 rfl id).bind fun body' => ?_
  refine Meets.of_child.bind fun test => (requiredTest_meets sound 1 rfl
    fun known => ⟨known.1.1.1, known.2⟩).bind fun test' => .of_pure ?_
  rintro ⟨⟨⟨⟨below, _⟩, bodyIs⟩, _⟩, testIs⟩
  exact .kept (((Patched.refl.set 0 bodyIs).set 1 (.of_operand testIs rfl)).formed
    below.formed rfl) (Law.not_forbids_of_kind rfl)

/-- A declaration whose loop is gone. -/
theorem declaration_made {children : List (Child Node)}
    (formed : Formed law (.tree .varDecl flags place children)) :
    Good law (.made .varDecl (children.map Child.node)) := by
  refine .mk (formed_made fun index node found => ?_) (Law.not_forbids_of_kind rfl)
  rw [List.getElem?_map] at found
  obtain ⟨child, isChild, rfl⟩ := Option.map_eq_some_iff.mp found
  have slotted := formed.slotted isChild
  have notOperand : (Kind.role .varDecl index).isOperand = false := by
    cases index <;> rfl
  refine ⟨⟨slotted.fits.admitted, fun isOperand => ?_, slotted.fits.tidy, slotted.fits.folded⟩,
    slotted.formed⟩
  rw [notOperand] at isOperand
  cases isOperand

/-- What is left of a loop that never runs. -/
theorem initialOnly_walked {initial : Child Node}
    (initialIs : Slotted law .forStmt place 0 initial) (unstable : former.isStable = false) :
    Walked law former (Control.initialOnly initial.node) := by
  have good : Good law initial.node := initialIs.good rfl
  have admitted := initialIs.fits.admitted
  revert good admitted
  cases initial.node with
  | absent => exact fun _ _ => .removed unstable
  | leaf =>
      rintro _ (isOperand | ⟨_, isAbsent⟩ | ⟨_, _, isKind⟩)
      · cases isOperand
      · cases isAbsent
      · cases isKind
  | tree kind flags place children =>
      intro good admitted
      show Walked law former (if _ then _ else _)
      split
      case isTrue isDeclaration =>
        cases kind?_of_isKind isDeclaration
        exact .instead (declaration_made good.formed) rfl unstable
      case isFalse notDeclaration =>
        refine .instead (exprStmt_good ⟨good, ?_⟩) rfl unstable
        refine admitted.resolve_right ?_
        rintro (⟨_, isAbsent⟩ | ⟨inner, isAlso, isKind⟩)
        · cases isAbsent
        · rcases List.mem_singleton.mp isAlso with rfl
          exact notDeclaration (by rw [Node.isKind, isKind]; rfl)

private theorem initialPart_meets (sound : Sound law levels walker) {children : List (Child Node)}
    {child : Child Node}
    (found : given → FoundAt law levels .forStmt flags place children 0 child) :
    Meets given (Control.initialPart walker child) (Slotted law .forStmt place 0) := by
  unfold Control.initialPart
  split
  case isTrue isDeclaration =>
    exact stable_meets sound 0 rfl List.mem_cons_self isDeclaration rfl rfl found
  case isFalse => exact operand_meets sound 0 rfl found

/-- The test of a loop with three parts, which may be left out. -/
theorem forTest_meets (sound : Sound law levels walker) {children : List (Child Node)}
    {child : Child Node}
    (found : given → FoundAt law levels .forStmt flags place children 1 child) :
    Meets given (if child.node.isAbsent then pure child else Operation.test walker child)
      (Slotted law .forStmt place 1) := by
  split
  case isTrue isAbsent =>
    refine .of_pure fun known => ?_
    refine ((found known).1.slotted (found known).2).1.of_not_isTree ?_
    revert isAbsent
    cases child.node <;> first | exact fun _ => rfl | nofun
  case isFalse notAbsent =>
    refine (test_meets sound 1 found fun known => ?_).mono fun _ _ is => .of_operand is rfl
    refine (((found known).1.slotted (found known).2).1.isTree_or_absent rfl).resolve_right ?_
    intro isAbsent
    rw [isAbsent] at notAbsent
    exact notAbsent rfl

theorem forLoop_meets (sound : Sound law levels walker) {children : List (Child Node)} :
    Meets (Below law (levels + 1) (.tree .forStmt flags place children))
      (Control.forLoop walker ⟨.forStmt, flags, place, children⟩)
      (Walked law (.tree .forStmt flags place children)) := by
  rcases children with _ | ⟨initial, _ | ⟨test, _ | ⟨update, _ | ⟨body, _ | _⟩⟩⟩⟩
  case cons.cons.cons.cons.nil =>
    refine (initialPart_meets sound fun below => ⟨below, rfl⟩).bind fun initial' => ?_
    refine Meets.either (forTest_meets sound fun known => ⟨known.1, rfl⟩) fun test' => ?_
    refine neverHolds_meets.bind fun never => ?_
    split
    case isTrue => exact .of_pure fun known => initialOnly_walked known.1.1.2 rfl
    case isFalse holds =>
      refine (operand_meets sound 2 rfl fun known => ⟨known.1.1.1, rfl⟩).bind fun update' => ?_
      refine (statementAt_meets sound 3 rfl fun known => ⟨known.1.1.1.1, rfl⟩).bind
        fun body' => .of_pure ?_
      rintro ⟨⟨⟨⟨⟨_, initialIs⟩, testIs⟩, neverIs⟩, updateIs⟩, bodyIs⟩
      refine .kept (formed_iff_slotted.mpr (.cons initialIs (.cons testIs (.cons updateIs
        (.cons bodyIs .nil))))) ?_
      rintro ⟨_, residue⟩
      cases residue with
      | forLoop isFalsy =>
          refine neverIs ?_ isFalsy
          cases isNode : test'.node with
          | absent =>
              obtain ⟨value, isValue, _⟩ := isFalsy
              rw [isNode] at isValue
              cases isValue
          | leaf | tree =>
              rw [isNode] at holds
              simpa [Node.isAbsent] using holds
  all_goals exact .of_throw

/-- The head of a loop over keys or items. -/
theorem forHead_meets (sound : Sound law levels walker) {children : List (Child Node)}
    {child : Child Node} (isRole : kind.role 0 = .operand true [.varDecl])
    (found : given → FoundAt law levels kind flags place children 0 child) :
    Meets given (if child.node.isKind .varDecl then Slot.anyNode walker child
        else (·.inSeat child.seat) <$> Target.assign walker child.node)
      (Slotted law kind place 0) := by
  split
  case isTrue isDeclaration =>
    exact stable_meets sound 0 isRole List.mem_cons_self isDeclaration rfl rfl found
  case isFalse =>
    refine ((assign_meets sound child.node).weaken
      fun known => ((found known).1.slotted (found known).2).2).map fun outcome _ operand => ?_
    exact .of_outcome operand (by rw [isRole]; rfl)

theorem forEachLoop_meets (sound : Sound law levels walker) {children : List (Child Node)}
    (isLoop : kind = .forInStmt ∨ kind = .forOfStmt) :
    Meets (Below law (levels + 1) (.tree kind flags place children))
      (Control.forEachLoop walker ⟨kind, flags, place, children⟩)
      (Walked law (.tree kind flags place children)) := by
  have roles : kind.role 0 = .operand true [.varDecl] ∧ kind.role 1 = .required ∧
      kind.role 2 = .any ∧ kind.isStable = false ∧ kind.isFoldable = false := by
    rcases isLoop with rfl | rfl <;> exact ⟨rfl, rfl, rfl, rfl, rfl⟩
  obtain ⟨isHead, isRequired, isAny, unstable, notFoldable⟩ := roles
  rcases children with _ | ⟨left, _ | ⟨right, _ | ⟨body, _ | _⟩⟩⟩
  case cons.cons.cons.nil =>
    refine Meets.either (forHead_meets sound isHead fun below => ⟨below, rfl⟩) fun left' => ?_
    refine (operand_meets sound 1 (by rw [isRequired]; rfl) fun known => ⟨known.1, rfl⟩).bind
      fun right' => valueOf_meets.bind fun value => ?_
    simp only
    split
    case isTrue => exact .of_pure fun _ => .removed unstable
    case isFalse =>
      refine (statementAt_meets sound 2 isAny fun known => ⟨known.1.1.1, rfl⟩).bind
        fun body' => .of_pure fun known => ?_
      exact .kept (formed_iff_slotted.mpr (.cons known.1.1.1.2 (.cons known.1.1.2
        (.cons known.2 .nil)))) (Law.not_forbids_of_kind notFoldable)
  all_goals exact .of_throw

theorem loop_meets (sound : Sound law levels walker) {children : List (Child Node)}
    (isLoop : kind.category? = some .loop) :
    Meets (Below law (levels + 1) (.tree kind flags place children))
      (Control.loop walker ⟨kind, flags, place, children⟩)
      (Walked law (.tree kind flags place children)) := by
  cases kind <;> cases isLoop
  case whileStmt => exact whileLoop_meets sound
  case doWhileStmt => exact doWhileLoop_meets sound
  case forStmt => exact forLoop_meets sound
  case forInStmt => exact forEachLoop_meets sound (.inl rfl)
  case forOfStmt => exact forEachLoop_meets sound (.inr rfl)

/-! ### Switches -/

/-- A case whose test is folded and whose statements are still to be folded. -/
structure Tested (law : Law) (levels : Nat) (place : Option Place) (test : Child Node)
    (body : List (Child Node)) : Prop where
  test : Slotted law .switchCase place 0 test
  body : ∀ child, child ∈ body → Below law levels child.node ∧ child.node.isTree = true

/-- A node that is such a case. -/
inductive IsTested (law : Law) (levels : Nat) : Node → Prop where
  | mk {flags : Flags} {place : Option Place} {test : Child Node} {body : List (Child Node)}
      (tested : Tested law levels place test body) :
      IsTested law levels (.tree .switchCase flags place (test :: body))

theorem foldTest_meets (sound : Sound law levels walker) (child : Child Node) :
    Meets
      (Below law levels child.node ∧
        (child.node.kind? = some .switchCase ∨ child.node = .absent))
      (Switch.foldTest walker child) fun result => IsTested law levels result.node := by
  obtain ⟨seat, node⟩ := child
  cases node with
  | absent | leaf => exact .of_throw
  | tree kind flags place children =>
      cases children with
      | nil => exact .of_throw
      | cons test body =>
          have isCase : Below law levels (.tree kind flags place (test :: body)) ∧
              (Node.kind? (.tree kind flags place (test :: body)) = some .switchCase ∨
                Node.tree kind flags place (test :: body) = .absent) →
              Below law (levels + 1) (.tree .switchCase flags place (test :: body)) := by
            rintro ⟨below, isKind | isAbsent⟩
            · cases isKind
              exact below.succ
            · cases isAbsent
          refine (operand_meets sound 0 rfl fun known => ⟨isCase known, rfl⟩).bind
            fun test' => .of_pure fun known => ?_
          have bodyIs : ∀ child, child ∈ body → Below law levels child.node ∧
              child.node.isTree = true := fun child there => (isCase known.1).caseBody there
          rcases known.1.2 with isKind | isAbsent
          · cases isKind
            exact .mk ⟨known.2, bodyIs⟩
          · cases isAbsent

theorem foldBody_meets (sound : Sound law levels walker) (child : Child Node) :
    Meets (IsTested law levels child.node) (Switch.foldBody walker child) fun result =>
      Formed law result.node ∧ result.node.kind? = some .switchCase := by
  obtain ⟨seat, node⟩ := child
  unfold Switch.foldBody
  split
  case h_1 kind flags place test body isNode =>
    cases isNode
    refine ((statements_meets sound body).weaken ?_).bind fun results => .of_pure ?_
    · rintro ⟨tested⟩
      exact tested.body
    · rintro ⟨⟨tested⟩, resultsAre⟩
      refine ⟨formed_iff_slotted.mpr (.cons tested.test ?_), rfl⟩
      exact slottedFrom_of_listed resultsAre fun index => by rw [Nat.add_comm]; rfl
  case h_2 => exact .of_throw

theorem entryFrom_meets {value : Value} (default : Option Nat) (index : Nat)
    (cases : List (Child Node)) :
    Meets given (Switch.entryFrom value default index cases) fun _ => True := by
  induction cases generalizing default index with
  | nil => exact .of_pure fun _ => trivial
  | cons case rest induction =>
      simp only [Switch.entryFrom]
      split
      case isTrue => exact induction _ _
      case isFalse =>
        refine valueOf_meets.bind fun known => ?_
        cases known with
        | none => exact .of_pure fun _ => trivial
        | some known =>
            simp only
            split
            case isTrue => exact .of_pure fun _ => trivial
            case isFalse => exact (induction _ _).weaken And.left

theorem mem_of_mem_plan {nodes planned : List Node} {node : Node}
    (isPlan : Switch.plan nodes = .ok (some planned)) (there : node ∈ planned) : node ∈ nodes := by
  induction nodes generalizing planned with
  | nil =>
      cases isPlan
      cases there
  | cons first rest induction =>
      rw [Switch.plan] at isPlan
      split at isPlan
      case isTrue =>
        obtain ⟨label, _, isPlan⟩ := Calculation.of_bind_eq_ok isPlan
        split at isPlan <;> cases isPlan
        cases there
      case isFalse =>
        split at isPlan
        case isTrue => cases isPlan
        case isFalse =>
          obtain ⟨others, areOthers, isPlan⟩ := Calculation.of_bind_eq_ok isPlan
          cases others with
          | none => cases isPlan
          | some others =>
              cases isPlan
              rcases List.mem_cons.mp there with rfl | there
              · exact List.mem_cons_self
              · exact List.mem_cons_of_mem _ (induction areOthers there)

theorem chosen_walked {nodes : List Node} {folded : Folded}
    (nodesAre : ∀ node, node ∈ nodes → Listed law node) (unstable : former.isStable = false)
    (isChosen : Switch.chosen nodes = .ok folded) : Walked law former folded := by
  unfold Switch.chosen at isChosen
  split at isChosen
  case isTrue =>
    cases isChosen
    exact .removed unstable
  case isFalse =>
    obtain ⟨declares, _, isChosen⟩ := Calculation.of_bind_eq_ok isChosen
    split at isChosen
    case isTrue =>
      cases isChosen
      exact .instead (block_good nodesAre) rfl unstable
    case isFalse =>
      cases isChosen
      exact .statements (fun node there => ⟨(nodesAre node there).good,
        (nodesAre node there).isTree⟩) unstable

/-- The statements that a switch runs are statements of its cases. -/
theorem IsTested.body {node inner : Node} (tested : IsTested law levels node)
    (there : inner ∈ node.children.drop 1) : Below law levels inner ∧ inner.isTree = true := by
  cases tested with
  | mk tested =>
      obtain ⟨child, isChild, rfl⟩ := List.mem_map.mp there
      exact tested.body child isChild

/-- A switch that is left. -/
theorem switch_kept (sound : Sound law levels walker) {children cases : List (Child Node)}
    {discriminant : Child Node}
    (discriminantIs : given → Slotted law .switchStmt place 0 discriminant)
    (tested : given → ∀ child, child ∈ cases → IsTested law levels child.node) :
    Meets given (do
        return Branch.keep ⟨.switchStmt, flags, place, children⟩
          (discriminant :: (← cases.mapM (Switch.foldBody walker))))
      (Walked law (.tree .switchStmt flags place children)) := by
  refine (Meets.mapM fun child there => (foldBody_meets sound child).weaken
    fun known => tested known child there).bind fun results => .of_pure fun known => ?_
  refine .kept (formed_iff_slotted.mpr (.cons (discriminantIs known.1) ?_))
    (Law.not_forbids_of_kind rfl)
  intro index result found
  obtain ⟨_, _, formed, isCase⟩ := known.2 index result found
  exact .of_only formed isCase (by rw [Nat.add_comm]; rfl) rfl

theorem switch_meets (sound : Sound law levels walker) {children : List (Child Node)} :
    Meets (Below law (levels + 1) (.tree .switchStmt flags place children))
      (Switch.fold walker ⟨.switchStmt, flags, place, children⟩)
      (Walked law (.tree .switchStmt flags place children)) := by
  cases children with
  | nil => exact .of_throw
  | cons discriminant cases =>
      refine (operand_meets sound 0 rfl fun below => ⟨below, rfl⟩).bind fun discriminant' => ?_
      have testsMeet : Meets (Below law (levels + 1)
          (.tree .switchStmt flags place (discriminant :: cases)) ∧
          Slotted law .switchStmt place 0 discriminant') (cases.mapM (Switch.foldTest walker))
          fun results => ∀ result, result ∈ results → IsTested law levels result.node := by
        refine (Meets.mapM fun child there => (foldTest_meets sound child).weaken
          fun known => ?_).mono fun results _ each result there => ?_
        · obtain ⟨index, found⟩ := List.mem_iff_getElem?.mp there
          have isChild : (discriminant :: cases)[index + 1]? = some child := found
          obtain ⟨slotted, below⟩ := known.1.slotted isChild
          exact ⟨below, slotted.fits.admitted⟩
        · obtain ⟨index, found⟩ := List.mem_iff_getElem?.mp there
          obtain ⟨_, _, tested⟩ := each index result found
          exact tested
      refine testsMeet.bind fun tested => valueOf_meets.bind fun value => ?_
      cases value with
      | none => exact switch_kept sound (fun known => known.1.1.2) fun known => known.1.2
      | some value =>
          refine (entryFrom_meets none 0 tested).bind fun entry => ?_
          cases entry with
          | unknown => exact switch_kept sound (fun known => known.1.1.1.2) fun known => known.1.1.2
          | nothing => exact .of_pure fun _ => .removed rfl
          | case index =>
              refine Meets.of_calculate.bind fun planned => ?_
              cases planned with
              | none =>
                  exact switch_kept sound (fun known => known.1.1.1.1.2)
                    fun known => known.1.1.1.2
              | some nodes =>
                  refine ((statements_meets sound (Node.unseated nodes)).weaken
                    fun known child there => ?_).bind fun results => ?_
                  · have isPlanned := mem_of_mem_plan known.2 (mem_unseated there)
                    obtain ⟨case, isCase, isInner⟩ := List.mem_flatMap.mp isPlanned
                    exact (known.1.1.1.2 case (List.mem_of_mem_drop isCase)).body isInner
                  · refine Meets.of_calculate.mono fun folded known isChosen =>
                      chosen_walked (fun node there => ?_) rfl isChosen
                    obtain ⟨child, isChild, rfl⟩ := List.mem_map.mp there
                    exact known.2 child isChild

end ScriptFold
