import ScriptFold.Fold.Aggregate
import ScriptFold.Fold.Context
import ScriptFold.Proofs.Shape.Operation

/-!
# Folded names, targets and patterns

A name that is left is not bound to a value with a literal, and the targets of assignments,
updates and deletions are formed, as are patterns in which nothing unexpected was noticed.
-/

namespace ScriptFold

open FoldM (Meets EachFrom)

variable {law : Law} {levels : Nat} {walker : Walker} {given : Prop}
variable {flags : Flags} {place : Option Place} {former : Node}

/-! ### Kinds -/

theorem isOperand_of_kind {kind : Kind} {node : Node} (isKind : node.kind? = some kind)
    (notStatement : kind.isStatement = false) : node.isOperand = true := by
  rw [Node.isOperand, isKind, Option.any_some, notStatement]
  rfl

theorem kind?_of_isKind {kind : Kind} {node : Node} (isKind : node.isKind kind = true) :
    node.kind? = some kind := by
  simpa [Node.isKind] using isKind

/-! ### Names -/

theorem ident_formed {children : List (Child Node)}
    (formed : Formed .loose (.tree .ident flags place children)) :
    Formed law (.tree .ident flags place children) :=
  Patched.refl.formed formed rfl

theorem refuseCallable_meets {context : Context} {name : Text} {node : Node} :
    Meets given (Name.refuseCallable context name node) fun _ => True := by
  simp only [Name.refuseCallable]
  refine .refusing ?_
  split
  · exact .of_fail
  · exact .of_pure fun _ => trivial

theorem unwrapStatement_good {node inner : Node} (good : Good law node)
    (isTree : node.isTree = true) (unwrapped : Name.unwrapStatement node = .ok inner) :
    Good law inner ∧ inner.isTree = true := by
  unfold Name.unwrapStatement at unwrapped
  split at unwrapped
  case isTrue isStatement =>
    have operand := exprStmt_operand good.formed (kind?_of_isKind isStatement) unwrapped
    exact ⟨operand.good, isTree_of_isOperand operand.isOperand⟩
  case isFalse =>
    cases unwrapped
    exact ⟨good, isTree⟩

theorem walked_ofNode {node : Node} (good : Good law node) (isTree : node.isTree = true)
    (unstable : former.isStable = false) : Walked law former (.ofNode node) := by
  cases node with
  | absent | leaf => cases isTree
  | tree => exact .instead good rfl unstable

/-- A fragment in the place of a name. -/
theorem insertable_walked {fragment : Node} {folded : Folded} (unfolded : ¬ law.folded)
    (formed : Formed law fragment) (isTree : fragment.isTree = true)
    (unstable : former.isStable = false) (inserted : Name.insertable fragment = .ok folded) :
    Walked law former folded := by
  have anyGood : ∀ {node : Node}, Formed law node → Good law node := fun formed =>
    ⟨formed, fun forbidden => unfolded forbidden.1⟩
  have copied := copy_formed unfolded formed
  have copyIsTree : fragment.copy.isTree = true := (isTree_copy fragment).trans isTree
  simp only [Name.insertable] at inserted
  split at inserted
  case isTrue isProgram =>
    have childrenAre : ∀ node, node ∈ fragment.copy.children →
        Good law node ∧ node.isTree = true := by
      revert isProgram copied
      cases fragment.copy with
      | absent | leaf => nofun
      | tree kind flags place children =>
          intro copied isProgram node there
          have isKind : kind = .program := by simpa [Node.isKind, Node.kind?] using isProgram
          subst isKind
          obtain ⟨child, isChild, rfl⟩ := List.mem_map.mp there
          obtain ⟨index, found⟩ := List.mem_iff_getElem?.mp isChild
          exact (copied.slotted found).listed rfl
    split at inserted
    case h_1 =>
      cases inserted
      exact .removed unstable
    case h_2 single isSingle =>
      obtain ⟨inner, isInner, inserted⟩ := Calculation.of_bind_eq_ok inserted
      cases inserted
      have is := childrenAre single (by rw [isSingle]; exact List.mem_cons_self)
      have innerIs := unwrapStatement_good is.1 is.2 isInner
      exact walked_ofNode innerIs.1 innerIs.2 unstable
    case h_3 =>
      cases inserted
      exact .statements childrenAre unstable
  case isFalse =>
    obtain ⟨inner, isInner, inserted⟩ := Calculation.of_bind_eq_ok inserted
    cases inserted
    have innerIs := unwrapStatement_good (anyGood copied) copyIsTree isInner
    exact walked_ofNode innerIs.1 innerIs.2 unstable

theorem name_meets (sound : Sound law levels walker) {children : List (Child Node)} :
    Meets (Below law (levels + 1) (.tree .ident flags place children))
      (Name.fold walker ⟨.ident, flags, place, children⟩)
      (Walked law (.tree .ident flags place children)) := by
  have kept : Below law (levels + 1) (.tree .ident flags place children) →
      (∀ name, law.folded → law.bound name →
        Name.of? (.tree .ident flags place children) ≠ some name) →
      Walked law (.tree .ident flags place children)
        (.same (.tree .ident flags place children)) := by
    intro below unbound
    refine .kept (ident_formed below.formed) ?_
    rintro ⟨folded, residue⟩
    cases residue with
    | name named isBound => exact unbound _ folded isBound named
  simp only [Name.fold, Branch.toNode]
  split
  case h_1 isNone =>
    refine .of_pure fun below => kept below fun name _ _ isName => ?_
    rw [isNone] at isName
    cases isName
  case h_2 name isName =>
    have same : ∀ other, Name.of? (.tree .ident flags place children) = some other →
        other = name := by
      intro other isOther
      rw [isName] at isOther
      exact (Option.some.inj isOther).symm
    refine refuseCallable_meets.bind fun _ => ?_
    cases isFragment : walker.context.fragments.lookup name with
    | some fragment =>
        refine Meets.of_calculate.mono fun folded known inserted => ?_
        obtain ⟨formed, isTree⟩ := sound.enforces.fragments known.1.premise _
          (Table.mem_of_lookup isFragment)
        refine insertable_walked (fun folded => ?_) formed isTree rfl inserted
        rw [sound.enforces.plain folded] at isFragment
        cases isFragment
    | none =>
        cases isValue : walker.context.values.lookup name with
        | some value =>
            refine nodeOf_meets.bind fun literal => ?_
            cases literal with
            | some literal =>
                exact .of_pure fun known => .of_operand (ofValue?_operand known.2) rfl
            | none =>
                refine Meets.of_report.bind fun _ => .of_pure fun known =>
                  kept known.1.1.1 fun other folded isBound isOther => ?_
                obtain ⟨bound, literal, found, written⟩ :=
                  sound.enforces.bound folded other isBound
                rw [same other isOther, isValue] at found
                cases found
                rw [known.1.2] at written
                cases written
        | none =>
            refine .of_pure fun known => kept known.1 fun other folded isBound isOther => ?_
            obtain ⟨bound, literal, found, _⟩ := sound.enforces.bound folded other isBound
            rw [same other isOther, isValue] at found
            cases found

/-- A name that has no value is none that must not be left. -/
theorem value?_meets {context : Context} (enforces : Enforces context law) (node : Node) :
    Meets given (Name.value? context node) fun value =>
      value = none → node.kind? = some .ident → ¬ law.forbids node := by
  unfold Name.value?
  split
  case isTrue notIdent =>
    refine .of_pure fun _ _ isIdent => ?_
    simp [Node.isKind, isIdent] at notIdent
  case isFalse =>
    have free : ∀ {unbound : Prop}, (unbound → law.folded → ∀ name, law.bound name →
        Name.of? node ≠ some name) → unbound → node.kind? = some .ident →
        ¬ law.forbids node := by
      rintro unbound notBound is isIdent ⟨folded, residue⟩
      cases residue with
      | name named isBound => exact notBound is folded _ isBound named
      | _ => cases isIdent
    split
    case h_1 isNone =>
      refine .of_pure fun _ _ => free (fun _ _ name _ isName => ?_) trivial
      rw [isNone] at isName
      cases isName
    case h_2 name isName =>
      split
      case h_1 isNone =>
        refine .of_pure fun _ _ => free (fun _ folded other isBound isOther => ?_) trivial
        rw [isName] at isOther
        cases isOther
        obtain ⟨value, literal, found, _⟩ := enforces.bound folded name isBound
        rw [isNone] at found
        cases found
      case h_2 value isValue =>
        refine refuseCallable_meets.bind fun _ => .of_pure fun _ unknown => ?_
        refine free (fun isFragment folded _ _ _ => ?_)
          (show context.fragments.binds name = true from ?_)
        · rw [enforces.plain folded] at isFragment
          cases isFragment
        · split at unknown
          · assumption
          · cases unknown

/-! ### Targets -/

theorem binding?_meets (sound : Sound law levels walker) (node : Node) :
    Meets (Below law levels node) (Target.binding? walker node) fun result =>
      ∀ outcome, result = some outcome → Operand law outcome.node ∧
        (node.kind? = some .ident → ¬ law.forbids node) := by
  refine (value?_meets sound.enforces node).bind fun value => ?_
  cases value with
  | some value => exact .of_pure fun _ => nofun
  | none =>
      refine ((sound.walk node).weaken And.left).bind fun folded => ?_
      have named : ∀ {resolved : Node} {outcome result : Outcome}, Good law resolved →
          outcome.node = resolved →
          (if resolved.isKind .ident then some outcome else none) = some result →
          Operand law result.node := by
        intro resolved outcome result good isNode isResult
        split at isResult <;> cases isResult
        rename_i isIdent
        subst isNode
        exact ⟨good, isOperand_of_kind (kind?_of_isKind isIdent) rfl⟩
      cases folded with
      | removed | statements => exact .of_pure fun _ => nofun
      | same resolved =>
          refine .of_pure fun known outcome isOutcome => ⟨?_, known.1.2 rfl⟩
          cases known.2 with
          | same good _ => exact named good rfl isOutcome
      | instead resolved =>
          refine .of_pure fun known outcome isOutcome => ⟨?_, known.1.2 rfl⟩
          cases known.2 with
          | instead good _ _ => exact named good rfl isOutcome

/-- A member or subscript that is written to. -/
theorem memberTarget_meets (sound : Sound law levels walker) {kind : Kind}
    {children : List (Child Node)} {cause : FoldError}
    (isLink : kind = .member ∨ kind = .subscript) :
    Meets (Below law levels (.tree kind flags place children))
      (Target.member walker cause ⟨kind, flags, place, children⟩) (Operand law) := by
  refine Meets.of_child.bind fun object => (value?_meets sound.enforces object.node).bind
    fun value => ?_
  simp only
  refine .refusing ?_
  rcases isLink with rfl | rfl
  · refine (operand_meets sound 0 rfl fun known => ⟨known.1.1.succ, known.1.2⟩).bind
      fun object' => Meets.of_calculate.bind fun isConstant => ?_
    refine .refusing (.of_pure fun known => ⟨⟨?_, Law.not_forbids_of_kind rfl⟩, rfl⟩)
    exact (Patched.refl.set 0 known.1.2).formed known.1.1.1.1.formed rfl
  · refine (operand_meets sound 0 rfl fun known => ⟨known.1.1.succ, known.1.2⟩).bind
      fun object' => Meets.of_calculate.bind fun isConstant => ?_
    refine .refusing (Meets.of_child.bind fun key => ?_)
    refine (operand_meets sound 1 rfl fun known => ⟨known.1.1.1.1.1.succ, known.2⟩).bind
      fun key' => .of_pure fun known => ⟨⟨?_, Law.not_forbids_of_kind rfl⟩, rfl⟩
    exact ((Patched.refl.set 0 known.1.1.1.2).set 1 known.2).formed known.1.1.1.1.1.1.formed rfl

theorem paren_operand {seat : Option Nat} {inner : Node} {outcome : Child Node}
    {rest : List (Child Node)}
    (formed : Formed .loose (.tree .paren flags place (⟨seat, inner⟩ :: rest)))
    (operand : Operand law outcome.node) :
    Operand law (.tree .paren flags place (outcome :: rest)) :=
  ⟨⟨(Patched.refl.set 0 (.of_operand operand rfl)).formed formed rfl,
    Law.not_forbids_of_kind rfl⟩, rfl⟩

theorem Below.inner {kind : Kind} {children : List (Child Node)} {child : Child Node}
    (below : Below law levels (.tree kind flags place children)) (there : child ∈ children) :
    Below law levels child.node :=
  below.succ.child there

theorem update_meets (sound : Sound law levels walker) (op : Text) (node : Node) :
    Meets (Below law levels node) (Target.update walker op node)
      fun outcome => Operand law outcome.node := by
  fun_induction Target.update walker op node with
  | case1 flags place children =>
      refine (binding?_meets sound _).bind fun result => ?_
      cases result with
      | none => exact .of_fail
      | some outcome => exact .of_pure fun known => (known.2 outcome rfl).1
  | case2 flags place children =>
      exact (memberTarget_meets sound (.inl rfl)).bind fun _ => .of_pure And.right
  | case3 flags place children =>
      exact (memberTarget_meets sound (.inr rfl)).bind fun _ => .of_pure And.right
  | case4 flags place seat inner rest induction =>
      refine (induction.weaken fun below => below.inner List.mem_cons_self).bind
        fun outcome => .of_pure fun known => paren_operand known.1.formed ?_
      rw [node_inSeat]
      exact known.2
  | case5 => exact .of_throw
  | case6 => exact .of_fail

theorem delete_meets (sound : Sound law levels walker) (node : Node) :
    Meets (Below law levels node) (Target.delete walker node) (Operand law) := by
  fun_induction Target.delete walker node with
  | case1 flags place children =>
      refine (binding?_meets sound _).bind fun result => ?_
      cases result with
      | none => exact .of_fail
      | some outcome =>
          exact .of_pure fun known =>
            ⟨⟨ident_formed known.1.formed, (known.2 outcome rfl).2 rfl⟩, rfl⟩
  | case2 flags place children => exact memberTarget_meets sound (.inl rfl)
  | case3 flags place children => exact memberTarget_meets sound (.inr rfl)
  | case4 flags place seat inner rest induction =>
      exact (induction.weaken fun below => below.inner List.mem_cons_self).bind
        fun _ => .of_pure fun known => paren_operand known.1.formed known.2
  | case5 => exact .of_throw
  | case6 => exact .of_fail

theorem refuseKnown_meets {context : Context} (node : Node) :
    Meets given (Target.refuseKnown context node) fun _ => True := by
  refine Target.refuseKnown.induct context
    (fun node => Meets given (Target.refuseKnown context node) fun _ => True)
    (fun children => Meets given (Target.refuseAll context children) fun _ => True)
    ?known ?unknown ?unnamed ?array ?object ?property ?rest ?default ?malformed ?other ?none ?cons
    node
  case known | unknown =>
    intro flags place children node name isName isKnown
    simp only [Target.refuseKnown, show Name.of? (.tree .binding flags place children) = _ from
      isName, isKnown]
    first | exact .of_fail | exact .of_pure fun _ => trivial
  case unnamed =>
    intro flags place children node isNone
    simp only [Target.refuseKnown, show Name.of? (.tree .binding flags place children) = _ from
      isNone]
    exact .of_pure fun _ => trivial
  case array | object =>
    intro flags place children induction
    rw [Target.refuseKnown]
    exact induction
  case property =>
    intro flags place first seat target rest induction
    rw [Target.refuseKnown]
    exact induction
  case rest | default =>
    intro flags place seat target rest induction
    rw [Target.refuseKnown]
    exact induction
  case malformed =>
    intro node notBinding notArray notObject notProperty notRest notDefault isOne
    rw [Target.refuseKnown.eq_7 context node notBinding notArray notObject notProperty notRest
      notDefault, if_pos isOne]
    exact .of_throw
  case other =>
    intro node notBinding notArray notObject notProperty notRest notDefault notOne
    rw [Target.refuseKnown.eq_7 context node notBinding notArray notObject notProperty notRest
      notDefault, if_neg notOne]
    exact .of_pure fun _ => trivial
  case none =>
    rw [Target.refuseAll]
    exact .of_pure fun _ => trivial
  case cons =>
    intro seat node rest nodeIs restAre
    rw [Target.refuseAll]
    exact nodeIs.bind fun _ => restAre.weaken And.left

theorem kind_of_isOneOf {node : Node} {kinds : List Kind} (isOneOf : node.isOneOf kinds = true) :
    ∃ kind, kind ∈ kinds ∧ node.kind? = some kind := by
  obtain ⟨kind, there, isKind⟩ := List.any_eq_true.mp isOneOf
  exact ⟨kind, there, kind?_of_isKind isKind⟩

/-- A node of a stable kind stays a node of that kind. -/
theorem Walked.same_of_stable {folded : Folded} (walked : Walked law former folded)
    (stable : former.isStable = true) :
    ∃ node, folded = .same node ∧ Good law node ∧ node.kind? = former.kind? := by
  have unstable : former.isStable ≠ false := by
    rw [stable]
    nofun
  cases walked with
  | same good sameKind => exact ⟨_, rfl, good, sameKind⟩
  | instead _ _ is => exact absurd is unstable
  | statements _ is => exact absurd is unstable
  | removed is => exact absurd is unstable

/-- A pattern that is assigned to. -/
theorem patternTarget_meets (sound : Sound law levels walker) {node : Node}
    (isPattern : node.isOneOf [.objectPattern, .arrayPattern, .assignPattern, .rest, .binding] =
      true) :
    Meets (Below law levels node) (Target.pattern walker node)
      fun outcome => Operand law outcome.node := by
  obtain ⟨kind, isOne, isKind⟩ := kind_of_isOneOf isPattern
  have stays : ∀ kind, kind ∈ [Kind.objectPattern, .arrayPattern, .assignPattern, .rest, .binding] →
      kind.isStable = true ∧ kind.isStatement = false := by
    decide
  have is := stays kind isOne
  have stable : node.isStable = true := by
    rw [Node.isStable, isKind]
    exact is.1
  refine (refuseKnown_meets node).bind fun _ => ?_
  refine ((sound.walk node).weaken And.left).bind fun folded => ?_
  cases folded with
  | same folded =>
      refine .of_pure fun known => ?_
      obtain ⟨_, isSame, good, sameKind⟩ := known.2.same_of_stable stable
      cases isSame
      exact ⟨good, isOperand_of_kind (sameKind.trans isKind) is.2⟩
  | instead folded =>
      refine .of_pure fun known => ?_
      obtain ⟨_, isSame, _⟩ := known.2.same_of_stable stable
      cases isSame
  | removed =>
      refine .of_pure fun known => ?_
      obtain ⟨_, isSame, _⟩ := known.2.same_of_stable stable
      cases isSame
  | statements => exact .of_throw

theorem assign_meets (sound : Sound law levels walker) (node : Node) :
    Meets (Below law levels node) (Target.assign walker node)
      fun outcome => Operand law outcome.node := by
  fun_induction Target.assign walker node with
  | case1 flags place children =>
      refine (binding?_meets sound _).bind fun result => ?_
      cases result with
      | none => exact .of_fail
      | some outcome => exact .of_pure fun known => (known.2 outcome rfl).1
  | case2 flags place children =>
      exact (memberTarget_meets sound (.inl rfl)).bind fun _ => .of_pure And.right
  | case3 flags place children =>
      exact (memberTarget_meets sound (.inr rfl)).bind fun _ => .of_pure And.right
  | case4 flags place seat inner rest induction =>
      refine (induction.weaken fun below => below.inner List.mem_cons_self).bind
        fun outcome => .of_pure fun known => paren_operand known.1.formed ?_
      rw [node_inSeat]
      exact known.2
  | case5 => exact .of_throw
  | case6 node _ _ _ _ _ isPattern => exact patternTarget_meets sound isPattern
  | case7 => exact .of_fail

theorem Slotted.of_outcome {kind : Kind} {index : Nat} {seat : Option Nat} {outcome : Outcome}
    (operand : Operand law outcome.node) (isOperand : (kind.role index).isOperand = true) :
    Slotted law kind place index (outcome.inSeat seat) :=
  .of_operand (by rw [node_inSeat]; exact operand) isOperand

theorem foldAssign_meets (sound : Sound law levels walker) {children : List (Child Node)} :
    Meets (Below law (levels + 1) (.tree .assign flags place children))
      (Target.foldAssign walker ⟨.assign, flags, place, children⟩)
      (Walked law (.tree .assign flags place children)) := by
  rcases children with _ | ⟨target, _ | ⟨op, _ | ⟨value, _ | _⟩⟩⟩
  case cons.cons.cons.nil =>
    refine ((assign_meets sound target.node).weaken fun below =>
      below.child List.mem_cons_self).bind fun outcome => ?_
    refine (operand_meets sound 2 rfl fun known => ⟨known.1, rfl⟩).bind fun value' => .of_pure ?_
    rintro ⟨⟨below, targetIs⟩, valueIs⟩
    have opIs : Slotted law .assign place 1 op := (below.slotted rfl).1.fixed rfl
    exact .kept (formed_iff_slotted.mpr
      (.cons (.of_outcome targetIs rfl) (.cons opIs (.cons valueIs .nil))))
      (Law.not_forbids_of_kind rfl)
  all_goals exact .of_throw

theorem foldUpdate_meets (sound : Sound law levels walker) {kind : Kind}
    {children : List (Child Node)} (isUpdate : kind = .prefixUpdate ∨ kind = .postfixUpdate) :
    Meets (Below law (levels + 1) (.tree kind flags place children))
      (Target.foldUpdate walker ⟨kind, flags, place, children⟩)
      (Walked law (.tree kind flags place children)) := by
  refine Meets.of_child.bind fun target => operatorOf_meets.bind fun op => ?_
  refine ((update_meets sound op target.node).weaken fun known =>
    known.1.1.child (List.mem_of_getElem? known.1.2)).bind fun outcome => .of_pure fun known => ?_
  have formed := known.1.1.1.formed
  rcases isUpdate with rfl | rfl
  · exact .kept ((Patched.refl.set 1 (.of_outcome known.2 rfl)).formed formed rfl)
      (Law.not_forbids_of_kind rfl)
  · exact .kept ((Patched.refl.set 0 (.of_outcome known.2 rfl)).formed formed rfl)
      (Law.not_forbids_of_kind rfl)

theorem foldUnary_meets (sound : Sound law levels walker) {children : List (Child Node)} :
    Meets (Below law (levels + 1) (.tree .unary flags place children))
      (Target.foldUnary walker ⟨.unary, flags, place, children⟩)
      (Walked law (.tree .unary flags place children)) := by
  refine operatorOf_meets.bind fun op => ?_
  show Meets _ (if _ then _ else _) _
  split
  case isTrue isDelete =>
    refine Meets.of_child.bind fun target => ?_
    refine ((delete_meets sound target.node).weaken fun known =>
      known.1.1.child (List.mem_of_getElem? known.2)).bind fun node => .of_pure ?_
    rintro ⟨⟨⟨below, isOp⟩, found⟩, operand⟩
    rcases children with _ | ⟨first, _ | ⟨second, rest⟩⟩
    case cons.cons =>
      have notKnown : UnaryOp.ofText? first.node.description = none := by
        rw [unary_operator below.formed isOp, Text.isString_iff.mp isDelete]
        decide
      exact .same (unary_good ((Patched.refl.set 1 (.of_operand operand rfl)).formed
        below.formed rfl) (.inl notKnown)) rfl
    all_goals cases found
  case isFalse => exact unary_meets sound And.left And.right

end ScriptFold
