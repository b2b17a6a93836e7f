import ScriptFold.Fold.Callable
import ScriptFold.Proofs.Shape.Aggregate

/-!
# Folded patterns, functions and declarations

Patterns in which nothing unexpected was noticed, functions, classes and declarations are
formed once their parts are folded, and they stay the nodes they are.
-/

namespace ScriptFold

open FoldM (Meets EachFrom)

variable {law : Law} {levels : Nat} {walker : Walker} {given : Prop}
variable {kind : Kind} {flags : Flags} {place : Option Place} {index : Nat}

/-! ### Patterns -/

/-- What folding makes of a pattern or one of its parts. -/
structure Matched (law : Law) (former : Node) (outcome : Outcome) : Prop where
  operand : former.isTree = true → Operand law outcome.node
  empty : former.isTree = false → outcome = .same former
  same : former.isStable = true → ∃ node, outcome = .same node ∧ node.kind? = former.kind?

theorem Matched.of_empty {node : Node} (notTree : node.isTree = false)
    (notStable : node.isStable = false) : Matched law node (.same node) := by
  refine ⟨?_, fun _ => rfl, ?_⟩
  · rw [notTree]
    exact Bool.noConfusion
  · rw [notStable]
    exact Bool.noConfusion

theorem Matched.of_unstable {former : Node} {outcome : Outcome} (isTree : former.isTree = true)
    (notStable : former.isStable = false) (operand : Operand law outcome.node) :
    Matched law former outcome := by
  refine ⟨fun _ => operand, ?_, ?_⟩
  · rw [isTree]
    exact Bool.noConfusion
  · rw [notStable]
    exact Bool.noConfusion

theorem Matched.of_formed {children others : List (Child Node)}
    (formed : Formed law (.tree kind flags place others)) (notFoldable : kind.isFoldable = false)
    (notStatement : kind.isStatement = false) :
    Matched law (.tree kind flags place children) (.same (.tree kind flags place others)) :=
  ⟨fun _ => ⟨⟨formed, Law.not_forbids_of_kind notFoldable⟩,
    isOperand_of_kind rfl notStatement⟩, nofun, fun _ => ⟨_, rfl, rfl⟩⟩

theorem Matched.slotted {seat : Option Nat} {node : Node} {outcome : Outcome}
    (matched : Matched law node outcome) (index : Nat)
    (slotted : Slotted .loose kind place index ⟨seat, node⟩)
    (isOperand : (kind.role index).isOperand = true) :
    Slotted law kind place index (outcome.inSeat seat) := by
  cases isTree : node.isTree with
  | true => exact .of_outcome (matched.operand isTree) isOperand
  | false =>
      rw [matched.empty isTree]
      exact slotted.of_not_isTree isTree

/-- A part of a pattern that is to be folded.  Only targets inside are walked as a whole. -/
structure InPattern (law : Law) (levels : Nat) (node : Node) : Prop where
  below : Below law (levels + 1) node
  inner : node.isStable = false → Below law levels node

theorem Below.inPattern {node : Node} (below : Below law levels node) : InPattern law levels node :=
  ⟨below.succ, fun _ => below⟩

theorem pattern_meets (sound : Sound law levels walker) (node : Node) :
    Meets (InPattern law levels node) (Aggregate.pattern walker node) (Matched law node) := by
  refine Aggregate.pattern.induct
    (fun node =>
      Meets (InPattern law levels node) (Aggregate.pattern walker node) (Matched law node))
    (fun elements => ∀ kind place start, (∀ index, (kind.role (start + index)).isOperand = true) →
      Meets (SlottedFrom .loose kind place start elements ∧
          ∀ child, child ∈ elements → Below law levels child.node)
        (Aggregate.patterns walker elements) (SlottedFrom law kind place start))
    ?absent ?leaf ?binding ?array ?params ?object ?property ?shortProperty ?default ?shortDefault
    ?rest ?target ?malformed ?unexpected ?none ?cons node
  case absent =>
    rw [Aggregate.pattern]
    exact .of_pure fun _ => .of_empty rfl rfl
  case leaf =>
    intro token
    rw [Aggregate.pattern]
    exact .of_pure fun _ => .of_empty rfl rfl
  case binding =>
    intro flags place children
    rw [Aggregate.pattern]
    exact .of_pure fun known => .of_formed (known.below.formed.of_inert rfl) rfl rfl
  case array | params | object =>
    intro flags place children induction
    rw [Aggregate.pattern]
    exact ((induction _ place 0 fun _ => rfl).weaken fun known =>
      ⟨formed_iff_slotted.mp known.below.formed, fun child there => known.below.child there⟩).bind
        fun results => .of_pure fun known => .of_formed (formed_iff_slotted.mpr known.2) rfl rfl
  case property =>
    intro flags place first seat target rest induction
    rw [Aggregate.pattern]
    refine (key_meets sound 0 rfl fun known => ⟨known.below, rfl⟩).bind fun first' => ?_
    refine (induction.weaken fun known => (known.1.below.child
      (List.mem_cons_of_mem _ List.mem_cons_self)).inPattern).bind fun outcome => .of_pure ?_
    rintro ⟨⟨known, keyIs⟩, matched⟩
    have targetIs := matched.slotted 1 (known.below.slotted rfl).1 rfl
    exact .of_formed (((Patched.refl.set 0 keyIs).set 1 targetIs).formed known.below.formed rfl)
      rfl rfl
  case shortProperty =>
    intro flags place first
    rw [Aggregate.pattern]
    exact (key_meets sound 0 rfl fun known => ⟨known.below, rfl⟩).bind fun _ => .of_throw
  case default =>
    intro flags place seat target default rest induction
    rw [Aggregate.pattern]
    refine (induction.weaken fun known =>
      (known.below.child List.mem_cons_self).inPattern).bind fun outcome => ?_
    refine (operand_meets sound 1 rfl fun known => ⟨known.1.below, rfl⟩).bind
      fun default' => .of_pure ?_
    rintro ⟨⟨known, matched⟩, defaultIs⟩
    have targetIs := matched.slotted 0 (known.below.slotted rfl).1 rfl
    exact .of_formed (((Patched.refl.set 0 targetIs).set 1 defaultIs).formed known.below.formed rfl)
      rfl rfl
  case shortDefault =>
    intro flags place seat target induction
    rw [Aggregate.pattern]
    exact (induction.weaken fun known =>
      (known.below.child List.mem_cons_self).inPattern).bind fun _ => .of_throw
  case rest =>
    intro flags place seat target rest induction
    rw [Aggregate.pattern]
    refine (induction.weaken fun known =>
      (known.below.child List.mem_cons_self).inPattern).bind fun outcome => .of_pure ?_
    rintro ⟨known, matched⟩
    have targetIs := matched.slotted 0 (known.below.slotted rfl).1 rfl
    exact .of_formed ((Patched.refl.set 0 targetIs).formed known.below.formed rfl) rfl rfl
  case target =>
    intro kind flags place children _ _ _ _ _ _ _ _ _ node isTarget
    rw [Aggregate.pattern]
    · rw [if_pos isTarget]
      obtain ⟨inner, isOne, isKind⟩ := kind_of_isOneOf isTarget
      have unstable : node.isStable = false := by
        have are : ∀ kind, kind ∈ [Kind.ident, .member, .subscript, .paren] →
            kind.isStable = false := by decide
        rw [Node.isStable, isKind]
        exact are inner isOne
      exact ((assign_meets sound node).weaken fun known => known.inner unstable).mono
        fun _ _ operand => .of_unstable rfl unstable operand
    all_goals assumption
  case malformed =>
    intro kind flags place children _ _ _ _ _ _ _ _ _ node notTarget isMalformed
    rw [Aggregate.pattern]
    · rw [if_neg notTarget, if_pos isMalformed]
      exact .of_throw
    all_goals assumption
  case unexpected =>
    intro kind flags place children _ _ _ _ _ _ _ _ _ node notTarget notMalformed
    rw [Aggregate.pattern]
    · rw [if_neg notTarget, if_neg notMalformed]
      exact Meets.of_report.bind fun _ => .of_pure fun known => absurd rfl known.2
    all_goals assumption
  case none =>
    intro kind place start _
    rw [Aggregate.patterns]
    exact .of_pure fun _ => .nil
  case cons =>
    intro seat node rest nodeIs restAre kind place start areOperands
    rw [Aggregate.patterns]
    refine (nodeIs.weaken fun known => (known.2 _ List.mem_cons_self).inPattern).bind
      fun outcome => ?_
    have areOthers : ∀ index, (kind.role (start + 1 + index)).isOperand = true := by
      intro index
      rw [Nat.add_assoc]
      exact areOperands _
    refine ((restAre kind place (start + 1) areOthers).weaken fun known => ⟨known.1.1.tail,
      fun child there => known.1.2 child (List.mem_cons_of_mem _ there)⟩).bind fun others => ?_
    exact .of_pure fun known => .cons
      (known.1.2.slotted start known.1.1.1.head (areOperands 0)) known.2

theorem foldPattern_meets (sound : Sound law levels walker) {children : List (Child Node)}
    (stable : kind.isStable = true) :
    Meets (Below law (levels + 1) (.tree kind flags place children)) (do
      return (← Aggregate.pattern walker (.tree kind flags place children)).toFolded)
      (Walked law (.tree kind flags place children)) := by
  have isStable : (Node.tree kind flags place children).isStable = true := stable
  refine ((pattern_meets sound _).weaken fun below => ⟨below, fun unstable => ?_⟩).bind
    fun outcome => .of_pure ?_
  · rw [isStable] at unstable
    cases unstable
  · rintro ⟨_, matched⟩
    obtain ⟨node, rfl, sameKind⟩ := matched.same isStable
    exact .same (matched.operand rfl).good sameKind

/-! ### Functions and classes -/

theorem function_meets (sound : Sound law levels walker) {children : List (Child Node)}
    (isFunction : kind = .functionDecl ∨ kind = .functionExpr) :
    Meets (Below law (levels + 1) (.tree kind flags place children))
      (Callable.fold walker ⟨kind, flags, place, children⟩)
      (Walked law (.tree kind flags place children)) := by
  rcases children with _ | ⟨name, _ | ⟨params, _ | ⟨body, _ | _⟩⟩⟩
  case cons.cons.cons.nil =>
    rcases isFunction with rfl | rfl
    all_goals
      refine (any_meets sound 1 rfl fun below => ⟨below, rfl⟩).bind fun params' => ?_
      refine (any_meets sound 2 rfl fun known => ⟨known.1, rfl⟩).bind fun body' => .of_pure ?_
      rintro ⟨⟨below, paramsAre⟩, bodyIs⟩
      exact .kept (((Patched.refl.set 1 paramsAre).set 2 bodyIs).formed below.formed rfl)
        (Law.not_forbids_of_kind rfl)
  all_goals
    rcases isFunction with rfl | rfl <;> exact .of_throw

theorem arrow_meets (sound : Sound law levels walker) {children : List (Child Node)} :
    Meets (Below law (levels + 1) (.tree .arrow flags place children))
      (Callable.fold walker ⟨.arrow, flags, place, children⟩)
      (Walked law (.tree .arrow flags place children)) := by
  rcases children with _ | ⟨params, _ | ⟨body, _ | _⟩⟩
  case cons.cons.nil =>
    refine (any_meets sound 0 rfl fun below => ⟨below, rfl⟩).bind fun params' => ?_
    have finished : ∀ body', Meets
        ((Below law (levels + 1) (.tree .arrow flags place [params, body]) ∧
          Slotted law .arrow place 0 params') ∧ Slotted law .arrow place 1 body')
        (pure (Branch.keep ⟨.arrow, flags, place, [params, body]⟩ [params', body']))
        (Walked law (.tree .arrow flags place [params, body])) := fun body' =>
      .of_pure fun known => .kept (formed_iff_slotted.mpr (.cons known.1.2 (.cons known.2 .nil)))
        (Law.not_forbids_of_kind rfl)
    show Meets _ (if _ then _ else _) _
    split
    case isTrue isBlock =>
      exact (stable_meets sound 1 rfl List.mem_cons_self isBlock rfl rfl
        fun known => ⟨known.1, rfl⟩).bind finished
    case isFalse =>
      exact (operand_meets sound 1 rfl fun known => ⟨known.1, rfl⟩).bind finished
  all_goals exact .of_throw

theorem class_meets (sound : Sound law levels walker) {children : List (Child Node)}
    (isClass : kind = .classDecl ∨ kind = .classExpr) :
    Meets (Below law (levels + 1) (.tree kind flags place children))
      (Callable.fold walker ⟨kind, flags, place, children⟩)
      (Walked law (.tree kind flags place children)) := by
  rcases children with _ | ⟨name, _ | ⟨superclass, _ | ⟨body, _ | _⟩⟩⟩
  case cons.cons.cons.nil =>
    rcases isClass with rfl | rfl
    all_goals
      refine (operand_meets sound 1 rfl fun below => ⟨below, rfl⟩).bind fun superclass' => ?_
      refine (any_meets sound 2 rfl fun known => ⟨known.1, rfl⟩).bind fun body' => .of_pure ?_
      rintro ⟨⟨below, superclassIs⟩, bodyIs⟩
      exact .kept (((Patched.refl.set 1 superclassIs).set 2 bodyIs).formed below.formed rfl)
        (Law.not_forbids_of_kind rfl)
  all_goals
    rcases isClass with rfl | rfl <;> exact .of_throw

theorem callable_meets (sound : Sound law levels walker) {children : List (Child Node)}
    (isCallable : kind.category? = some .function) :
    Meets (Below law (levels + 1) (.tree kind flags place children))
      (Callable.fold walker ⟨kind, flags, place, children⟩)
      (Walked law (.tree kind flags place children)) := by
  cases kind <;> cases isCallable
  case functionDecl => exact function_meets sound (.inl rfl)
  case functionExpr => exact function_meets sound (.inr rfl)
  case arrow => exact arrow_meets sound
  case classDecl => exact class_meets sound (.inl rfl)
  case classExpr => exact class_meets sound (.inr rfl)
  case classBody =>
    refine (anything_meets (fun child => (anyNode_meets sound child).mono fun _ _ is => is.1)
      fun _ => rfl).bind fun _ => .of_pure fun known => ?_
    exact .kept (formed_iff_slotted.mpr known.2) (Law.not_forbids_of_kind rfl)
  case method =>
    refine Meets.of_child.bind fun first => (key_meets sound 0 rfl id).bind fun first' => ?_
    refine Meets.of_child.bind fun params => (any_meets sound 1 rfl
      fun known => ⟨known.1.1.1, known.2⟩).bind fun params' => ?_
    refine Meets.of_child.bind fun body => (any_meets sound 2 rfl
      fun known => ⟨known.1.1.1.1.1, known.2⟩).bind fun body' => .of_pure ?_
    rintro ⟨⟨⟨⟨⟨⟨below, _⟩, keyIs⟩, _⟩, paramsAre⟩, _⟩, bodyIs⟩
    exact .kept ((((Patched.refl.set 0 keyIs).set 1 paramsAre).set 2 bodyIs).formed
      below.formed rfl) (Law.not_forbids_of_kind rfl)
  case classField =>
    refine Meets.of_child.bind fun first => (key_meets sound 0 rfl id).bind fun first' => ?_
    refine Meets.of_child.bind fun value => (operand_meets sound 1 rfl
      fun known => ⟨known.1.1.1, known.2⟩).bind fun value' => .of_pure ?_
    rintro ⟨⟨⟨⟨below, _⟩, keyIs⟩, _⟩, valueIs⟩
    exact .kept (((Patched.refl.set 0 keyIs).set 1 valueIs).formed below.formed rfl)
      (Law.not_forbids_of_kind rfl)
  case staticBlock =>
    exact Meets.of_child.bind fun _ => (any_meets sound 0 rfl id).bind fun _ =>
      .of_pure fun known => .kept ((Patched.refl.set 0 known.2).formed known.1.1.formed rfl)
        (Law.not_forbids_of_kind rfl)

/-! ### Declarations -/

structure Declares (law : Law) (levels : Nat) (node : Node) : Prop where
  below : Below law (levels + 1) node
  isKind : node.kind? = some .varDecl ∨ node.kind? = some .declarator

theorem declared_meets (sound : Sound law levels walker) (node : Node) :
    Meets (Declares law levels node) (Callable.declared walker node)
      fun result => Formed law result ∧ result.kind? = node.kind? := by
  refine Callable.declared.induct
    (fun node => Meets (Declares law levels node) (Callable.declared walker node)
      fun result => Formed law result ∧ result.kind? = node.kind?)
    (fun declarators => ∀ place start,
      Meets (SlottedFrom .loose .varDecl place (start + 1) declarators ∧
          ∀ child, child ∈ declarators → Below law levels child.node)
        (Callable.declaredAll walker declarators) (SlottedFrom law .varDecl place (start + 1)))
    ?empty ?declaration ?declarator ?malformed ?other ?none ?cons node
  case empty =>
    intro flags place
    rw [Callable.declared]
    exact .of_pure fun _ => ⟨formed_iff_slotted.mpr .nil, rfl⟩
  case declaration =>
    intro flags place word declarators induction
    rw [Callable.declared]
    refine ((induction place 0).weaken fun known => ⟨(formed_iff_slotted.mp
      known.below.formed).tail, fun child there =>
        known.below.child (List.mem_cons_of_mem _ there)⟩).bind fun results => .of_pure ?_
    rintro ⟨known, resultsAre⟩
    have wordIs : Slotted law .varDecl place 0 word := (known.below.slotted rfl).1.fixed rfl
    exact ⟨formed_iff_slotted.mpr (.cons wordIs resultsAre), rfl⟩
  case declarator =>
    intro kind flags place target initial notDeclaration
    rw [Callable.declared]
    · have isDeclarator : Declares law levels (.tree kind flags place [target, initial]) →
          kind = .declarator := by
        rintro ⟨_, isKind | isKind⟩
        · exact absurd (Option.some.inj isKind) notDeclaration
        · exact Option.some.inj isKind
      have found : Declares law levels (.tree kind flags place [target, initial]) →
          Below law (levels + 1) (.tree .declarator flags place [target, initial]) := fun known =>
        isDeclarator known ▸ known.below
      refine (any_meets sound 0 rfl fun known => ⟨found known, rfl⟩).bind fun target' => ?_
      refine (operand_meets sound 1 rfl fun known => ⟨found known.1, rfl⟩).bind
        fun initial' => .of_pure ?_
      rintro ⟨⟨known, targetIs⟩, initialIs⟩
      cases isDeclarator known
      exact ⟨formed_iff_slotted.mpr (.cons targetIs (.cons initialIs .nil)), rfl⟩
    all_goals assumption
  case malformed =>
    intro kind flags place children _ _ _
    rw [Callable.declared]
    · exact .of_throw
    all_goals assumption
  case other =>
    intro node _ _ _ _
    rw [Callable.declared]
    · exact .of_throw
    all_goals assumption
  case none =>
    intro place start
    rw [Callable.declaredAll]
    exact .of_pure fun _ => .nil
  case cons =>
    intro seat node rest nodeIs restAre place start
    rw [Callable.declaredAll]
    have isOnly : ∀ more, Kind.role .varDecl (start + 1 + more) = .only .declarator := by
      intro more
      rw [Nat.add_right_comm]
      rfl
    cases node with
    | absent | leaf => exact .of_throw
    | tree kind flags inner children =>
        have isDeclarator : SlottedFrom .loose .varDecl place (start + 1)
            (⟨seat, .tree kind flags inner children⟩ :: rest) → kind = .declarator := by
          intro slotted
          have admitted := slotted.head.fits.admitted
          rw [show Kind.role .varDecl (start + 1) = _ from isOnly 0] at admitted
          exact Option.some.inj (admitted.resolve_right nofun)
        refine (nodeIs.weaken fun known => ⟨(known.2 _ List.mem_cons_self).succ,
          .inr (congrArg some (isDeclarator known.1))⟩).bind fun first => ?_
        refine ((restAre place (start + 1)).weaken fun known => ⟨known.1.1.tail,
          fun child there => known.1.2 child (List.mem_cons_of_mem _ there)⟩).bind
            fun others => .of_pure ?_
        rintro ⟨⟨⟨slotted, _⟩, formed, sameKind⟩, othersAre⟩
        have isKind : first.kind? = some .declarator :=
          sameKind.trans (congrArg some (isDeclarator slotted))
        exact .cons (.of_only formed isKind (isOnly 0) rfl) othersAre

theorem declaration_meets (sound : Sound law levels walker) {children : List (Child Node)}
    (isDeclaration : kind.category? = some .declaration) :
    Meets (Below law (levels + 1) (.tree kind flags place children))
      (Callable.declaration walker ⟨kind, flags, place, children⟩)
      (Walked law (.tree kind flags place children)) := by
  have is : (kind = .varDecl ∨ kind = .declarator) ∧ kind.isFoldable = false := by
    cases kind <;> first | decide | cases isDeclaration
  refine ((declared_meets sound _).weaken fun below =>
    ⟨below, is.1.imp (congrArg some) (congrArg some)⟩).bind fun node => .of_pure fun known => ?_
  refine .same ⟨known.2.1, Law.not_forbids_of_kind ?_⟩ known.2.2
  rw [known.2.2]
  exact is.2

end ScriptFold
