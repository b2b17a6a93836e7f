import ScriptFold.Proofs.Shape.Program

/-!
# Well-formed and fully folded scripts

A folded script is well-formed: its lists of statements hold statements that do something,
and where an expression stood there is an expression.  Folded with values and functions
alone, it is also fully folded: no node is left that folding would have replaced.
-/

namespace ScriptFold

variable {law : Law} {root : Node} {kind : Kind} {place : Option Place} {index : Nat}
variable {child : Child Node}

inductive Node.Within (root : Node) : Node → Prop where
  | root : Within root root
  | child {kind : Kind} {flags : Flags} {place : Option Place} {children : List (Child Node)}
      {child : Child Node} (within : Within root (.tree kind flags place children))
      (there : child ∈ children) : Within root child.node

/-- Somewhere in a tree, a node of some kind has a child at some index. -/
def Node.HasChild (root : Node) (kind : Kind) (place : Option Place) (index : Nat)
    (child : Child Node) : Prop :=
  ∃ flags children, root.Within (.tree kind flags place children) ∧ children[index]? = some child

theorem Formed.within {node : Node} (formed : Formed law root) (within : root.Within node) :
    Formed law node := by
  induction within with
  | root => exact formed
  | child _ there induction => exact induction.children there

theorem Formed.hasChild (formed : Formed law root)
    (hasChild : root.HasChild kind place index child) : Slotted law kind place index child := by
  obtain ⟨flags, children, within, found⟩ := hasChild
  exact (formed.within within).slotted found

/-! ### Well-formed scripts -/

/-- Whether a child is one of a list of statements: of a program, a block or a case. -/
def Kind.listsStatement (kind : Kind) (index : Nat) : Bool :=
  kind == .program || kind == .block || (kind == .switchCase && decide (0 < index))

/-- A tree that is a statement, but no empty one, no empty block and no program. -/
structure IsProperStatement (node : Node) : Prop where
  isStatement : node.isStatement = true
  notEmpty : node.kind? ≠ some .emptyStmt
  notProgram : node.kind? ≠ some .program
  notEmptyBlock : node.kind? = some .block → node.children ≠ []

/-- Roles of positions that hold expressions or parts of patterns. -/
def Role.isExpression : Role → Bool
  | .operand _ _ | .callee | .name | .quasi => true
  | _ => false

/-- The kinds of trees that readers put in such a position instead of an expression: a
declaration at the head of a loop, the block of an arrow function, an exported function or
class. -/
def Role.others : Role → List Kind
  | .operand _ also => also
  | _ => []

/-- What an expression position holds: a tree that is no statement, unless there was no
expression when it was read. -/
inductive HoldsExpression (role : Role) (place : Option Place) (index : Nat)
    (child : Child Node) : Prop where
  | expression (isOperand : child.node.isOperand = true)
  | stillEmpty (isAbsent : child.node = .absent)
      (wasAbsent : place.bind (fun known => known.former[index]?) = some .absent)
  | stillOther {kind : Kind} (isOther : kind ∈ role.others) (isKind : child.node.kind? = some kind)
      (isKept : child.seat = some index)

/-- A tree whose lists of statements hold proper statements and whose expression positions
hold expressions. -/
structure WellFormed (root : Node) : Prop where
  statements : ∀ kind place index child, root.HasChild kind place index child →
    kind.listsStatement index = true → IsProperStatement child.node
  expressions : ∀ kind place index child, root.HasChild kind place index child →
    (kind.role index).isExpression = true → HoldsExpression (kind.role index) place index child

theorem role_of_listsStatement (lists : kind.listsStatement index = true) :
    kind.role index = .listed := by
  simp only [Kind.listsStatement, Bool.or_eq_true, beq_iff_eq, Bool.and_eq_true,
    decide_eq_true_eq] at lists
  rcases lists with (rfl | rfl) | ⟨rfl, isBehind⟩
  · rfl
  · rfl
  · obtain ⟨before, rfl⟩ := Nat.exists_eq_add_of_lt isBehind
    rfl

theorem isProperStatement_of_staysWhole {node : Node} (isStatement : node.isStatement = true)
    (whole : Slot.staysWhole node = true) : IsProperStatement node := by
  cases node with
  | absent | leaf => cases isStatement
  | tree kind flags place children =>
      refine ⟨isStatement, ?_, ?_, ?_⟩
      · rintro isKind
        cases isKind
        cases whole
      · rintro isKind
        cases isKind
        cases whole
      · intro isKind isEmpty
        cases isKind
        obtain rfl := List.map_eq_nil_iff.mp isEmpty
        cases whole

private theorem holdsExpression_of_slotted (slotted : Slotted law kind place index child)
    (isExpression : (kind.role index).isExpression = true) :
    HoldsExpression (kind.role index) place index child := by
  have admitted := slotted.fits.admitted
  have kept := slotted.fits.kept
  revert isExpression admitted kept
  cases kind.role index with
  | name => exact fun _ isIdent _ => .expression (isOperand_of_kind isIdent rfl)
  | quasi => exact fun _ isTemplate _ => .expression (isOperand_of_kind isTemplate rfl)
  | callee => exact fun _ isOperand _ => .expression isOperand
  | operand optional also =>
      rintro _ admitted kept
      rcases kept rfl with isOperand | isKept
      · exact .expression isOperand
      · rcases admitted with isOperand | ⟨_, isAbsent⟩ | ⟨inner, isAlso, isKind⟩
        · exact .expression isOperand
        · rw [Child.IsKept, isAbsent] at isKept
          exact .stillEmpty isAbsent isKept
        · exact .stillOther isAlso isKind ((isKept_iff_of_isTree (isTree_of_kind isKind)).mp isKept)
  | word | logicalOp | inert | key | listed | only | any | nothing => nofun

private theorem Formed.wellFormed (formed : Formed law root) (tidy : law.tidy) : WellFormed root
    := by
  constructor
  · intro kind place index child hasChild lists
    have slotted := formed.hasChild hasChild
    have isListed := role_of_listsStatement lists
    have admitted := slotted.fits.admitted
    rw [isListed] at admitted
    exact isProperStatement_of_staysWhole admitted.1 (slotted.fits.tidy tidy isListed)
  · intro kind place index child hasChild isExpression
    exact holdsExpression_of_slotted (formed.hasChild hasChild) isExpression

/-- A script that was folded with template macros and fragments given as texts is
well-formed, unless a node of an unexpected kind was noticed. -/
theorem folded_script_wellFormed {host : Host} {bindings : Bindings} {depthLimit : Int}
    {source : Source} {before diagnostics : List Diagnostic} {folded : Node}
    (areTemplates : AreTemplates bindings.macros) (areTexts : AreTexts bindings.fragments)
    (ran : (Evaluate.tree host bindings depthLimit source).run.run before =
      (.ok folded, diagnostics))
    (unknown : NothingUnknown diagnostics) : WellFormed folded := by
  have formed := (tree_tidied areTemplates areTexts before folded diagnostics ran unknown).2 trivial
  exact formed.wellFormed trivial

/-- A run that reports nothing and does not fail ends in a result. -/
theorem exists_ok_of_isSilent {failure result : Type}
    (outcome : Except failure result × List Diagnostic)
    (isSilent : outcome.1.toOption.isSome = true ∧ outcome.2 = []) :
    ∃ ended, outcome = (.ok ended, []) := by
  obtain ⟨ended | ended, diagnostics⟩ := outcome
  · cases isSilent.1
  · exact ⟨ended, by rw [← isSilent.2]⟩

/-- A value, a template and a fragment. -/
def noteBindings : Bindings where
  values := [(Text.ofString "on", .bool true)]
  macros := [(Text.ofString "note", .template (Text.ofString "log($0);"))]
  fragments := [(Text.ofString "extra", .text (Text.ofString "a + b"))]

/-- A branch that is taken and expands a template, with empty statements in between. -/
def noteScript : Source :=
  ⟨Text.ofString "if (on) \x7b ; note(extra); \x7d else stop();\nconst f = x => \x7b ; \x7d;", none,
    .script⟩

theorem noteScript_wellFormed :
    ∃ folded, (Evaluate.tree Host.none noteBindings 100 noteScript).run.run [] =
      (.ok folded, []) ∧ WellFormed folded := by
  have areTemplates : AreTemplates noteBindings.macros := by
    intro entry there
    rcases List.mem_singleton.mp there with rfl
    exact ⟨_, rfl⟩
  have areTexts : AreTexts noteBindings.fragments := by
    intro entry there
    rcases List.mem_singleton.mp there with rfl
    exact ⟨_, rfl⟩
  obtain ⟨folded, ran⟩ := exists_ok_of_isSilent
    ((Evaluate.tree Host.none noteBindings 100 noteScript).run.run []) (by decide +kernel)
  exact ⟨folded, ran, folded_script_wellFormed areTemplates areTexts ran nofun⟩

/-! ### Fully folded scripts -/

/-- Whether a child is the name that a call or construction calls. -/
def IsCalledName (kind : Kind) (index : Nat) (node : Node) : Prop :=
  (kind = .call ∨ kind = .newExpr) ∧ index = 0 ∧ node.kind? = some .ident

/-- Whether a child is the template behind a tag. -/
def IsTagged (kind : Kind) (index : Nat) (node : Node) : Prop :=
  kind = .taggedTemplate ∧ index = 1 ∧ node.kind? = some .template

/-- A tree in which only names that are called and templates behind tags are left of what
could be folded. -/
structure FullyFolded (values : Table Value) (tree : Node) : Prop where
  root : ¬ Residue (HasLiteral values) tree
  children : ∀ kind place index child, tree.HasChild kind place index child →
    Residue (HasLiteral values) child.node →
      IsCalledName kind index child.node ∨ IsTagged kind index child.node

private theorem role_callee (isCallee : kind.role index = .callee) :
    (kind = .call ∨ kind = .newExpr) ∧ index = 0 := by
  cases kind with
  | template =>
      rcases Nat.mod_two_eq_zero_or_one index with isEven | isOdd
      · rw [template_word isEven] at isCallee
        cases isCallee
      · rw [template_role isOdd] at isCallee
        cases isCallee
  | _ => rcases index with _ | _ | _ | _ | _ | _ <;> first | decide | cases isCallee

private theorem role_quasi (isQuasi : kind.role index = .quasi)
    : kind = .taggedTemplate ∧ index = 1 := by
  cases kind with
  | template =>
      rcases Nat.mod_two_eq_zero_or_one index with isEven | isOdd
      · rw [template_word isEven] at isQuasi
        cases isQuasi
      · rw [template_role isOdd] at isQuasi
        cases isQuasi
  | _ => rcases index with _ | _ | _ | _ | _ | _ <;> first | decide | cases isQuasi

private theorem exempts_cases {node : Node} (exempt : (kind.role index).exempts node = true) :
    IsCalledName kind index node ∨ IsTagged kind index node := by
  cases isRole : kind.role index with
  | callee =>
      rw [isRole] at exempt
      obtain ⟨isCall, isFirst⟩ := role_callee isRole
      exact .inl ⟨isCall, isFirst, kind?_of_isKind exempt⟩
  | quasi =>
      rw [isRole] at exempt
      obtain ⟨isTagged, isSecond⟩ := role_quasi isRole
      exact .inr ⟨isTagged, isSecond, kind?_of_isKind exempt⟩
  | word | logicalOp | inert | key | operand | name | listed | only | any | nothing =>
      rw [isRole] at exempt
      cases exempt

private theorem Good.fullyFolded {values : Table Value} (good : Good (.finished values) root) :
    FullyFolded values root := by
  refine ⟨fun residue => good.folded ⟨trivial, residue⟩, ?_⟩
  intro kind place index child hasChild residue
  exact exempts_cases ((good.formed.hasChild hasChild).fits.folded ⟨trivial, residue⟩)

/-- A script that was folded with values and functions alone is fully folded, unless a node
of an unexpected kind was noticed. -/
theorem folded_script_fullyFolded {host : Host} {values : Table Value} {functions : Table String}
    {depthLimit : Int} {source : Source} {before diagnostics : List Diagnostic} {folded : Node}
    (ran : (Evaluate.tree host ⟨values, functions, [], []⟩ depthLimit source).run.run before =
      (.ok folded, diagnostics))
    (unknown : NothingUnknown diagnostics) : FullyFolded values folded :=
  ((tree_finished before folded diagnostics ran unknown).2 trivial).fullyFolded

/-- The host whose only function gives its argument back. -/
def echoHost : Host :=
  ⟨fun _ arguments => .ok (arguments.headD .undefined), fun _ _ => .error .host⟩

def sumValues : Table Value :=
  [(Text.ofString "two", .num (.int 2))]

/-- Sums and a template that are known, a loop that never runs and a name that is called. -/
def sumScript : Source :=
  ⟨Text.ofString "f(two + 1, `n$\x7btwo\x7d`, echo(two)); while (!two) g(); two(x ? two : y);",
    none, .script⟩

theorem sumScript_fullyFolded :
    ∃ folded, (Evaluate.tree echoHost ⟨sumValues, [(Text.ofString "echo", "echo")], [], []⟩ 100
      sumScript).run.run [] = (.ok folded, []) ∧ FullyFolded sumValues folded := by
  obtain ⟨folded, ran⟩ := exists_ok_of_isSilent
    ((Evaluate.tree echoHost ⟨sumValues, [(Text.ofString "echo", "echo")], [], []⟩ 100
      sumScript).run.run []) (by decide +kernel)
  exact ⟨folded, ran, folded_script_fullyFolded ran nofun⟩

end ScriptFold
