import ScriptFold.Proofs.Reading.Statement
import ScriptFold.Proofs.Shape.Expression

/-!
# Scripts that readers build

Every reader of statements builds formed statements, and so do the rules of every level;
hence the tree of a script is formed.
-/

namespace ScriptFold

namespace Grammar

variable {rules : Rules}

/-- A tree that is read as a statement. -/
theorem finishWith_statement {kind : Kind} {flags : Flags} {nodes : List Node} {start : Token}
    (isRead : kind.isReadStatement = true) (nodesAre : ReadFrom kind 0 nodes) :
    Provides (finishWith flags kind nodes start) IsStatement :=
  (finishWith_shaped nodesAre).mono fun _ shaped => shaped.statement isRead

theorem finish_statement {kind : Kind} {nodes : List Node} {start : Token}
    (isRead : kind.isReadStatement = true) (nodesAre : ReadFrom kind 0 nodes) :
    Provides (finish kind nodes start) IsStatement :=
  finishWith_statement isRead nodesAre

/-- A statement that is read below another one. -/
theorem statement_formed (shapes : ReadShapes rules) : Provides rules.statement (Formed .loose) :=
  shapes.statement.mono fun _ statement => statement.formed

theorem absent_formed : Provides (pure .absent) (Formed .loose) :=
  .of_pure .absent

/-! ### Declarations and expressions -/

theorem declaration_shaped (shapes : ReadShapes rules) :
    Provides (declaration rules) (Shaped .varDecl) := by
  have declarator : ∀ first, Provides (do
      let target ← rules.target
      let initial ← if ← accept .assign then rules.assignment else pure .absent
      finish .declarator [target, initial] first) (Shaped .declarator) := fun first =>
    .bind shapes.target fun _ targetIs => .after fun _ =>
      .either (optional_provides shapes.assignment) absent_optional fun _ initialIs =>
        finish_shaped (.cons (.any targetIs.good.formed rfl) (.cons (.optional initialIs rfl) .nil))
  refine .after fun start => .bind (Leads.commaItems (.after declarator))
    fun declarators declaratorsAre => finish_shaped (.cons (.word rfl rfl) ?_)
  exact .of_all declaratorsAre fun index _ shaped => .only shaped (by rw [Nat.add_comm]; rfl)

theorem declarationStatement_statement (shapes : ReadShapes rules) :
    Provides (declarationStatement rules) IsStatement :=
  .after fun _ => .bind (declaration_shaped shapes) fun _ partsAre => .after fun _ =>
    finish_statement rfl (partsAre.formed.readFrom partsAre.isKind)

theorem expressionStatement_statement (shapes : ReadShapes rules) :
    Provides (expressionStatement rules) IsStatement :=
  .after fun _ => .bind shapes.expression.allowingIn fun _ valueIs => .after fun _ =>
    finish_statement rfl (.cons (.operand valueIs rfl) .nil)

theorem parenTest_operand (shapes : ReadShapes rules) :
    Provides (parenTest rules) (Operand .loose) :=
  .after fun _ => .bind shapes.expression.allowingIn fun _ testIs => .after fun _ =>
    .of_pure testIs

/-! ### Branches and loops -/

theorem ifStatement_statement (shapes : ReadShapes rules) :
    Provides (ifStatement rules) IsStatement :=
  .after fun _ => .bind (parenTest_operand shapes) fun _ testIs =>
    .bind (statement_formed shapes) fun _ consequentIs => .after fun _ =>
      .either (statement_formed shapes) absent_formed fun _ alternateIs => finish_statement rfl
        (.cons (.operand testIs rfl)
          (.cons (.any consequentIs rfl) (.cons (.any alternateIs rfl) .nil)))

theorem whileStatement_statement (shapes : ReadShapes rules) :
    Provides (whileStatement rules) IsStatement :=
  .after fun _ => .bind (parenTest_operand shapes) fun _ testIs =>
    .bind (statement_formed shapes) fun _ bodyIs =>
      finish_statement rfl (.cons (.operand testIs rfl) (.cons (.any bodyIs rfl) .nil))

theorem doWhileStatement_statement (shapes : ReadShapes rules) :
    Provides (doWhileStatement rules) IsStatement :=
  .after fun _ => .bind (statement_formed shapes) fun _ bodyIs => .after fun _ =>
    .bind (parenTest_operand shapes) fun _ testIs => .after fun _ =>
      finish_statement rfl (.cons (.any bodyIs rfl) (.cons (.operand testIs rfl) .nil))

/-- The first part of the head of a `for`: nothing, a declaration or an expression. -/
def IsInitial (node : Node) : Prop :=
  IsOptional node ∨ Shaped .varDecl node

theorem forInitial_initial (shapes : ReadShapes rules) :
    Provides (forInitial rules) IsInitial := by
  refine .after fun token => .after fun next => ?_
  split
  · exact .of_pure (.inl (.inr rfl))
  · apply Leads.allowingIn
    split
    · exact (declaration_shaped shapes).mono fun _ => .inr
    · exact shapes.expression.mono fun _ operand => .inl (.inl operand)

theorem IsInitial.readAt {kind : Kind} {node : Node} (initial : IsInitial node)
    (isRole : kind.role 0 = .operand true [.varDecl]) : ReadAt kind 0 node := by
  rcases initial with optional | shaped
  · exact .optional optional isRole
  · exact .also shaped isRole List.mem_cons_self

theorem IsInitial.formed {node : Node} (initial : IsInitial node) : Formed .loose node := by
  rcases initial with (operand | rfl) | shaped
  · exact operand.good.formed
  · exact .absent
  · exact shaped.formed

/-- The head of a `for` over keys or items. -/
theorem forHead_initial {initial : Node} (initialIs : IsInitial initial)
    (asRead : AsRead initial) :
    Provides (if initial.isKind .varDecl then pure initial else asTarget initial) IsInitial := by
  split
  case isTrue => exact .of_pure initialIs
  case isFalse notDeclaration =>
    refine (asTarget_targeted ⟨asRead, initialIs.formed⟩).mono fun target targeted => .inl ?_
    rcases initialIs with (operand | isAbsent) | shaped
    · exact .inl (targeted.operand operand.isOperand)
    · exact .inr (targeted.absent isAbsent)
    · refine absurd ?_ notDeclaration
      rw [Node.isKind, shaped.isKind]
      rfl

theorem forEach_statement (shapes : ReadShapes rules) {start : Token} {isAwait : Bool}
    {initial : Node} (initialIs : IsInitial initial) (asRead : AsRead initial) :
    Provides (forEach rules start isAwait initial) IsStatement := by
  refine .after fun word => .decided (forHead_initial initialIs asRead) fun left leftIs => ?_
  refine .bind (Leads.allowingIn ?_)
    fun right (rightIs : Operand .loose right) => .after fun _ =>
    .bind (statement_formed shapes) fun body bodyIs => ?_
  · split
    · exact shapes.expression
    · exact shapes.assignment
  · split <;>
      exact finishWith_statement rfl (.cons (leftIs.readAt rfl)
        (.cons (.operand rightIs rfl) (.cons (.any bodyIs rfl) .nil)))

private theorem forParts_statement (shapes : ReadShapes rules) {start : Token} {initial : Node}
    (initialIs : IsInitial initial) : Provides (forParts rules start initial) IsStatement := by
  have absentOr : ∀ closer, Provides (do
      if ← check [closer] then return .absent
      rules.expression) IsOptional := by
    intro closer
    refine .after fun isAbsent => ?_
    split
    · exact absent_optional
    · exact optional_provides shapes.expression
  have parts : Provides (do
      let test ← (do
        if ← check [.semicolon] then return .absent
        rules.expression)
      let _ ← expect .semicolon
      let update ← (do
        if ← check [.closeParen] then return .absent
        rules.expression)
      return (test, update)) fun parts => IsOptional parts.1 ∧ IsOptional parts.2 :=
    .bind (absentOr .semicolon) fun _ testIs => .after fun _ =>
      .bind (absentOr .closeParen) fun _ updateIs => .of_pure ⟨testIs, updateIs⟩
  exact .after fun _ => .bind parts.allowingIn fun parts partsAre => .after fun _ =>
    .bind (statement_formed shapes) fun _ bodyIs => finish_statement rfl
      (.cons (initialIs.readAt rfl) (.cons (.optional partsAre.1 rfl)
        (.cons (.optional partsAre.2 rfl) (.cons (.any bodyIs rfl) .nil))))

theorem forStatement_statement (shapes : ReadShapes rules) :
    Provides (forStatement rules) IsStatement := by
  refine .after fun start => .after fun isAwait => .after fun _ =>
    .bind ((forInitial_initial shapes).and_yields (forInitial_asRead shapes.trees))
      fun initial initialIs => .after fun _ => .after fun _ => ?_
  split
  · exact forEach_statement shapes initialIs.1 initialIs.2
  · exact forParts_statement shapes initialIs.1

/-! ### Switches -/

theorem caseTest_optional (shapes : ReadShapes rules) : Provides (caseTest rules) IsOptional := by
  refine .after fun isDefault => ?_
  split
  · exact absent_optional
  · exact .after fun _ => optional_provides shapes.expression.allowingIn

private theorem switchCase_shaped (shapes : ReadShapes rules) {switchStart : Token} :
    Provides (switchCase rules switchStart) (Shaped .switchCase) :=
  .after fun _ => .bind (caseTest_optional shapes) fun _ testIs => .after fun _ =>
    .bind (Leads.repeatWhile shapes.statement) fun _ bodyIs =>
      finish_shaped (.cons (.optional testIs rfl)
        (.of_all bodyIs fun _ _ is => .listed is (by rw [Nat.add_comm]; rfl)))

theorem switchStatement_statement (shapes : ReadShapes rules) :
    Provides (switchStatement rules) IsStatement :=
  .after fun _ => .bind (parenTest_operand shapes) fun _ discriminantIs => .after fun _ =>
    .bind (Leads.repeatWhile (switchCase_shaped shapes)) fun _ casesAre =>
      finish_statement rfl (.cons (.operand discriminantIs rfl)
        (.of_all casesAre fun _ _ is => .only is (by rw [Nat.add_comm]; rfl)))

/-! ### Jumps and failures -/

theorem jumpLabel_word : Provides jumpLabel fun node => node.isTree = false := by
  refine .after fun token => ?_
  split
  · exact .after fun _ => .of_pure rfl
  · exact .of_pure rfl

theorem jumpStatement_statement : Provides jumpStatement IsStatement := by
  refine .after fun start => .bind jumpLabel_word fun label labelIs => .after fun _ => ?_
  split <;> exact finish_statement rfl (.cons (.word labelIs rfl) .nil)

theorem returnStatement_statement (shapes : ReadShapes rules) :
    Provides (returnStatement rules) IsStatement :=
  .after fun _ => .after fun _ =>
    .either absent_optional (optional_provides shapes.expression.allowingIn)
      fun _ valueIs => .after fun _ => finish_statement rfl (.cons (.optional valueIs rfl) .nil)

theorem throwStatement_statement (shapes : ReadShapes rules) :
    Provides (throwStatement rules) IsStatement := by
  refine .after fun start => .after fun token => .optionally ?_
  exact .bind shapes.expression.allowingIn fun _ valueIs => .after fun _ =>
    finish_statement rfl (.cons (.operand valueIs rfl) .nil)

private theorem catchClause_formed (shapes : ReadShapes rules) :
    Provides (catchClause rules) (Formed .loose) := by
  refine .after fun start => .after fun hasParam => ?_
  have finished : ∀ param, Formed .loose param → Provides (do
      let body ← block rules
      finish .catchClause [param, body] start) (Formed .loose) :=
    fun param paramIs => .bind (block_shaped shapes) fun _ bodyIs =>
      (finish_shaped (.cons (.any paramIs rfl) (.cons (.any bodyIs.formed rfl) .nil))).mono
        fun _ (shaped : Shaped .catchClause _) => shaped.formed
  split
  · exact .bind shapes.target fun _ targetIs => .after fun _ =>
      .bind (.of_pure targetIs.good.formed) finished
  · exact .bind absent_formed finished

theorem tryStatement_statement (shapes : ReadShapes rules) :
    Provides (tryStatement rules) IsStatement := by
  have block : Provides (block rules) (Formed .loose) :=
    (block_shaped shapes).mono fun _ shaped => shaped.formed
  refine .after fun start => .bind block fun body bodyIs => .after fun _ =>
    .either (catchClause_formed shapes) absent_formed fun handler handlerIs => .after fun _ =>
      .either block absent_formed fun finalizer finalizerIs => ?_
  have finished : Provides (finish .tryStmt [body, handler, finalizer] start) IsStatement :=
    finish_statement rfl (.cons (.any bodyIs rfl)
      (.cons (.any handlerIs rfl) (.cons (.any finalizerIs rfl) .nil)))
  show Provides (if _ then _ else _) IsStatement
  split
  · exact .after fun _ => .after fun _ => finished
  · exact finished

/-! ### Modules -/

theorem rawStatement_statement {kind : Kind} {start : Token}
    (isRead : kind.isReadStatement = true) (isWord : kind.role 0 = .word) :
    Provides (rawStatement kind start) IsStatement :=
  .after fun _ => finish_statement isRead (.cons (.word rfl isWord) .nil)

theorem importDeclaration_statement : Provides importDeclaration IsStatement :=
  .after fun _ => .after fun _ => .after fun _ => .after fun _ => .after fun _ =>
    rawStatement_statement rfl rfl

theorem exportDefault_statement (shapes : ReadShapes rules) {start : Token} :
    Provides (exportDefault rules start) IsStatement := by
  refine .after fun next => .after fun _ => .after fun _ => .after fun isClass => ?_
  have finished : ∀ exported, ReadAt .exportDefault 0 exported →
      Provides (finish .exportDefault [exported] start) IsStatement :=
    fun exported exportedIs => finish_statement rfl (.cons exportedIs .nil)
  split
  · exact .bind ((function_shaped shapes (.inl rfl)).mono
      fun _ shaped => .also shaped rfl List.mem_cons_self) finished
  · split
    · exact .bind ((classDefinition_shaped shapes (.inl rfl)).mono
        fun _ shaped => .also shaped rfl (List.mem_cons_of_mem _ List.mem_cons_self)) finished
    · exact .bind shapes.assignment.allowingIn fun _ valueIs => .after fun _ =>
        .bind (.of_pure (.operand valueIs rfl)) finished

private theorem exportList_statement {start : Token} : Provides (exportList start) IsStatement :=
  .after fun _ => .after fun _ => .optionally <| .after fun _ => rawStatement_statement rfl rfl

private theorem exportAll_statement {start : Token} : Provides (exportAll start) IsStatement := by
  have finished : Provides (do
      moduleName
      statementEnd
      rawStatement .exportAll start) IsStatement :=
    .after fun _ => .after fun _ => rawStatement_statement rfl rfl
  have checked : Provides (do
      if !(← checkName "from") then failAt .missingFrom (← current)
      moduleName
      statementEnd
      rawStatement .exportAll start) IsStatement := by
    refine .after fun isFrom => ?_
    split
    · exact .after fun _ => .after fun _ => finished
    · exact finished
  refine .after fun isNamed => ?_
  split
  · exact .after fun _ => .after fun _ => checked
  · exact checked

theorem exportStatement_statement (shapes : ReadShapes rules) :
    Provides (exportStatement rules) IsStatement := by
  refine .after fun start => .after fun isDefault => ?_
  split
  · exact exportDefault_statement shapes
  · refine .after fun isList => ?_
    split
    · exact exportList_statement
    · refine .after fun isAll => ?_
      split
      · exact exportAll_statement
      · exact .bind (statement_formed shapes) fun _ exportedIs => .optionally <|
          finish_statement rfl (.cons (.any exportedIs rfl) .nil)

/-! ### Statements -/

theorem withStatement_statement (shapes : ReadShapes rules) :
    Provides (withStatement rules) IsStatement :=
  .after fun _ => .after fun _ => .bind shapes.expression.allowingIn fun _ objectIs =>
    .after fun _ => .bind (statement_formed shapes) fun _ bodyIs =>
      finish_statement rfl (.cons (.operand objectIs rfl) (.cons (.any bodyIs rfl) .nil))

theorem labeledStatement_statement (shapes : ReadShapes rules) :
    Provides (labeledStatement rules) IsStatement :=
  .after fun _ => .after fun _ => .bind (statement_formed shapes) fun _ bodyIs =>
    finish_statement rfl (.cons (.word rfl rfl) (.cons (.any bodyIs rfl) .nil))

theorem functionDeclaration_statement (shapes : ReadShapes rules) {nameRequired : Bool} :
    Provides (function rules .functionDecl nameRequired) IsStatement :=
  (function_shaped shapes (.inl rfl)).mono fun _ shaped => shaped.statement rfl

theorem statement_statement (shapes : ReadShapes rules) :
    Provides (statement rules) IsStatement := by
  refine .after fun token => ?_
  split
  case h_1 => exact (block_shaped shapes).mono fun _ shaped => shaped.statement rfl
  case h_2 => exact .after fun _ => finish_statement rfl .nil
  case h_3 | h_4 | h_5 => exact declarationStatement_statement shapes
  case h_6 => exact ifStatement_statement shapes
  case h_7 => exact whileStatement_statement shapes
  case h_8 => exact doWhileStatement_statement shapes
  case h_9 => exact forStatement_statement shapes
  case h_10 => exact switchStatement_statement shapes
  case h_11 | h_12 => exact jumpStatement_statement
  case h_13 => exact returnStatement_statement shapes
  case h_14 => exact throwStatement_statement shapes
  case h_15 => exact tryStatement_statement shapes
  case h_16 => exact functionDeclaration_statement shapes
  case h_17 =>
    exact (classDefinition_shaped shapes (.inl rfl)).mono fun _ shaped => shaped.statement rfl
  case h_18 => exact .after fun _ => .after fun _ => finish_statement rfl .nil
  case h_19 => exact withStatement_statement shapes
  case h_20 =>
    refine .after fun next => ?_
    split
    · exact expressionStatement_statement shapes
    · exact importDeclaration_statement
  case h_21 => exact exportStatement_statement shapes
  case h_22 =>
    refine .after fun isFunction => ?_
    split
    · exact functionDeclaration_statement shapes
    · refine .after fun next => ?_
      split
      · exact labeledStatement_statement shapes
      · exact expressionStatement_statement shapes
  case h_23 => exact expressionStatement_statement shapes

/-- The rules of every level build formed trees. -/
theorem rulesAt_readShapes (levels : Nat) : ReadShapes (rulesAt levels) := by
  induction levels with
  | zero =>
      exact ⟨rulesAt_readTrees 0, .of_throw, .of_throw, .of_throw, fun _ => .of_throw, .of_throw,
        .of_throw, .of_throw, .of_throw⟩
  | succ levels induction =>
      exact ⟨rulesAt_readTrees (levels + 1), statement_statement induction,
        expression_operand induction, assignment_operand induction, binary_operand induction,
        unary_operand induction, leftHandSide_operand induction, construction_operand induction,
        bindingTarget_operand induction⟩

private theorem statements_statement (levels : Nat) : Provides (statements levels)
    (All IsStatement) :=
  .repeatWhile (rulesAt_readShapes levels).statement

end Grammar

/-- The tree of a script is a formed program. -/
theorem parseScript_shaped {source : Source} {levels : Nat} {node : Node}
    (parsed : parseScript source levels = .ok node) : Shaped .program node := by
  unfold parseScript at parsed
  split at parsed
  case h_1 => cases parsed
  case h_2 tokens tokenized =>
    split at parsed
    case h_1 => cases parsed
    case h_2 statements after ran =>
      cases parsed
      have spelled : Grammar.State.IsSpelled ⟨source, tokens, none, false, tokens.length + 1⟩ :=
        Lexer.tokensFrom_spelled tokenized
      have statementsAre := (Grammar.statements_statement levels _ _ _ spelled ran).1
      exact read_shaped (.of_all statementsAre fun _ _ is => .listed is rfl)

end ScriptFold
