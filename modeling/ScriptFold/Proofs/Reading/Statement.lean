import ScriptFold.Grammar.Script
import ScriptFold.Proofs.Reading.Expression

/-!
# Scripts as they are read

Every reader of statements builds its trees as they are read, and so do the rules of
every level; hence the tree of a script is as it is read.
-/

namespace ScriptFold

namespace Grammar

variable {rules : Rules}

theorem declaration_asRead (reads : ReadTrees rules) : Yields (declaration rules) AsRead := by
  refine .after fun start => .bind (Yields.commaItems ?_) fun declarators declaratorsAre =>
    finish_asRead nofun (.cons .leaf declaratorsAre)
  exact .after fun _ => .bind reads.target fun _ targetIs => .after fun _ =>
    .either reads.assignment absent_asRead fun _ initialIs =>
      finish_asRead nofun (.cons targetIs (.cons initialIs .nil))

theorem declarationStatement_asRead (reads : ReadTrees rules) :
    Yields (declarationStatement rules) AsRead :=
  .after fun _ => .bind (declaration_asRead reads) fun _ partsAre => .after fun _ =>
    finish_asRead nofun partsAre.children

theorem expressionStatement_asRead (reads : ReadTrees rules) :
    Yields (expressionStatement rules) AsRead :=
  .after fun _ => .bind reads.expression.allowingIn fun _ valueIs => .after fun _ =>
    finish_asRead nofun (.cons valueIs .nil)

theorem parenTest_asRead (reads : ReadTrees rules) : Yields (parenTest rules) AsRead :=
  .after fun _ => .bind reads.expression.allowingIn fun _ testIs => .after fun _ =>
    .of_pure testIs

theorem ifStatement_asRead (reads : ReadTrees rules) : Yields (ifStatement rules) AsRead :=
  .after fun _ => .bind (parenTest_asRead reads) fun _ testIs =>
    .bind reads.statement fun _ consequentIs => .after fun _ =>
      .either reads.statement absent_asRead fun _ alternateIs =>
        finish_asRead nofun (.cons testIs (.cons consequentIs (.cons alternateIs .nil)))

theorem whileStatement_asRead (reads : ReadTrees rules) :
    Yields (whileStatement rules) AsRead :=
  .after fun _ => .bind (parenTest_asRead reads) fun _ testIs =>
    .bind reads.statement fun _ bodyIs =>
      finish_asRead nofun (.cons testIs (.cons bodyIs .nil))

theorem doWhileStatement_asRead (reads : ReadTrees rules) :
    Yields (doWhileStatement rules) AsRead :=
  .after fun _ => .bind reads.statement fun _ bodyIs => .after fun _ =>
    .bind (parenTest_asRead reads) fun _ testIs => .after fun _ =>
      finish_asRead nofun (.cons bodyIs (.cons testIs .nil))

theorem forInitial_asRead (reads : ReadTrees rules) : Yields (forInitial rules) AsRead := by
  refine .after fun token => .after fun next => ?_
  split
  · exact absent_asRead
  · apply Yields.allowingIn
    split
    · exact declaration_asRead reads
    · exact reads.expression

theorem forEach_asRead (reads : ReadTrees rules) {start : Token} {isAwait : Bool}
    {initial : Node} (initialIs : AsRead initial) :
    Yields (forEach rules start isAwait initial) AsRead := by
  refine .after fun word => .either (.of_pure initialIs) (asTarget_asRead initialIs)
    fun left leftIs => .bind (Yields.allowingIn ?_) fun right rightIs => .after fun _ =>
      .bind reads.statement fun body bodyIs =>
        finishWith_asRead ?_ (.cons leftIs (.cons rightIs (.cons bodyIs .nil)))
  · split
    · exact reads.expression
    · exact reads.assignment
  · split <;> exact nofun

private theorem forParts_asRead (reads : ReadTrees rules) {start : Token} {initial : Node}
    (initialIs : AsRead initial) : Yields (forParts rules start initial) AsRead := by
  have absentOr : ∀ closer, Yields (do
      if ← check [closer] then return .absent
      rules.expression) AsRead := by
    intro closer
    refine .after fun isAbsent => ?_
    split
    · exact absent_asRead
    · exact reads.expression
  have parts : Yields (do
      let test ← (do
        if ← check [.semicolon] then return .absent
        rules.expression)
      let _ ← expect .semicolon
      let update ← (do
        if ← check [.closeParen] then return .absent
        rules.expression)
      return (test, update)) fun parts => AsRead parts.1 ∧ AsRead parts.2 :=
    .bind (absentOr .semicolon) fun _ testIs => .after fun _ =>
      .bind (absentOr .closeParen) fun _ updateIs => .of_pure ⟨testIs, updateIs⟩
  exact .after fun _ => .bind parts.allowingIn fun parts partsAre => .after fun _ =>
    .bind reads.statement fun _ bodyIs => finish_asRead nofun
      (.cons initialIs (.cons partsAre.1 (.cons partsAre.2 (.cons bodyIs .nil))))

theorem forStatement_asRead (reads : ReadTrees rules) : Yields (forStatement rules) AsRead := by
  refine .after fun start => .after fun isAwait => .after fun _ =>
    .bind (forInitial_asRead reads) fun initial initialIs => .after fun _ => .after fun _ => ?_
  split
  · exact forEach_asRead reads initialIs
  · exact forParts_asRead reads initialIs

private theorem caseTest_asRead (reads : ReadTrees rules) : Yields (caseTest rules) AsRead := by
  refine .after fun isDefault => ?_
  split
  · exact absent_asRead
  · exact .after fun _ => reads.expression.allowingIn

private theorem switchCase_asRead (reads : ReadTrees rules) {switchStart : Token} :
    Yields (switchCase rules switchStart) AsRead :=
  .after fun _ => .bind (caseTest_asRead reads) fun _ testIs => .after fun _ =>
    .bind (Yields.repeatWhile reads.statement) fun _ bodyIs =>
      finish_asRead nofun (.cons testIs bodyIs)

theorem switchStatement_asRead (reads : ReadTrees rules) :
    Yields (switchStatement rules) AsRead :=
  .after fun _ => .bind (parenTest_asRead reads) fun _ discriminantIs => .after fun _ =>
    .bind (Yields.repeatWhile (switchCase_asRead reads)) fun _ casesAre =>
      finish_asRead nofun (.cons discriminantIs casesAre)

private theorem jumpLabel_asRead : Yields jumpLabel AsRead := by
  refine .after fun token => ?_
  split
  · exact .after fun _ => .of_pure .leaf
  · exact absent_asRead

theorem jumpStatement_asRead : Yields jumpStatement AsRead := by
  refine .after fun start => .bind jumpLabel_asRead fun label labelIs => .after fun _ =>
    finish_asRead ?_ (.cons labelIs .nil)
  split <;> exact nofun

theorem returnStatement_asRead (reads : ReadTrees rules) :
    Yields (returnStatement rules) AsRead :=
  .after fun _ => .after fun _ => .either absent_asRead reads.expression.allowingIn
    fun _ valueIs => .after fun _ => finish_asRead nofun (.cons valueIs .nil)

theorem throwStatement_asRead (reads : ReadTrees rules) :
    Yields (throwStatement rules) AsRead := by
  refine .after fun start => .after fun token => .optionally ?_
  exact .bind reads.expression.allowingIn fun _ valueIs => .after fun _ =>
    finish_asRead nofun (.cons valueIs .nil)

private theorem catchClause_asRead (reads : ReadTrees rules) : Yields (catchClause rules) AsRead
    := by
  refine .after fun start => .after fun hasParam => ?_
  have finished : ∀ param, AsRead param → Yields (do
      let body ← block rules
      finish .catchClause [param, body] start) AsRead :=
    fun param paramIs => .bind (block_asRead reads) fun _ bodyIs =>
      finish_asRead nofun (.cons paramIs (.cons bodyIs .nil))
  split
  · exact .bind reads.target fun _ targetIs => .after fun _ =>
      .bind (.of_pure targetIs) finished
  · exact .bind absent_asRead finished

theorem tryStatement_asRead (reads : ReadTrees rules) : Yields (tryStatement rules) AsRead := by
  refine .after fun start => .bind (block_asRead reads) fun body bodyIs => .after fun _ =>
    .either (catchClause_asRead reads) absent_asRead fun handler handlerIs => .after fun _ =>
      .either (block_asRead reads) absent_asRead fun finalizer finalizerIs => ?_
  have finished : Yields (finish .tryStmt [body, handler, finalizer] start) AsRead :=
    finish_asRead nofun (.cons bodyIs (.cons handlerIs (.cons finalizerIs .nil)))
  show Yields (if _ then _ else _) AsRead
  split
  · exact .after fun _ => .after fun _ => finished
  · exact finished

theorem rawStatement_asRead {kind : Kind} {start : Token}
    (notShorthand : kind ≠ .shorthandProperty) : Yields (rawStatement kind start) AsRead :=
  .after fun _ => finish_asRead notShorthand (.cons .leaf .nil)

theorem importDeclaration_asRead : Yields importDeclaration AsRead :=
  .after fun _ => .after fun _ => .after fun _ => .after fun _ => .after fun _ =>
    rawStatement_asRead nofun

private theorem exportDefault_asRead (reads : ReadTrees rules) {start : Token} :
    Yields (exportDefault rules start) AsRead := by
  refine .after fun next => .after fun _ => .after fun _ => .after fun isClass => ?_
  have finished : ∀ exported, AsRead exported →
      Yields (finish .exportDefault [exported] start) AsRead :=
    fun exported exportedIs => finish_asRead nofun (.cons exportedIs .nil)
  split
  · exact .bind (function_asRead reads nofun) finished
  · split
    · exact .bind (classDefinition_asRead reads nofun) finished
    · exact .bind reads.assignment.allowingIn fun _ valueIs => .after fun _ =>
        .bind (.of_pure valueIs) finished

private theorem exportList_asRead {start : Token} : Yields (exportList start) AsRead :=
  .after fun _ => .after fun _ => .optionally <| .after fun _ => rawStatement_asRead nofun

private theorem exportAll_asRead {start : Token} : Yields (exportAll start) AsRead := by
  have finished : Yields (do
      moduleName
      statementEnd
      rawStatement .exportAll start) AsRead :=
    .after fun _ => .after fun _ => rawStatement_asRead nofun
  have checked : Yields (do
      if !(← checkName "from") then failAt .missingFrom (← current)
      moduleName
      statementEnd
      rawStatement .exportAll start) AsRead := by
    refine .after fun isFrom => ?_
    split
    · exact .after fun _ => .after fun _ => finished
    · exact finished
  refine .after fun isNamed => ?_
  split
  · exact .after fun _ => .after fun _ => checked
  · exact checked

theorem exportStatement_asRead (reads : ReadTrees rules) :
    Yields (exportStatement rules) AsRead := by
  refine .after fun start => .after fun isDefault => ?_
  split
  · exact exportDefault_asRead reads
  · refine .after fun isList => ?_
    split
    · exact exportList_asRead
    · refine .after fun isAll => ?_
      split
      · exact exportAll_asRead
      · exact .bind reads.statement fun _ exportedIs => .optionally <|
          finish_asRead nofun (.cons exportedIs .nil)

private theorem withStatement_asRead (reads : ReadTrees rules) : Yields
    (withStatement rules) AsRead :=
  .after fun _ => .after fun _ => .bind reads.expression.allowingIn fun _ objectIs =>
    .after fun _ => .bind reads.statement fun _ bodyIs =>
      finish_asRead nofun (.cons objectIs (.cons bodyIs .nil))

private theorem labeledStatement_asRead (reads : ReadTrees rules) :
    Yields (labeledStatement rules) AsRead :=
  .after fun _ => .after fun _ => .bind reads.statement fun _ bodyIs =>
    finish_asRead nofun (.cons .leaf (.cons bodyIs .nil))

theorem statement_asRead (reads : ReadTrees rules) : Yields (statement rules) AsRead := by
  refine .after fun token => ?_
  split
  case h_1 => exact block_asRead reads
  case h_2 => exact .after fun _ => finish_asRead nofun .nil
  case h_3 | h_4 | h_5 => exact declarationStatement_asRead reads
  case h_6 => exact ifStatement_asRead reads
  case h_7 => exact whileStatement_asRead reads
  case h_8 => exact doWhileStatement_asRead reads
  case h_9 => exact forStatement_asRead reads
  case h_10 => exact switchStatement_asRead reads
  case h_11 | h_12 => exact jumpStatement_asRead
  case h_13 => exact returnStatement_asRead reads
  case h_14 => exact throwStatement_asRead reads
  case h_15 => exact tryStatement_asRead reads
  case h_16 => exact function_asRead reads nofun
  case h_17 => exact classDefinition_asRead reads nofun
  case h_18 => exact .after fun _ => .after fun _ => finish_asRead nofun .nil
  case h_19 => exact withStatement_asRead reads
  case h_20 =>
    refine .after fun next => ?_
    split
    · exact expressionStatement_asRead reads
    · exact importDeclaration_asRead
  case h_21 => exact exportStatement_asRead reads
  case h_22 =>
    refine .after fun isFunction => ?_
    split
    · exact function_asRead reads nofun
    · refine .after fun next => ?_
      split
      · exact labeledStatement_asRead reads
      · exact expressionStatement_asRead reads
  case h_23 => exact expressionStatement_asRead reads

/-- The rules of every level build trees as they are read. -/
theorem rulesAt_readTrees (levels : Nat) : ReadTrees (rulesAt levels) := by
  induction levels with
  | zero =>
      exact ⟨.of_throw, .of_throw, .of_throw, fun _ => .of_throw, .of_throw, .of_throw, .of_throw,
        .of_throw⟩
  | succ levels induction =>
      exact ⟨statement_asRead induction, expression_asRead induction, assignment_asRead induction,
        binary_asRead induction, unary_asRead induction, leftHandSide_asRead induction,
        construction_asRead induction, bindingTarget_asRead induction⟩

private theorem statements_asRead (levels : Nat) : Yields (statements levels) (All AsRead) :=
  .repeatWhile (rulesAt_readTrees levels).statement

end Grammar

/-- The tree of a script covers its whole text and is as it is read. -/
theorem parseScript_asRead {source : Source} {levels : Nat} {node : Node}
    (parsed : parseScript source levels = .ok node) :
    ∃ statements, node = Grammar.program source statements ∧ Grammar.AsRead node := by
  unfold parseScript at parsed
  split at parsed
  case h_1 => cases parsed
  case h_2 tokens _ =>
    split at parsed
    case h_1 => cases parsed
    case h_2 statements after ran =>
      cases parsed
      exact ⟨statements, rfl, .read (Grammar.statements_asRead levels _ _ _ ran) nofun⟩

end ScriptFold
