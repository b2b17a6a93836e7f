import ScriptFold.Grammar.Script
import ScriptFold.Proofs.Reading.Placing
import ScriptFold.Proofs.Spanning.Expression

/-!
# The spans of a script nest

Every reader of a statement spans what it reads, and so do the rules of every level.  The spans of
the tree of a script therefore nest, its own being the whole text.
-/

namespace ScriptFold

namespace Grammar

open Node

variable {rules : Rules} {start : Nat} {nodes : List Node}

/-! ### Declarations and expression statements -/

/-- A declaration and its parts, which a statement takes over. -/
theorem declaration_finished (spanning : SpanningRules rules) {token : Token}
    (proper : token.type ≠ .endOfInput) :
    Gathers (Facing token (Read token.start [])) (declaration rules)
      fun node state => Took token.start node.children state ∧ Took token.start [node] state := by
  have declarator : Spanning (do
      let first ← current
      let target ← rules.target
      let initial ← if ← accept .assign then rules.assignment else pure .absent
      finish .declarator [target, initial] first) := by
    refine .opening fun first => .bind spanning.target.opens fun target => ?_
    refine .after fun hasInitial => ?_
    exact .either (fun _ => spanning.assignment.adds) (fun _ => absent_adds)
      fun initial => finish_spanning nofun
  have finishes : ∀ nodes, Gathers (Took token.start nodes) (finish .varDecl nodes token)
      fun node state => Took token.start node.children state ∧ Took token.start [node] state := by
    intro nodes
    have finishes : Gathers (Took token.start nodes) (finish .varDecl nodes token)
      fun node state => Took token.start nodes state ∧ Finished token nodes node state :=
      finishWith_finished nofun fun _ => id
    refine finishes.mono fun node state both => ⟨?_, both.2.took⟩
    rw [both.2.children]
    exact both.1
  refine .take_facing proper (.leaf .declKind (.took ?_))
  exact .bind declarator.commaItems fun declarators => finishes _

theorem declaration_spanning (spanning : SpanningRules rules) : SpanningAhead (declaration rules) :=
  .of_facing fun _ proper => (declaration_finished spanning proper).mono fun _ _ => And.right

theorem declarationStatement_spanning (spanning : SpanningRules rules) {token : Token}
    (proper : token.type ≠ .endOfInput) : SpansFrom token (declarationStatement rules) := by
  refine .current_facing (.bind (declaration_finished spanning proper) fun parts => ?_)
  -- The tree of the declaration ends before the semicolon, so another one is made of its parts.
  refine .from_state ?_ fun _ => And.left
  exact .after fun _ => finish_spanning nofun

theorem expressionStatement_spanning (spanning : SpanningRules rules) :
    Spanning (expressionStatement rules) := by
  refine .opening fun token => .bind spanning.expression.opens.allowingIn fun value => ?_
  exact .after fun _ => finish_spanning nofun

theorem parenTest_adds (spanning : SpanningRules rules) : Adds start nodes (parenTest rules) := by
  refine .after fun bracket => .bind spanning.expression.adds.allowingIn fun test => ?_
  exact .after fun _ => .of_pure fun _ => id

/-! ### Branches and loops -/

theorem ifStatement_spanning (spanning : SpanningRules rules) : Spanning (ifStatement rules) := by
  refine .expect nofun fun token => .bind (parenTest_adds spanning) fun test => ?_
  refine .bind spanning.statement.adds fun consequent => .after fun hasElse => ?_
  refine .either (fun _ => spanning.statement.adds) (fun _ => absent_adds) fun alternate => ?_
  exact finish_spanning nofun

theorem whileStatement_spanning (spanning : SpanningRules rules) :
    Spanning (whileStatement rules) := by
  refine .expect nofun fun token => .bind (parenTest_adds spanning) fun test => ?_
  exact .bind spanning.statement.adds fun body => finish_spanning nofun

theorem doWhileStatement_spanning (spanning : SpanningRules rules) :
    Spanning (doWhileStatement rules) := by
  refine .expect nofun fun token => .bind spanning.statement.adds fun body => .after fun word => ?_
  refine .bind (parenTest_adds spanning) fun test => ?_
  exact .after fun _ => finish_spanning nofun

private theorem forInitial_adds (spanning : SpanningRules rules) : Adds start nodes
    (forInitial rules) := by
  refine .current fun token => .still fun next => .ite (fun _ => absent_adds.unfaced) fun _ => ?_
  refine .allowingIn (.ite (fun declares => ?_) fun _ => spanning.expression.adds.unfaced)
  have proper : token.type ≠ .endOfInput := by
    intro isEnd
    rw [isEnd] at declares
    cases declares
  exact (declaration_spanning spanning).adds.from_state (ahead_of_facing proper)

private theorem forEach_spanning (spanning : SpanningRules rules) {token : Token} {isAwait : Bool}
    {initial : Node} : Closes token [initial] (forEach rules token isAwait initial) := by
  refine .after fun word => .either (fun _ => .of_pure fun _ => id) (fun _ => asTarget_replaces)
    fun left => ?_
  have items : Spanning
      (if (word.type == .kwIn) = true then rules.expression else rules.assignment) :=
    .ite spanning.expression spanning.assignment
  refine .bind items.adds.allowingIn fun right => .after fun bracket => ?_
  refine .bind spanning.statement.adds fun body => finishWith_spanning ?_
  split <;> exact nofun

private theorem forParts_spanning (spanning : SpanningRules rules) {token : Token} {initial
    : Node} :
    Closes token [initial] (forParts rules token initial) := by
  have absentOr : ∀ {nodes} closer, Adds token.start nodes
      (check [closer] >>= fun closes => if closes then pure .absent else rules.expression) := by
    refine fun closer => .after fun closes => .ite (fun _ => absent_adds) fun _ => ?_
    exact spanning.expression.adds
  have parts : Gathers (Took token.start [initial]) (do
      let test ← check [.semicolon] >>= fun closes =>
        if closes then pure .absent else rules.expression
      let _ ← expect .semicolon
      let update ← check [.closeParen] >>= fun closes =>
        if closes then pure .absent else rules.expression
      return (test, update)) fun parts => Took token.start [initial, parts.1, parts.2] := by
    refine .bind (absentOr _) fun test => .after fun semicolon => ?_
    exact .bind (absentOr _) fun update => .of_pure fun _ => id
  refine .after fun semicolon => .bind parts.allowingIn fun parts => .after fun bracket => ?_
  exact .bind spanning.statement.adds fun body => finish_spanning nofun

theorem forStatement_spanning (spanning : SpanningRules rules) : Spanning (forStatement rules) := by
  refine .expect nofun fun token => .after fun isAwait => .after fun bracket => ?_
  refine .bind (forInitial_adds spanning) fun initial => .after fun isIn => .after fun isOf => ?_
  exact .ite (fun _ => forEach_spanning spanning) fun _ => forParts_spanning spanning

theorem caseTest_spanning (spanning : SpanningRules rules) : Spanning (caseTest rules) := by
  refine fun start => .accepted nofun (fun _ => id) (.of_pure fun _ => Took.absent) ?_
  refine .ite nofun fun _ => .expectOr nofun fun word => .past ?_
  exact spanning.expression.adds.allowingIn

private theorem switchCase_spanning (spanning : SpanningRules rules) {switchStart : Token} :
    Spanning (switchCase rules switchStart) := by
  refine .opening fun token => .bind (caseTest_spanning spanning).opens fun test => ?_
  refine .after fun colon => .bind spanning.statement.repeatWhile fun body => ?_
  exact finish_spanning nofun

theorem switchStatement_spanning (spanning : SpanningRules rules) :
    Spanning (switchStatement rules) := by
  refine .expect nofun fun token => .bind (parenTest_adds spanning) fun discriminant => ?_
  refine .after fun brace => .bind (switchCase_spanning spanning).repeatWhile fun cases => ?_
  exact finish_spanning nofun

/-! ### Jumps and handlers -/

theorem jumpLabel_adds : Adds start nodes jumpLabel := by
  refine .current fun token => .ite (fun isLabel => ?_) fun _ => absent_adds.unfaced
  refine .from_state ?_ (ahead_of_facing (isLabel.1 ▸ nofun))
  exact .advance (fun _ took => took.toRead) fun label => .leaf .name (.of_pure fun _ => id)

theorem jumpStatement_spanning : SpanningAhead jumpStatement := by
  refine .advance fun token => .past (.bind jumpLabel_adds fun label => .after fun _ => ?_)
  refine finish_spanning ?_
  split <;> exact nofun

theorem returnStatement_spanning (spanning : SpanningRules rules) :
    Spanning (returnStatement rules) := by
  refine .expect nofun fun token => .after fun next => ?_
  refine .either (fun _ => absent_adds) (fun _ => spanning.expression.adds.allowingIn)
    fun value => ?_
  exact .after fun _ => finish_spanning nofun

theorem throwStatement_spanning (spanning : SpanningRules rules) :
    Spanning (throwStatement rules) := by
  refine .expect nofun fun token => .after fun next => .optionally ?_
  refine .bind spanning.expression.adds.allowingIn fun value => ?_
  exact .after fun _ => finish_spanning nofun

private theorem catchClause_spanning (spanning : SpanningRules rules) :
    SpanningAhead (catchClause rules) := by
  refine .advance fun token => .past (.after fun hasParam => ?_)
  have ends : ∀ param, Closes token [param] (do
      let body ← block rules
      finish .catchClause [param, body] token) :=
    fun param => .bind (block_spanning spanning).adds fun body => finish_spanning nofun
  refine .ite (fun _ => ?_) fun _ => .bind absent_adds ends
  exact .bind spanning.target.adds fun param => .after fun _ => ends param

theorem tryStatement_spanning (spanning : SpanningRules rules) : Spanning (tryStatement rules) := by
  refine .expect nofun fun token => .bind (block_spanning spanning).adds fun body => ?_
  have ends : ∀ handler, Closes token [body, handler] (do
      let finalizer ← if ← accept .kwFinally then block rules else pure .absent
      if handler.isAbsent && finalizer.isAbsent then failAt .missingCatch (← current)
      finish .tryStmt [body, handler, finalizer] token) := by
    refine fun handler => .after fun hasFinally => ?_
    refine .either (fun _ => (block_spanning spanning).adds) (fun _ => absent_adds)
      fun finalizer => ?_
    refine .ite (fun _ => .after fun _ => .after fun _ => ?_) fun _ => ?_ <;>
      exact finish_spanning nofun
  refine .checked rfl (.bind (catchClause_spanning spanning).adds ends) ?_
  exact .ite nofun fun _ => .bind absent_adds ends

/-! ### Modules -/

/-- Raw text stands from its first token to the one read last. -/
theorem rawStatement_spanning {token : Token} {kind : Kind} (unnamed : kind ≠ .shorthandProperty) :
    Closes token [] (rawStatement kind token) := by
  intro state node left took ran
  have last := took.last token
  refine finish_spanning unnamed state node left ?_ ran
  refine ⟨⟨took.orderly, took.here, ?_, ?_⟩, took.further⟩
  · refine .present (Nat.le_refl _) ?_ (Nat.le_of_eq last) .nil
    rw [last]
    exact took.further
  · exact List.forall_mem_singleton.mpr .leaf

theorem importDeclaration_spanning : Spanning importDeclaration := by
  refine .expect nofun fun token => .after fun skipped => .after fun module => ?_
  exact .after fun _ => .after fun _ => rawStatement_spanning nofun

private theorem exportDefault_spanning (spanning : SpanningRules rules) {token : Token} :
    Closes token [] (exportDefault rules token) := by
  have ends : ∀ exported, Closes token [exported] (finish .exportDefault [exported] token) :=
    fun exported => finish_spanning nofun
  have function : Spanning (function rules .functionDecl false) := function_spanning spanning nofun
  have definition : Spanning (classDefinition rules .classDecl false) :=
    classDefinition_spanning spanning nofun
  refine .after fun next => .after fun isFunction => .after fun isAsync => .after fun isClass => ?_
  refine .ite (fun _ => .bind function.adds ends) fun _ => ?_
  refine .ite (fun _ => .bind definition.adds ends) fun _ => ?_
  exact .bind spanning.assignment.adds.allowingIn fun value => .after fun _ => ends value

private theorem exportList_spanning {token : Token} : Closes token [] (exportList token) := by
  refine .after fun braces => .after fun isFrom => .optionally (.after fun _ => ?_)
  exact rawStatement_spanning nofun

private theorem exportAll_spanning {token : Token} : Closes token [] (exportAll token) := by
  have module : Closes token [] (do
      moduleName
      statementEnd
      rawStatement .exportAll token) :=
    .after fun _ => .after fun _ => rawStatement_spanning nofun
  have ends : Closes token [] (do
      if !(← checkName "from") then failAt .missingFrom (← current)
      moduleName
      statementEnd
      rawStatement .exportAll token) :=
    .after fun isFrom => .ite (fun _ => .after fun _ => .after fun _ => module) fun _ => module
  refine .after fun isNamed => .ite (fun _ => ?_) fun _ => ends
  exact .after fun _ => .after fun _ => ends

theorem exportStatement_spanning (spanning : SpanningRules rules) :
    Spanning (exportStatement rules) := by
  refine .expect nofun fun token => .after fun isDefault => ?_
  refine .ite (fun _ => exportDefault_spanning spanning) fun _ => .after fun isList => ?_
  refine .ite (fun _ => exportList_spanning) fun _ => .after fun isAll => ?_
  refine .ite (fun _ => exportAll_spanning) fun _ => ?_
  refine .bind spanning.statement.adds fun exported => .optionally ?_
  exact finish_spanning nofun

/-! ### Statements -/

theorem withStatement_spanning (spanning : SpanningRules rules) :
    SpanningAhead (withStatement rules) := by
  refine .advance fun token => .past (.after fun bracket => ?_)
  refine .bind spanning.expression.adds.allowingIn fun object => .after fun closer => ?_
  exact .bind spanning.statement.adds fun body => finish_spanning nofun

private theorem labeledStatement_spanning (spanning : SpanningRules rules) :
    SpanningAhead (labeledStatement rules) := by
  refine .advance fun label => .leaf .name (.after fun colon => ?_)
  exact .bind spanning.statement.adds fun body => finish_spanning nofun

private theorem statement_spanning (spanning : SpanningRules rules) : Spanning (statement rules)
    := by
  refine .current fun token => ?_
  split
  case h_1 => exact (block_spanning spanning).facing
  case h_2 is => exact .take_facing (is ▸ nofun) (.past (finish_spanning nofun))
  case h_3 is | h_4 is | h_5 is => exact declarationStatement_spanning spanning (is ▸ nofun)
  case h_6 => exact (ifStatement_spanning spanning).facing
  case h_7 => exact (whileStatement_spanning spanning).facing
  case h_8 => exact (doWhileStatement_spanning spanning).facing
  case h_9 => exact (forStatement_spanning spanning).facing
  case h_10 => exact (switchStatement_spanning spanning).facing
  case h_11 is | h_12 is => exact jumpStatement_spanning.facing (is ▸ nofun)
  case h_13 => exact (returnStatement_spanning spanning).facing
  case h_14 => exact (throwStatement_spanning spanning).facing
  case h_15 => exact (tryStatement_spanning spanning).facing
  case h_16 => exact Spanning.facing (function_spanning spanning nofun)
  case h_17 => exact Spanning.facing (classDefinition_spanning spanning nofun)
  case h_18 is =>
    exact .take_facing (is ▸ nofun) (.past (.after fun _ => finish_spanning nofun))
  case h_19 is => exact (withStatement_spanning spanning).facing (is ▸ nofun)
  case h_20 =>
    refine .still fun next => .ite (fun _ => ?_) fun _ => importDeclaration_spanning.facing
    exact (expressionStatement_spanning spanning).facing
  case h_21 => exact (exportStatement_spanning spanning).facing
  case h_22 is =>
    refine .still fun isFunction => .ite (fun _ => ?_) fun _ => .still fun next => ?_
    · exact Spanning.facing (function_spanning spanning nofun)
    refine .ite (fun _ => (labeledStatement_spanning spanning).facing (is ▸ nofun)) fun _ => ?_
    exact (expressionStatement_spanning spanning).facing
  case h_23 => exact (expressionStatement_spanning spanning).facing

/-- The rules of every level span what they read. -/
theorem rulesAt_spanning (levels : Nat) : SpanningRules (rulesAt levels) := by
  induction levels with
  | zero => constructor <;> first | exact .of_throw | exact fun _ => .of_throw
  | succ levels induction =>
      exact ⟨statement_spanning induction, expression_spanning induction,
        assignment_spanning induction, binary_spanning induction, unary_spanning induction,
        leftHandSide_spanning induction, construction_spanning induction,
        bindingTarget_spanning induction⟩

/-- The statements of a script are laid from the beginning of its text on. -/
theorem statements_gather (levels : Nat) : Gathers (Read 0 []) (statements levels) (Read 0) := by
  have statement := (rulesAt_spanning levels).statement
  have adds : ∀ nodes, Gathers (Read 0 nodes) (rulesAt levels).statement
      fun node => Read 0 (nodes ++ [node]) :=
    fun nodes => statement.opens.mono fun _ _ took => took.toRead
  exact .repeatWhile adds []

end Grammar

/-- Nothing is read at first. -/
theorem read_of_tokenize {source : Source} {tokens : List Token}
    (tokenized : tokenize source.text = .ok tokens) :
    Grammar.Read 0 [] ⟨source, tokens, none, false, tokens.length + 1⟩ := by
  have divides : Lexer.Divides ⟨source.text, .start⟩ tokens :=
    Lexer.tokensFrom_divides (Nat.lt_succ_self _) tokenized
  have orderly := Grammar.orderly_of_divides divides
  have begins : Mark.start.offset = 0 := rfl
  rw [begins, Nat.zero_add] at orderly
  exact ⟨orderly, fun _ _ => Nat.zero_le _, .nil, nofun⟩

/-- The tree of a script nests, and its span is the whole text. -/
theorem parseScript_nested {source : Source} {levels : Nat} {node : Node}
    (parsed : parseScript source levels = .ok node) :
    node.extent = (some 0, some source.text.length) ∧ node.Nested := by
  unfold parseScript at parsed
  split at parsed
  case h_1 => cases parsed
  case h_2 tokens tokenized =>
    split at parsed
    case h_1 => cases parsed
    case h_2 statements after ran =>
      cases parsed
      have within : Grammar.State.Within source ⟨source, tokens, none, false, tokens.length + 1⟩ :=
        ⟨rfl, tokenize_inside tokenized⟩
      have placing := (Grammar.rulesAt_placing source levels).statement
      have isSource := (placing.repeatWhile _ _ _ within ran).2.isSource
      have read := Grammar.statements_gather levels _ _ _ (read_of_tokenize tokenized) ran
      have reaches := read.orderly.le_limit
      rw [isSource] at reaches
      refine ⟨rfl, .read nofun (.laid ?_) read.nested⟩
      exact read.laid.mono (Nat.le_refl _) reaches

/-- The spans of the tree of a script nest.  Its own is the whole text. -/
theorem parseScript_spansNest {source : Source} {levels : Nat} {node : Node}
    (parsed : parseScript source levels = .ok node) :
    node.extent = (some 0, some source.text.length) ∧ node.SpansNest :=
  (parseScript_nested parsed).imp_right Node.Nested.spansNest

/-- A function with a shorthand pattern and a meta property. -/
def unpacking : Text :=
  Text.ofString "function f(\x7ba\x7d) \x7b\n  return new.target;\n\x7d"

theorem unpacking_spansNest :
    ∃ tree, parseScript ⟨unpacking, none, .script⟩ = .ok tree ∧
      tree.extent = (some 0, some 40) ∧ tree.SpansNest := by
  have reads : (parseScript ⟨unpacking, none, .script⟩).toOption.isSome := by decide +kernel
  cases parsed : parseScript ⟨unpacking, none, .script⟩ with
  | error failure =>
      rw [parsed] at reads
      cases reads
  | ok tree => exact ⟨tree, rfl, parseScript_spansNest parsed⟩

end ScriptFold
