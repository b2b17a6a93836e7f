import ScriptFold.Proofs.Reading.Provides
import ScriptFold.Proofs.Whole.Reading

/-!
# Scripts are read as whole trees

The readers of statements build whole trees, and so do the rules of every level.  The head of a
case is the one part for which the tokens matter: the colon that was read behind the test is a
colon of the text, at an offset that the test does not reach.
-/

namespace ScriptFold

open Text

private theorem indexOf?_of_mem {point : CodePoint} {text : Text} (there : point ∈ text) (offset
    : Nat) :
    (indexOf? [point] text offset).isSome = true := by
  induction text generalizing offset with
  | nil => cases there
  | cons first rest induction =>
      rw [indexOf?]
      split
      case isTrue => rfl
      case isFalse isOther =>
        rcases List.mem_cons.mp there with rfl | there
        · simp at isOther
        · exact induction there (offset + 1)

/-- A colon can be found from every offset before it. -/
theorem Source.hasColonAfter_of_getElem? {source : Source} {offset place : Nat}
    (within : offset ≤ place) (isColon : source.text[place]? = some (.char ':')) :
    source.HasColonAfter offset := by
  apply indexOf?_of_mem
  apply List.mem_of_getElem? (i := place - offset)
  rw [List.getElem?_drop, Nat.add_sub_cancel' within]
  exact isColon

namespace Lexer

/-- Colons are where the tokens are that are said to be colons. -/
theorem isColonIn_of_tokenize {source : Source} {tokens : List Token}
    (tokenized : tokenize source.text = .ok tokens) :
    Grammar.All (Token.IsColonIn source) tokens := by
  intro token there isColon
  obtain ⟨before, after, isSplit⟩ := List.append_of_mem there
  obtain ⟨lead, gap, start, next, found⟩ := found_of_tokenize tokenized isSplit
  have spelled : token.text = Text.ofString token.type.spelling :=
    tokensFrom_spelled tokenized token there (by rw [isColon]; rfl)
  have isWritten : token.written = [.char ':'] := by
    rw [Token.written, spelled, isColon]
    rfl
  rw [found.text_eq, found.start_eq, List.getElem?_append_right (Nat.le_refl _), Nat.sub_self,
    isWritten]
  rfl

end Lexer

namespace Grammar

variable {source : Source} {rules : Rules} {token : Token} {node : Node}

/-! ### Declarations and expressions -/

theorem declaration_obtains (reads : ReadsWhole source rules) :
    Obtains source (declaration rules) (ReadAs .varDecl) := by
  have declarator : Obtains source (do
      let first ← current
      let target ← rules.target
      let initial ← if ← accept .assign then rules.assignment else pure .absent
      finish .declarator [target, initial] first) (ReadAs .declarator) := by
    apply Leads.after
    intro first
    apply Leads.bind reads.target
    intro target targetIs
    apply Leads.after
    intro hasInitial
    apply Leads.either reads.assignment.whole Obtains.absent
    intro initial initialIs
    exact finish_reads rfl rfl (.cons targetIs.whole targetIs.steady (.cons initialIs rfl .nil))
  apply Leads.after
  intro start
  apply Leads.bind (Leads.commaItems declarator)
  intro declarators areDeclarators
  have fits : FitFrom .varDecl 0 (leafOf .declKind start :: declarators) := by
    apply FitFrom.cons .leaf rfl
    apply FitFrom.of_all fun node there => (areDeclarators node there).whole
    intro index node there
    rw [Nat.zero_add, Nat.add_comm]
    exact (areDeclarators node there).is
  have counts : Kind.varDecl.counts (leafOf .declKind start :: declarators).length = true := by
    simp [Kind.counts]
  exact finish_reads rfl counts fits

/-- A declaration is read again up to its semicolon. -/
theorem declarationStatement_obtains (reads : ReadsWhole source rules) :
    Obtains source (declarationStatement rules) ReadWhole := by
  apply Leads.after
  intro start
  apply Leads.bind (declaration_obtains reads)
  intro parts partsAre
  apply Leads.after
  intro _
  obtain ⟨⟨whole, _⟩, isKind⟩ := partsAre
  cases whole with
  | absent | leaf => cases isKind
  | @tree kind flags place children holds all =>
      cases isKind
      have fits : FitFrom .varDecl 0 (children.map Child.node) := by
        intro index node found
        rw [List.getElem?_map] at found
        obtain ⟨child, isChild, rfl⟩ := Option.map_eq_some_iff.mp found
        refine ⟨all child (List.mem_of_getElem? isChild), ?_⟩
        rw [Nat.zero_add]
        exact holds.takes index child isChild
      have counts : Kind.varDecl.counts (children.map Child.node).length = true := by
        rw [List.length_map]
        exact holds.counts
      exact (finish_reads rfl counts fits).ofKind

theorem expressionStatement_obtains (reads : ReadsWhole source rules) :
    Obtains source (expressionStatement rules) ReadWhole := by
  apply Leads.after
  intro start
  apply Leads.bind reads.expression.allowingIn
  intro value valueIs
  exact .after fun _ => (finish_reads rfl rfl (.cons valueIs.whole rfl .nil)).ofKind

theorem parenTest_obtains (reads : ReadsWhole source rules) :
    Obtains source (parenTest rules) ReadWhole := by
  apply Leads.after
  intro bracket
  apply Leads.bind reads.expression.allowingIn
  intro test testIs
  exact .after fun _ => .of_pure testIs

/-! ### Branches and loops -/

theorem ifStatement_obtains (reads : ReadsWhole source rules) :
    Obtains source (ifStatement rules) ReadWhole := by
  apply Leads.after
  intro start
  apply Leads.bind (parenTest_obtains reads)
  intro test testIs
  apply Leads.bind reads.statement
  intro consequent consequentIs
  apply Leads.after
  intro hasElse
  apply Leads.either reads.statement.whole Obtains.absent
  intro alternate alternateIs
  exact (finish_reads rfl rfl (.cons testIs.whole rfl
    (.cons consequentIs.whole rfl (.cons alternateIs rfl .nil)))).ofKind

theorem whileStatement_obtains (reads : ReadsWhole source rules) :
    Obtains source (whileStatement rules) ReadWhole := by
  apply Leads.after
  intro start
  apply Leads.bind (parenTest_obtains reads)
  intro test testIs
  apply Leads.bind reads.statement
  intro body bodyIs
  exact (finish_reads rfl rfl (.cons testIs.whole rfl (.cons bodyIs.whole rfl .nil))).ofKind

theorem doWhileStatement_obtains (reads : ReadsWhole source rules) :
    Obtains source (doWhileStatement rules) ReadWhole := by
  apply Leads.after
  intro start
  apply Leads.bind reads.statement
  intro body bodyIs
  apply Leads.after
  intro word
  apply Leads.bind (parenTest_obtains reads)
  intro test testIs
  exact .after fun _ =>
    (finish_reads rfl rfl (.cons bodyIs.whole rfl (.cons testIs.whole rfl .nil))).ofKind

theorem forInitial_obtains (reads : ReadsWhole source rules) :
    Obtains source (forInitial rules) Node.Whole := by
  apply Leads.after
  intro token
  apply Leads.after
  intro next
  split
  · exact Obtains.absent
  · apply Leads.allowingIn
    split
    · exact (declaration_obtains reads).ofKind.whole
    · exact reads.expression.whole

theorem forEach_obtains (reads : ReadsWhole source rules) {isAwait : Bool} (whole : node.Whole) :
    Obtains source (forEach rules token isAwait node) ReadWhole := by
  apply Leads.after
  intro word
  apply Leads.either (.of_pure whole) (asTarget_obtains whole)
  intro left leftIs
  have items : Obtains source
      (if (word.type == .kwIn) = true then rules.expression else rules.assignment) ReadWhole :=
    .ite (fun _ => reads.expression) fun _ => reads.assignment
  apply Leads.bind items.allowingIn
  intro right rightIs
  apply Leads.after
  intro bracket
  apply Leads.bind reads.statement
  intro body bodyIs
  split
  · exact (finishWith_reads rfl rfl
      (.cons leftIs rfl (.cons rightIs.whole rfl (.cons bodyIs.whole rfl .nil)))).ofKind
  · exact (finishWith_reads rfl rfl
      (.cons leftIs rfl (.cons rightIs.whole rfl (.cons bodyIs.whole rfl .nil)))).ofKind

theorem forParts_obtains (reads : ReadsWhole source rules) (whole : node.Whole) :
    Obtains source (forParts rules token node) ReadWhole := by
  have absentOr : ∀ closer, Obtains source (do
      if ← check [closer] then return .absent
      rules.expression) Node.Whole := by
    intro closer
    apply Leads.after
    intro closes
    split
    · exact Obtains.absent
    · exact reads.expression.whole
  have parts : Obtains source (do
      let test ← (do
        if ← check [.semicolon] then return .absent
        rules.expression)
      let _ ← expect .semicolon
      let update ← (do
        if ← check [.closeParen] then return .absent
        rules.expression)
      return (test, update)) fun parts => parts.1.Whole ∧ parts.2.Whole := by
    apply Leads.bind (absentOr .semicolon)
    intro test testIs
    apply Leads.after
    intro semicolon
    apply Leads.bind (absentOr .closeParen)
    intro update updateIs
    exact .of_pure ⟨testIs, updateIs⟩
  apply Leads.after
  intro semicolon
  apply Leads.bind parts.allowingIn
  intro parts partsAre
  apply Leads.after
  intro bracket
  apply Leads.bind reads.statement
  intro body bodyIs
  exact (finish_reads rfl rfl (.cons whole rfl (.cons partsAre.1 rfl
    (.cons partsAre.2 rfl (.cons bodyIs.whole rfl .nil))))).ofKind

theorem forStatement_obtains (reads : ReadsWhole source rules) :
    Obtains source (forStatement rules) ReadWhole := by
  refine .after fun _ => .after fun _ => .after fun _ => ?_
  apply Leads.bind (forInitial_obtains reads)
  intro initial initialIs
  refine .after fun _ => .after fun _ => ?_
  split
  · exact forEach_obtains reads initialIs
  · exact forParts_obtains reads initialIs

/-! ### Switches -/

theorem caseTest_obtains (reads : ReadsWhole source rules) :
    Obtains source (caseTest rules) Node.Whole := by
  apply Leads.after
  intro isDefault
  split
  · exact Obtains.absent
  · exact .after fun _ => reads.expression.whole.allowingIn

/-- A test that lies in front of a colon. -/
theorem hasCaseHead_of_laid {stop : Nat} {span : Span} {others : List Node}
    (laid : Laid stop span.start [node.toFormer]) (begins : span.start ≤ stop)
    (colon : ∀ offset, offset ≤ stop → source.HasColonAfter offset) :
    Place.HasCaseHead ⟨source, span, (node :: others).map Node.toFormer⟩ := by
  rw [List.map_cons]
  generalize node.toFormer = former at laid
  cases laid with
  | absent => exact colon _ begins
  | present _ _ ends => exact ⟨rfl, _, rfl, colon _ ends⟩

/-- A test has been read from a token on. -/
structure AtColon (source : Source) (start : Token) (test : Node) (state : State) : Prop where
  whole : test.Whole
  fits : State.Fits source state
  took : Took start.start [test] state

/-- A colon is read behind a test. -/
structure HasColon (source : Source) (start : Token) (test : Node) : Prop where
  whole : test.Whole
  caseHead : ∀ (span : Span) (others : List Node), span.start = start.start →
    Place.HasCaseHead ⟨source, span, (test :: others).map Node.toFormer⟩

private theorem expect_colon {start : Token} {test : Node} :
    Gathers (AtColon source start test) (expect .colon) fun _ state =>
      HasColon source start test ∧ State.Fits source state := by
  refine .current fun token => .ite (fun isColon => ?_) fun _ => .of_failAt
  rintro state value left ⟨atColon, isHead⟩ ran
  have there := atColon.took.orderly.head_mem
  rw [isHead] at there
  have later : state.reach ≤ token.start := atColon.took.orderly.le_start token there
  have colon : ∀ offset, offset ≤ state.reach → source.HasColonAfter offset := by
    intro offset before
    apply Source.hasColonAfter_of_getElem? (Nat.le_trans before later)
    exact atColon.fits.colons token there isColon
  refine ⟨⟨atColon.whole, ?_⟩, Lasting.advance atColon.fits ran⟩
  intro span others begins
  apply hasCaseHead_of_laid
  · rw [begins]
    exact atColon.took.laid
  · rw [begins]
    exact Nat.le_of_lt atColon.took.further
  · exact colon

private theorem switchCase_obtains (reads : ReadsWhole source rules) {switchStart : Token} :
    Obtains source (switchCase rules switchStart) (ReadAs .switchCase) := by
  have atStart : ∀ start, Gathers (Facing start (State.Fits source)) (caseTest rules)
      (AtColon source start) := by
    rintro start state test left ⟨fits, rfl⟩ ran
    have read : Read 0 [] state := ⟨fits.orderly, fun _ _ => Nat.zero_le _, .nil, nofun⟩
    have both := caseTest_obtains reads state test left fits ran
    exact ⟨both.1, both.2,
      (caseTest_spanning reads.spanning).opens state test left read.fromHead.2 ran⟩
  apply Gathers.current
  intro start
  refine Gathers.bind (atStart start) fun test => ?_
  refine Gathers.bind expect_colon fun colon => .from_fact fun hasColon => ?_
  refine Leads.bind (Leads.repeatWhile reads.statement) fun body bodyIs => ?_
  have areWhole : All Node.Whole body := fun node there => (bodyIs node there).whole
  have placed : All ReadWhole ((test :: body).drop 1) := bodyIs
  have counts : Kind.switchCase.counts (test :: body).length = true := by
    simp [Kind.counts]
  exact list_reads rfl (fun _ _ => rfl) counts (.cons hasColon.whole areWhole) placed
    fun _ span begins => hasColon.caseHead span body begins

theorem switchStatement_obtains (reads : ReadsWhole source rules) :
    Obtains source (switchStatement rules) ReadWhole := by
  apply Leads.after
  intro start
  apply Leads.bind (parenTest_obtains reads)
  intro discriminant discriminantIs
  apply Leads.after
  intro brace
  apply Leads.bind (Leads.repeatWhile (switchCase_obtains reads))
  intro cases areCases
  have fits : FitFrom .switchStmt 0 (discriminant :: cases) := by
    apply FitFrom.cons discriminantIs.whole rfl
    apply FitFrom.of_all fun node there => (areCases node there).whole
    intro index node there
    rw [Nat.zero_add, Nat.add_comm]
    exact (areCases node there).is
  have counts : Kind.switchStmt.counts (discriminant :: cases).length = true := by
    simp [Kind.counts]
  exact (finish_reads rfl counts fits).ofKind

/-! ### Jumps and handlers -/

theorem jumpLabel_obtains : Obtains source jumpLabel Node.Whole := by
  apply Leads.after
  intro token
  split
  · exact .after fun _ => .of_pure .leaf
  · exact Obtains.absent

theorem jumpStatement_obtains : Obtains source jumpStatement ReadWhole := by
  apply Leads.after
  intro start
  apply Leads.bind jumpLabel_obtains
  intro label labelIs
  apply Leads.after
  intro _
  split
  · exact (finish_reads rfl rfl (.cons labelIs rfl .nil)).ofKind
  · exact (finish_reads rfl rfl (.cons labelIs rfl .nil)).ofKind

theorem returnStatement_obtains (reads : ReadsWhole source rules) :
    Obtains source (returnStatement rules) ReadWhole := by
  refine .after fun _ => .after fun _ => ?_
  apply Leads.either Obtains.absent reads.expression.whole.allowingIn
  intro value valueIs
  exact .after fun _ => (finish_reads rfl rfl (.cons valueIs rfl .nil)).ofKind

theorem throwStatement_obtains (reads : ReadsWhole source rules) :
    Obtains source (throwStatement rules) ReadWhole := by
  refine .after fun _ => .after fun _ => .optionally ?_
  apply Leads.bind reads.expression.allowingIn
  intro value valueIs
  exact .after fun _ => (finish_reads rfl rfl (.cons valueIs.whole rfl .nil)).ofKind

private theorem catchClause_obtains (reads : ReadsWhole source rules) :
    Obtains source (catchClause rules) (ReadAs .catchClause) := by
  have ends : ∀ param start, ReadSteady param → Obtains source (do
      let body ← block rules
      finish .catchClause [param, body] start) (ReadAs .catchClause) := by
    intro param start paramIs
    apply Leads.bind (block_obtains reads)
    intro body bodyIs
    exact finish_reads rfl rfl (.cons paramIs.whole paramIs.steady
      (.cons bodyIs.whole (bodyIs.steady rfl).steady .nil))
  apply Leads.after
  intro start
  apply Leads.after
  intro hasParam
  split
  · apply Leads.bind reads.target
    intro target targetIs
    exact .after fun _ => ends target start targetIs
  · exact ends .absent start ⟨.absent, rfl⟩

theorem tryStatement_obtains (reads : ReadsWhole source rules) :
    Obtains source (tryStatement rules) ReadWhole := by
  have block : Obtains source (block rules) ReadSteady := (block_obtains reads).steady rfl
  apply Leads.after
  intro start
  apply Leads.bind block
  intro body bodyIs
  apply Leads.after
  intro isCatch
  apply Leads.either ((catchClause_obtains reads).steady rfl) Obtains.steadyAbsent
  intro handler handlerIs
  apply Leads.after
  intro isFinally
  apply Leads.either block Obtains.steadyAbsent
  intro finalizer finalizerIs
  have finished : Obtains source (finish .tryStmt [body, handler, finalizer] start) ReadWhole := by
    have fits : FitFrom .tryStmt 0 [body, handler, finalizer] :=
      .cons bodyIs.whole bodyIs.steady (.cons handlerIs.whole handlerIs.steady
        (.cons finalizerIs.whole finalizerIs.steady .nil))
    exact (finish_reads rfl rfl fits).ofKind
  show Obtains source (if _ then _ else _) ReadWhole
  split
  · exact .after fun _ => .after fun _ => finished
  · exact finished

/-! ### Modules -/

theorem rawStatement_obtains {kind : Kind} (noList : Printer.listHead? kind = none)
    (counts : kind.counts 1 = true) (takes : ∀ node, kind.takes 0 node = true) :
    Obtains source (rawStatement kind token) ReadWhole := by
  apply Leads.after
  intro state
  apply Obtains.ofKind
  apply finish_reads noList
  · exact counts
  · exact .cons .leaf (takes _) .nil

theorem importDeclaration_obtains : Obtains source importDeclaration ReadWhole :=
  .after fun _ => .after fun _ => .after fun _ => .after fun _ => .after fun _ =>
    rawStatement_obtains rfl rfl fun _ => rfl

theorem exportDefault_obtains (reads : ReadsWhole source rules) :
    Obtains source (exportDefault rules token) ReadWhole := by
  have ends : ∀ exported, ReadWhole exported →
      Obtains source (finish .exportDefault [exported] token) ReadWhole :=
    fun exported exportedIs => (finish_reads rfl rfl (.cons exportedIs.whole rfl .nil)).ofKind
  refine .after fun _ => .after fun _ => .after fun _ => .after fun _ => ?_
  split
  · exact .bind (function_obtains reads (.inl rfl)).ofKind ends
  · split
    · exact .bind (classDefinition_obtains reads (.inl rfl)).ofKind ends
    · exact .bind reads.assignment.allowingIn fun value valueIs => .after fun _ =>
        ends value valueIs

theorem exportList_obtains : Obtains source (exportList token) ReadWhole :=
  .after fun _ => .after fun _ => .optionally <| .after fun _ =>
    rawStatement_obtains rfl rfl fun _ => rfl

theorem exportAll_obtains : Obtains source (exportAll token) ReadWhole := by
  have finished : Obtains source (do
      moduleName
      statementEnd
      rawStatement .exportAll token) ReadWhole :=
    .after fun _ => .after fun _ => rawStatement_obtains rfl rfl fun _ => rfl
  have checked : Obtains source (do
      if !(← checkName "from") then failAt .missingFrom (← current)
      moduleName
      statementEnd
      rawStatement .exportAll token) ReadWhole := by
    apply Leads.after
    intro isFrom
    split
    · exact .after fun _ => .after fun _ => finished
    · exact finished
  apply Leads.after
  intro isNamed
  split
  · exact .after fun _ => .after fun _ => checked
  · exact checked

private theorem declarations_steady :
    ∀ kind, kind ∈ [Kind.varDecl, .functionDecl, .classDecl] → kind.isSteady = true := by
  decide

theorem exportStatement_obtains (reads : ReadsWhole source rules) :
    Obtains source (exportStatement rules) ReadWhole := by
  apply Leads.after
  intro start
  apply Leads.after
  intro isDefault
  split
  · exact exportDefault_obtains reads
  · apply Leads.after
    intro isList
    split
    · exact exportList_obtains
    · apply Leads.after
      intro isAll
      split
      · exact exportAll_obtains
      · apply Leads.bind reads.statement
        intro exported exportedIs
        split
        case isTrue =>
          have fails : Obtains source (failAt .missingDeclaration start : Reader PUnit)
              fun _ => False := .of_failAt
          exact .bind fails fun _ impossible => impossible.elim
        case isFalse isDeclaration =>
          have steady : exported.isSteady = true := by
            have isOne : exported.isOneOf [.varDecl, .functionDecl, .classDecl] = true := by
              simpa using isDeclaration
            obtain ⟨kind, there, isKind⟩ := List.any_eq_true.mp isOne
            rw [Node.isSteady, beq_iff_eq.mp isKind]
            exact declarations_steady kind there
          have fits : FitFrom .exportDecl 0 [exported] := .cons exportedIs.whole steady .nil
          exact (finish_reads rfl rfl fits).ofKind

/-! ### Statements -/

theorem withStatement_obtains (reads : ReadsWhole source rules) :
    Obtains source (withStatement rules) ReadWhole := by
  refine .after fun _ => .after fun _ => ?_
  apply Leads.bind reads.expression.allowingIn
  intro object objectIs
  apply Leads.after
  intro bracket
  apply Leads.bind reads.statement
  intro body bodyIs
  exact (finish_reads rfl rfl (.cons objectIs.whole rfl (.cons bodyIs.whole rfl .nil))).ofKind

theorem labeledStatement_obtains (reads : ReadsWhole source rules) :
    Obtains source (labeledStatement rules) ReadWhole := by
  refine .after fun _ => .after fun _ => ?_
  apply Leads.bind reads.statement
  intro body bodyIs
  exact (finish_reads rfl rfl (.cons .leaf rfl (.cons bodyIs.whole rfl .nil))).ofKind

theorem statement_obtains (reads : ReadsWhole source rules) :
    Obtains source (statement rules) ReadWhole := by
  apply Leads.after
  intro token
  split
  case h_1 => exact (block_obtains reads).ofKind
  case h_2 => exact .after fun _ => (finish_reads rfl rfl .nil).ofKind
  case h_3 | h_4 | h_5 => exact declarationStatement_obtains reads
  case h_6 => exact ifStatement_obtains reads
  case h_7 => exact whileStatement_obtains reads
  case h_8 => exact doWhileStatement_obtains reads
  case h_9 => exact forStatement_obtains reads
  case h_10 => exact switchStatement_obtains reads
  case h_11 | h_12 => exact jumpStatement_obtains
  case h_13 => exact returnStatement_obtains reads
  case h_14 => exact throwStatement_obtains reads
  case h_15 => exact tryStatement_obtains reads
  case h_16 => exact (function_obtains reads (.inl rfl)).ofKind
  case h_17 => exact (classDefinition_obtains reads (.inl rfl)).ofKind
  case h_18 => exact .after fun _ => .after fun _ => (finish_reads rfl rfl .nil).ofKind
  case h_19 => exact withStatement_obtains reads
  case h_20 =>
    apply Leads.after
    intro next
    split
    · exact expressionStatement_obtains reads
    · exact importDeclaration_obtains
  case h_21 => exact exportStatement_obtains reads
  case h_22 =>
    apply Leads.after
    intro isFunction
    split
    · exact (function_obtains reads (.inl rfl)).ofKind
    · apply Leads.after
      intro next
      split
      · exact labeledStatement_obtains reads
      · exact expressionStatement_obtains reads
  case h_23 => exact expressionStatement_obtains reads

/-- The rules of every level read whole trees. -/
theorem rulesAt_reads (levels : Nat) : ReadsWhole source (rulesAt levels) := by
  induction levels with
  | zero =>
      exact ⟨rulesAt_spanning 0, .of_throw, .of_throw, .of_throw, fun _ => .of_throw, .of_throw,
        .of_throw, .of_throw, .of_throw⟩
  | succ levels induction =>
      exact ⟨rulesAt_spanning (levels + 1), statement_obtains induction,
        expression_obtains induction, assignment_obtains induction, binary_obtains induction,
        unary_obtains induction, leftHandSide_obtains induction, construction_obtains induction,
        bindingTarget_obtains induction⟩

end Grammar

/-- The tree of a script is a whole program. -/
theorem parseScript_whole {source : Source} {levels : Nat} {node : Node}
    (parsed : parseScript source levels = .ok node) :
    node.Whole ∧ node.isKind .program = true := by
  unfold parseScript at parsed
  split at parsed
  case h_1 => cases parsed
  case h_2 tokens tokenized =>
    split at parsed
    case h_1 => cases parsed
    case h_2 statements after ran =>
      cases parsed
      have fits : Grammar.State.Fits source ⟨source, tokens, none, false, tokens.length + 1⟩ :=
        ⟨rfl, (read_of_tokenize tokenized).orderly, Lexer.isColonIn_of_tokenize tokenized⟩
      have reads : Grammar.Obtains source (Grammar.statements levels)
          (Grammar.All Grammar.ReadWhole) :=
        .repeatWhile (Grammar.rulesAt_reads levels).statement
      have statementsAre := (reads _ _ _ fits ran).1
      have placed : Grammar.All Grammar.ReadWhole (statements.drop 0) := statementsAre
      have whole : (Grammar.program source statements).Whole :=
        Grammar.list_whole rfl (fun _ _ => rfl) rfl
          (fun node there => (statementsAre node there).whole) placed nofun
      exact ⟨whole, rfl⟩

end ScriptFold
