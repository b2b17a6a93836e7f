import ScriptFold.Proofs.Reading.Primary
import ScriptFold.Proofs.Token.Scanning
import ScriptFold.Proofs.Tree.Placed

/-!
# Reading a script

A text that is laid out in the words of an expression, with or without a semicolon, is a script
of one statement, unless the expression nests too deep.
-/

namespace ScriptFold

namespace Grammar

open Word

/-- Tokens that end a statement and leave others. -/
structure EndsStatement (tokens rest : List Token) : Prop where
  next : Next 0 tokens
  steps : Steps statementEnd tokens () rest

theorem endsStatement_semicolon {token next : Token} (isSemicolon : token.type = .semicolon)
    (rest : List Token) : EndsStatement (token :: next :: rest) (next :: rest) where
  next := ⟨token, next :: rest, rfl, by rw [isSemicolon]; decide⟩
  steps := (Steps.accept isSemicolon next rest).bind (.of_pure ())

theorem endsStatement_end {last : Token} (isLast : last.type = .endOfInput) :
    EndsStatement [last] [last] where
  next := ⟨last, [], rfl, by rw [isLast]; decide⟩
  steps := by
    have notSemicolon : last.type ≠ .semicolon := by
      rw [isLast]
      nofun
    refine (Steps.not_accept notSemicolon []).bind ((Steps.current last []).bind ?_)
    rw [if_pos (.inr (.inl isLast))]
    exact .of_pure ()

/-- A statement of an expression of some form, as it is read. -/
def IsStatementRead (form : Node → Prop) (node : Node) : Prop :=
  ∃ source span expression, form expression ∧ node = .read .exprStmt {} source span [expression]

theorem expressionStatement_runs {form : Node → Prop} {words : List Word} {cost : Nat}
    (reads : FormsExpression form words cost) (level : Nat) {tokens rest after : List Token}
    (spelled : Spelled words tokens rest) (ends : EndsStatement rest after) :
    Runs (level < cost + 5) (expressionStatement (rulesAt level)) tokens fun value left =>
      IsStatementRead form value ∧ left = after := by
  have value := reads level tokens rest spelled ends.next
  obtain ⟨start, others, rfl⟩ := ends.next.cons spelled
  refine .step (.current start others) (.bind value.allowingIn ?_)
  rintro result _ ⟨isForm, rfl⟩
  refine .step ends.steps (.finishRead fun source span => ?_)
  exact ⟨⟨source, span, result, isForm, rfl⟩, rfl⟩

/-- A statement that begins with a name, and is neither labeled nor a function, is an expression
statement. -/
theorem statement_named {token next : Token} {rest : List Token} (isName : token.type = .ident)
    (notFunction : next.type ≠ .kwFunction) (notColon : next.type ≠ .colon) {level : Nat}
    {deep : Prop} {gives : Node → List Token → Prop}
    (runs : Runs deep (expressionStatement (rulesAt level)) (token :: next :: rest) gives) :
    Runs deep (rulesAt (level + 1)).statement (token :: next :: rest) gives := by
  refine .step (.current token _) ?_
  rw [isName]
  refine .step (isAsyncFunction_not notFunction rest) (.step (.peek token next rest) ?_)
  rw [if_neg notColon]
  exact runs

section Statement

variable {node : Node} {spelling : Spelling} {cost : Nat}

/-- A statement that begins with an expression is an expression statement. -/
theorem statement_runs (reads : Reads node spelling cost)
    (notBlock : ∀ word, spelling.words.head? = some word → word.type ≠ .openBrace) (level : Nat)
    {tokens : List Token} {last : Token}
    (spelled : Spelled (spelling.words ++ [fixed .semicolon false]) tokens [last]) :
    Runs (level < cost + 6) (rulesAt level).statement tokens fun value after =>
      value.core = .made .exprStmt [node] ∧ after = [last] := by
  rcases level with _ | level
  · exact .refused (Nat.succ_pos _)
  have value : Runs (level + 1 < cost + 6) (expressionStatement (rulesAt level)) tokens
      fun value after => value.core = .made .exprStmt [node] ∧ after = [last] := by
    obtain ⟨_, wordsSpelled, semicolon, _, rfl, isSemicolon, rfl⟩ := Spelled.append_iff.mp spelled
    have statement := expressionStatement_runs reads.expression level wordsSpelled
      (endsStatement_semicolon isSemicolon.type [])
    apply statement.mono Nat.succ_lt_succ
    rintro _ _ ⟨⟨source, span, expression, rfl, rfl⟩, rfl⟩
    exact ⟨Node.core_read (by nofun) {} source span [expression], rfl⟩
  obtain ⟨first, more, isWords, starts, _⟩ := reads.worded.starts
  have notBrace := notBlock first (by rw [isWords]; rfl)
  have unlabeled : Unlabeled (spelling.words ++ [fixed .semicolon false]) :=
    reads.worded.unlabeled.append (by rw [isWords]; exact List.cons_ne_nil _ _) rfl ⟨nofun, nofun⟩
  obtain ⟨second, following, isAll⟩ : ∃ second following,
      spelling.words ++ [fixed .semicolon false] = first :: second :: following := by
    rw [isWords, List.cons_append]
    cases more with
    | nil => exact ⟨_, _, rfl⟩
    | cons second more => exact ⟨second, more ++ [fixed .semicolon false], rfl⟩
  have plain := unlabeled first second following isAll
  rw [isAll] at spelled
  obtain ⟨token, _, rfl, isFirst, next, rest, rfl, isSecond, _⟩ := spelled
  rw [← isFirst.type] at starts notBrace plain
  rw [← isSecond.type] at plain
  by_cases isName : token.type = .ident
  · exact statement_named isName (plain isName).2 (plain isName).1 value
  · refine .step (.current token _) ?_
    cases isType : token.type <;> rw [isType] at starts notBrace isName
    case ident => exact absurd rfl isName
    case openBrace => exact absurd rfl notBrace
    all_goals first | exact value | cases starts

end Statement

/-- The statements of a script of one statement. -/
theorem statements_single {deep : Prop} {form : Node → Prop} {levels : Nat}
    {token next last : Token} {rest : List Token} (begins : token.type ≠ .endOfInput)
    (isLast : last.type = .endOfInput)
    (statement : Runs deep (rulesAt levels).statement (token :: next :: rest)
      fun value after => form value ∧ after = [last]) :
    Runs deep (statements levels) (token :: next :: rest) (GivesOne form [last]) := by
  have continues : ∀ token rest, Steps (do return (← current).type != .endOfInput) (token :: rest)
      (token.type != .endOfInput) (token :: rest) :=
    fun token rest => (Steps.current token rest).bind (.of_pure _)
  refine .withBudget fun budget within => ?_
  simp only [List.length_cons] at within
  obtain ⟨budget, rfl⟩ : ∃ more, budget = more + 2 := ⟨budget - 2, by omega⟩
  have goesOn : (token.type != .endOfInput) = true := bne_iff_ne.mpr begins
  have stops : (last.type != .endOfInput) = false := by
    rw [isLast]
    rfl
  have noMore : Runs deep (repeatWhile.loop (do return (← current).type != .endOfInput)
      (rulesAt levels).statement (budget + 1)) [last]
      fun values after => values = [] ∧ after = [last] := by
    refine .step (continues last []) ?_
    rw [stops]
    exact .of_pure ⟨rfl, rfl⟩
  refine .step (continues token _) ?_
  rw [goesOn]
  refine .bind statement ?_
  rintro value _ ⟨isForm, rfl⟩
  refine .bind noMore ?_
  rintro _ _ ⟨rfl, rfl⟩
  exact .of_pure ⟨⟨value, rfl, isForm⟩, rfl⟩

end Grammar

open Grammar in
/-- A text of one statement is a script of it. -/
theorem parseScript_of_statement {source : Source} {tokens : List Token} {deep : Prop}
    {form : Node → Prop} {rest : List Token} {levels : Nat}
    (tokenized : tokenize source.text = .ok tokens)
    (runs : Runs deep (statements levels) tokens (GivesOne form rest)) :
    (∃ statement, form statement ∧
      parseScript source levels = .ok (program source [statement])) ∨
      deep ∧ parseScript source levels = .error (.parse .nestingTooDeep) := by
  have ready : Ready ⟨source, tokens, none, false, tokens.length + 1⟩ tokens :=
    ⟨rfl, rfl, Nat.lt_succ_self _⟩
  unfold parseScript
  simp only [tokenized]
  rcases runs _ ready with ⟨_, after, _, ran, _, ⟨value, rfl, isForm⟩, _⟩ | ⟨isDeep, refused⟩
  · rw [ran]
    exact .inl ⟨value, isForm, rfl⟩
  · rw [refused]
    exact .inr ⟨isDeep, rfl⟩

/-- A text that is laid out in an expression and a semicolon is a script of one statement. -/
theorem parseScript_of_laidOut {node : Node} {spelling : Spelling} {cost : Nat}
    (reads : Grammar.Reads node spelling cost)
    (notBlock : ∀ word, spelling.words.head? = some word → word.type ≠ .openBrace)
    {source : Source} {edge : Edge}
    (laid : LaidOut source.text (spelling.words ++ [Word.fixed .semicolon false]) edge)
    (levels : Nat) :
    (∃ tree, parseScript source levels = .ok tree ∧
      tree.core = .made .program [.made .exprStmt [node]]) ∨
    levels < cost + 6 ∧ parseScript source levels = .error (.parse .nestingTooDeep) := by
  obtain ⟨tokens, last, tokenized, holds, isLast⟩ := laid.tokenize
  have spelled := Spelled.of_holds holds [last]
  have statement := Grammar.statement_runs reads notBlock levels spelled
  obtain ⟨first, more, isWords, starts, _⟩ := reads.worded.starts
  have begins : first.type ≠ .endOfInput := fun isEnd =>
    Grammar.startsExpression_not starts (by simp [isEnd])
  rw [isWords] at spelled
  obtain ⟨token, following, isTokens, isFirst, spelled⟩ := spelled
  obtain ⟨next, rest, rfl⟩ := (Grammar.endsStatement_end isLast).next.cons spelled
  rw [isTokens] at tokenized statement
  rw [← isFirst.type] at begins
  rcases parseScript_of_statement tokenized
    (Grammar.statements_single begins isLast statement) with ⟨value, isNode, parsed⟩ | refused
  · refine .inl ⟨_, parsed, ?_⟩
    have isProgram : (Grammar.program source [value]).core = .made .program [value.core] :=
      Node.core_read (by nofun) {} source _ [value]
    rw [isProgram, isNode]
  · exact .inr refused

end ScriptFold

/-!
## Reading names and calls of them

A name is read as the script of this name, and a name with another one in parentheses as the
script of a call.  Here the nodes that are read matter, not only what they say: folding expands
a callee that is a name, and not one in parentheses.
-/

namespace ScriptFold

open Word

def nameWord (name : Text) : Word :=
  ⟨.ident, name, false⟩

def enclosedName (name : Text) : List Word :=
  fixed .openParen false :: ([nameWord name] ++ [fixed .closeParen false])

namespace Grammar

/-- A chain that does not begin like an arrow function is read as an assignment expression. -/
theorem FormsChain.assignment {form : Node → Prop} {words : List Word} {free : Bool} {cost : Nat}
    (reads : FormsChain form words free 19 cost) (opens : Opens words) {first : Word}
    {more : List Word} (isWords : words = first :: more) (starts : startsChain first.type) :
    FormsAssignment form words cost := by
  have left : FormsBinary form words 20 cost := (reads.unary (by decide) isWords starts).binary
  apply left.assignment (by decide) opens
  intro word isHead isYield
  rw [isWords] at isHead
  cases isHead
  rw [isYield] at starts
  cases starts

theorem forms_atom (name : Text) (cost : Nat) :
    FormsChain (Node.IsAtom (.name name)) [nameWord name] true 19 cost := by
  have primary : FormsPrimary (Node.IsAtom (.name name)) [nameWord name] cost := by
    intro level
    apply (forms_name name cost level).mono
    rintro _ ⟨source, span, token, rfl, rfl⟩
    exact .intro
  exact primary.chain rfl (by nofun) true

private theorem forms_arguments (name : Text) (level : Nat) :
    GivesForm (level < 4) (arguments (rulesAt level)) (enclosedName name)
      (IsArgsRead fun values => ∃ value, values = [value] ∧ value.IsAtom (.name name)) 19 := by
  have value := ((forms_atom name 0).assignment (.name rfl .nil) rfl rfl).spreadable rfl
    (by nofun) level
  apply arguments_of_list
  intro tokens closer rest spelled isCloser
  have ends : Ends (closer :: rest) := Next.ends ⟨closer, rest, rfl, by rw [isCloser]; decide⟩
  exact commaList_single value rfl (by nofun) spelled ends

theorem forms_call (name argument : Text) :
    FormsExpression (Node.IsCall name (Node.IsAtom (.name argument)))
      (nameWord name :: enclosedName argument) 4 := by
  have link := formsLink_call (Node.IsAtom (.name name)) (forms_arguments argument)
  have chain := (forms_atom name 4).link link rfl (by decide)
  have opens : Opens (nameWord name :: enclosedName argument) :=
    .name rfl (.call (.cons (by simp [nameWord]) .nil) .nil)
  intro level
  apply ((chain.assignment opens rfl rfl).expression level).mono
  rintro _ ⟨source, span, callee, _, isCallee, ⟨_, _, _, ⟨value, rfl, isValue⟩, rfl⟩, rfl⟩
  exact .intro isCallee isValue

end Grammar

/-- A text that begins with a name, and is laid out as an expression of some form, is a script
of that expression. -/
theorem parseScript_named {form : Node → Prop} {name : Text} {words : List Word} {cost : Nat}
    (reads : Grammar.FormsExpression form (nameWord name :: words) cost)
    {levels : Nat} (shallow : cost + 6 ≤ levels)
    (plain : ∀ word, words.head? = some word → word.type ≠ .kwFunction ∧ word.type ≠ .colon)
    {source : Source} {edge : Edge} (laid : LaidOut source.text (nameWord name :: words) edge) :
    ∃ tree, parseScript source levels = .ok tree ∧ tree.IsScript form := by
  obtain ⟨tokens, last, tokenized, holds, isLast⟩ := laid.tokenize
  have spelled := Spelled.of_holds holds [last]
  have ends := Grammar.endsStatement_end isLast
  obtain ⟨levels, rfl⟩ : ∃ more, levels = more + 1 := ⟨levels - 1, by omega⟩
  have statement := Grammar.expressionStatement_runs reads levels spelled ends
  obtain ⟨token, following, isTokens, isName, spelled⟩ := spelled
  obtain ⟨next, rest, rfl⟩ := ends.next.cons spelled
  have isPlain : next.type ≠ .kwFunction ∧ next.type ≠ .colon := by
    cases words with
    | nil =>
        cases spelled
        rw [isLast]
        exact ⟨nofun, nofun⟩
    | cons word others =>
        obtain ⟨_, _, isNext, isWord, _⟩ := spelled
        cases isNext
        rw [isWord.type]
        exact plain word rfl
  rw [isTokens] at tokenized statement
  have isIdent : token.type = .ident := isName.type
  have statements := Grammar.statements_single (by rw [isIdent]; nofun) isLast
    (Grammar.statement_named isIdent isPlain.1 isPlain.2 statement)
  rcases parseScript_of_statement tokenized statements with
    ⟨_, ⟨_, _, expression, isForm, rfl⟩, parsed⟩ | ⟨isDeep, _⟩
  · exact ⟨_, parsed, .intro (.intro isForm)⟩
  · omega

section Texts

variable {name argument : Text}

theorem laidOut_name (lexes : LexesAs .ident name) :
    LaidOut name [nameWord name] ⟨some (nameWord name), []⟩ := by
  have meets : Edge.Meets ⟨none, []⟩ (nameWord name) :=
    ⟨⟨fun _ => ⟨nofun, nofun⟩, nofun⟩, nofun, nofun⟩
  exact LaidOut.empty.addWord (sound_name lexes) meets

/-- A text of one name is a script of it. -/
theorem parseScript_name (lexes : LexesAs .ident name) {source : Source}
    (isText : source.text = name) :
    ∃ tree, parseScript source = .ok tree ∧ tree.IsScript (Node.IsAtom (.name name)) := by
  have reads := ((Grammar.forms_atom name 0).assignment (.name rfl .nil) rfl rfl).expression
  subst isText
  exact parseScript_named reads (by decide) nofun (laidOut_name lexes)

/-- The text of a call of a name with another name as its argument. -/
def callText (name argument : Text) : Text :=
  name ++ Text.ofString "(" ++ argument ++ Text.ofString ")"

private theorem laidOut_call (lexes : LexesAs .ident name) (argLexes : LexesAs .ident argument) :
    ∃ edge, LaidOut (callText name argument) (nameWord name :: enclosedName argument) edge := by
  have opens : Edge.Meets ⟨some (nameWord name), []⟩ (fixed .openParen false) := by
    refine ⟨⟨nofun, nofun⟩, nofun, ?_⟩
    rintro _ isLast - more
    cases isLast
    exact scans_name lexes (.cons (by decide) (by decide) more)
  have takes : Edge.Meets ⟨some (fixed .openParen false), []⟩ (nameWord argument) := by
    refine ⟨⟨nofun, nofun⟩, nofun, ?_⟩
    rintro _ isLast - more
    cases isLast
    have noExtension : TokenType.extensions (TokenType.spelling .openParen) = [] := by decide
    refine scans_operator rfl false ⟨fun point _ => ?_, nofun⟩
    rw [noExtension]
    exact List.not_mem_nil
  have closes : Edge.Meets ⟨some (nameWord argument), []⟩ (fixed .closeParen false) := by
    refine ⟨⟨nofun, nofun⟩, nofun, ?_⟩
    rintro _ isLast - more
    cases isLast
    exact scans_name argLexes (.cons (by decide) (by decide) more)
  have callee := (laidOut_name lexes).addWord (sound_operator rfl false) opens
  have call := (callee.addWord (sound_name argLexes) takes).addWord (sound_operator rfl false) closes
  exact ⟨_, call⟩

/-- A text of a name with another one in parentheses is a script of a call. -/
theorem parseScript_call (lexes : LexesAs .ident name) (argLexes : LexesAs .ident argument)
    {source : Source} (isText : source.text = callText name argument) :
    ∃ tree, parseScript source = .ok tree ∧
      tree.IsScript (Node.IsCall name (Node.IsAtom (.name argument))) := by
  obtain ⟨edge, laid⟩ := laidOut_call lexes argLexes
  apply parseScript_named (Grammar.forms_call name argument) (by decide) ?_ (isText ▸ laid)
  intro word isHead
  cases isHead
  exact ⟨nofun, nofun⟩

end Texts

end ScriptFold
