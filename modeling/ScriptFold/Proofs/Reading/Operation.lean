import ScriptFold.Proofs.Reading.Primary

/-!
# Reading operators

Constructions, and operators in front of, after and between operands.
-/

namespace ScriptFold

namespace Grammar

open Word

/-- Tokens at which the callee of a `new` ends. -/
def EndsCallee (tokens : List Token) : Prop :=
  ∃ token rest, tokens = token :: rest ∧ (strength token.type ≤ 18 ∨ token.type = .openParen)

private theorem chainFrom_ends_callee {rules : Rules} {start : Token} {budget : Nat} {object : Node}
    {tokens : List Token} {deep : Prop} {gives : Node → List Token → Prop}
    (ends : EndsCallee tokens) (within : tokens.length < budget) (is : gives object tokens) :
    Runs deep (chainFrom rules false start budget object) tokens gives := by
  obtain ⟨token, rest, rfl, weak | isOpen⟩ := ends
  · exact chainFrom_ends ⟨token, rest, rfl, weak⟩ within is
  · rcases budget with _ | budget
    · cases within
    have noLink : Steps (chainLink? rules false start object) (token :: rest) none
        (token :: rest) := by
      refine (Steps.current token rest).bind ?_
      rw [isOpen]
      exact .of_pure none
    exact .step noLink (.of_pure is)

section Construction

variable {callee : Node} {spelling : Spelling} {cost : Nat}

/-- A construction up to its arguments. -/
theorem construction_runs (reads : Reads callee spelling cost) (tight : 19 ≤ spelling.binds)
    (free : spelling.free) {level : Nat} {tokens middle : List Token}
    (spelled : Spelled (fixed .kwNew false :: spelling.words) tokens middle)
    (ends : EndsCallee middle) {gives : Node → List Token → Prop}
    (goes : ∀ start value, value.core = callee → Runs (level < cost) (do
        let args ← if ← check [.openParen] then Grammar.arguments (rulesAt level) else pure .absent
        finish .newExpr [value, args] start) middle gives) :
    Runs (level < cost) (construction (rulesAt level)) tokens gives := by
  obtain ⟨start, others, rfl, isStart, wordsSpelled⟩ := spelled
  have startType : start.type = .kwNew := isStart.type
  obtain ⟨first, more, isWords, starts, _⟩ := reads.worded.starts
  have next : Next 19 middle := by
    obtain ⟨token, rest, rfl, weak | isOpen⟩ := ends
    · exact ⟨token, rest, rfl, Nat.le_trans weak (by decide)⟩
    · exact ⟨token, rest, rfl, by rw [isOpen]; decide⟩
  have chained := fun start => reads.chain tight level false start others middle (level < cost)
    (fun value after => value.core = callee ∧ after = middle) (fun _ => free) id wordsSpelled next
    fun budget object isCallee within => chainFrom_ends_callee ends within ⟨isCallee, rfl⟩
  rw [isWords] at wordsSpelled
  obtain ⟨token, following, rfl, isFirst, _⟩ := wordsSpelled
  have notDot : token.type ≠ .dot := by
    intro isDot
    rw [isFirst.type] at isDot
    exact startsExpression_not starts (by simp [isDot])
  refine .step (.expect startType token following) (.step (.not_accept notDot following) ?_)
  refine .step (.current token following) ?_
  have whole := Runs.bind (chained token) fun value after is => by
    obtain ⟨isCallee, rfl⟩ := is
    exact goes start value isCallee
  rw [bind_assoc] at whole
  exact whole

/-- Words that begin with `new` and are read as a construction are the head of a chain. -/
theorem readsChain_of_construction {node : Node} {words : List Word} {bound : Nat}
    (reads : ∀ level, Gives (level < cost) (rulesAt level).construction
      (fixed .kwNew false :: words) node bound) (free : Bool) :
    ReadsChain node (fixed .kwNew false :: words) free bound cost := by
  intro level calls start tokens rest deep gives _ deeper spelled next goes
  have constructed := reads level tokens rest spelled next
  obtain ⟨token, others, rfl, isToken, _⟩ := spelled
  have tokenType : token.type = .kwNew := isToken.type
  have headed : Runs deep (chainHead (rulesAt level)) (token :: others)
      fun value after => value.core = node ∧ after = rest := by
    refine .step (.check _ token others) ?_
    rw [tokenType]
    exact constructed.mono deeper fun _ _ is => is
  refine .bind headed ?_
  rintro object _ ⟨isNode, rfl⟩
  exact .withBudget fun budget within => goes budget object isNode within

/-- A construction with arguments. -/
theorem Reads.construct (reads : Reads callee spelling (cost + 4)) (tight : 19 ≤ spelling.binds)
    (free : spelling.free) {items : List (Node × List Word)}
    (itemsRead : ∀ entry, entry ∈ items → ReadsSpreadable cost .closeParen entry.1 entry.2) :
    Reads (.made .newExpr [callee, .made .args (items.map Prod.fst)])
      ⟨fixed .kwNew false :: (spelling.words ++ argumentWords items), 19, true⟩ (cost + 5) := by
  have balanced := balanced_spreadables itemsRead
  have constructed : ∀ level, Gives (level < cost + 5) (rulesAt level).construction
      (fixed .kwNew false :: (spelling.words ++ argumentWords items))
      (.made .newExpr [callee, .made .args (items.map Prod.fst)]) 19 := by
    rintro (_ | level) tokens rest spelled next
    · exact .refused (Nat.succ_pos _)
    rw [← List.cons_append] at spelled
    obtain ⟨middle, calleeSpelled, argsSpelled⟩ := Spelled.append_iff.mp spelled
    have args := arguments_gives itemsRead level middle rest argsSpelled next
    obtain ⟨opener, others, rfl, isOpener, _⟩ := argsSpelled
    have openType : opener.type = .openParen := isOpener.type
    refine (construction_runs reads tight free calleeSpelled ⟨opener, others, rfl, .inr openType⟩
      fun start value isCallee => ?_).mono Nat.succ_lt_succ fun _ _ is => is
    refine .step (.check _ opener others) ?_
    rw [openType]
    refine .bind args ?_
    rintro list _ ⟨isArgs, rfl⟩
    refine .finishWith (by decide) fun whole isWhole => ⟨isWhole.trans ?_, rfl⟩
    rw [← isArgs, ← isCallee]
    rfl
  exact .of_chain (.of_opener rfl (fun _ => rfl) (by decide) (.cons (by decide)
    (reads.worded.balanced.append (balanced.enclosed .nil)))) (Nat.le_refl 19)
    (readsChain_of_construction constructed true)

/-- A construction without arguments. -/
theorem Reads.constructBare (reads : Reads callee spelling cost) (tight : 19 ≤ spelling.binds)
    (free : spelling.free) :
    Reads (.made .newExpr [callee, .absent]) ⟨fixed .kwNew false :: spelling.words, 18, true⟩
      (cost + 1) := by
  have constructed : ∀ level, Gives (level < cost + 1) (rulesAt level).construction
      (fixed .kwNew false :: spelling.words) (.made .newExpr [callee, .absent]) 18 := by
    rintro (_ | level) tokens rest spelled next
    · exact .refused (Nat.succ_pos _)
    obtain ⟨token, others, rfl, weak⟩ := next
    have notOpen : token.type ≠ .openParen := by
      intro isOpen
      rw [isOpen] at weak
      exact absurd weak (by decide)
    refine (construction_runs reads tight free spelled ⟨token, others, rfl, .inl weak⟩
      fun start value isCallee => ?_).mono Nat.succ_lt_succ fun _ _ is => is
    refine .step (.check _ token others) ?_
    rw [not_contains_of_ne notOpen]
    refine .step (.of_pure Node.absent)
      (.finishWith (by decide) fun whole isWhole => ⟨isWhole.trans ?_, rfl⟩)
    rw [← isCallee]
    rfl
  exact .of_unary (.of_opener rfl (fun _ => rfl) (by decide) (.cons (by decide) reads.worded.balanced))
    (Nat.le_succ 17) (Nat.lt_succ_self 18)
    ((readsChain_of_construction constructed true).unary (by decide) rfl rfl)

end Construction

section Operators

variable {operand : Node} {spelling : Spelling} {cost : Nat}

/-- An operator in front of an operand. -/
theorem prefixed_runs (reads : Reads operand spelling cost) (tight : 17 ≤ spelling.binds)
    {type : TokenType} (kind : Kind) (notParen : kind ≠ .paren) (level : Nat)
    {tokens rest : List Token}
    (spelled : Spelled (fixed type false :: spelling.words) tokens rest) (next : Next 17 rest) :
    Runs (level < cost + 2) (prefixed (rulesAt level) kind true) tokens fun value after =>
      value.core = .made kind [.word .op (Text.ofString type.spelling), operand] ∧ after = rest := by
  obtain ⟨token, others, rfl, isToken, spelled⟩ := spelled
  have tokenText : token.text = Text.ofString type.spelling := isToken.text
  have value := reads.unary tight level others rest spelled next
  obtain ⟨second, more, rfl⟩ := next.cons spelled
  refine .step (.advance token second more) (.bind value ?_)
  rintro result _ ⟨isOperand, rfl⟩
  refine .finishWith notParen fun whole isWhole => ⟨isWhole.trans ?_, rfl⟩
  rw [← isOperand, ← tokenText]
  rfl

theorem Reads.unaryOperator (reads : Reads operand spelling cost) (tight : 17 ≤ spelling.binds)
    {type : TokenType} (isOperator : isUnary type) :
    Reads (.made .unary [.word .op (Text.ofString type.spelling), operand])
      ⟨fixed type false :: spelling.words, 17, true⟩ (cost + 1) := by
  have plain : startsExpression type ∧ type ∉ [.ident, .openParen] ∧
      type ∉ [.openParen, .closeParen, .endOfInput] := by
    revert isOperator
    cases type <;> simp [isUnary, startsExpression, startsChain]
  refine .of_unary (.of_opener plain.1 (by simp) plain.2.1
    (.cons plain.2.2 reads.worded.balanced)) (Nat.le_refl 17) (by simp) ?_
  rintro (_ | level) tokens rest spelled next
  · exact .refused (Nat.succ_pos _)
  have value := prefixed_runs reads tight .unary (by decide) level spelled next
  obtain ⟨token, others, rfl, isToken, _⟩ := spelled
  have tokenType : token.type = type := isToken.type
  refine .step (.current token others) ?_
  rw [tokenType, isOperator]
  exact value.mono Nat.succ_lt_succ fun _ _ is => is

/-- An update in front of its target. -/
theorem Reads.prefixUpdate (reads : Reads operand spelling cost) (tight : 17 ≤ spelling.binds)
    {type : TokenType} (isUpdate : type = .increment ∨ type = .decrement) :
    Reads (.made .prefixUpdate [.word .op (Text.ofString type.spelling), operand])
      ⟨fixed type false :: spelling.words, 17, true⟩ (cost + 1) := by
  have plain : startsExpression type ∧ type ∉ [.ident, .openParen] ∧
      type ∉ [.openParen, .closeParen, .endOfInput] ∧ isUnary type = false := by
    rcases isUpdate with rfl | rfl <;> decide
  refine .of_unary (.of_opener plain.1 (by simp) plain.2.1
    (.cons plain.2.2.1 reads.worded.balanced)) (Nat.le_refl 17) (by simp) ?_
  rintro (_ | level) tokens rest spelled next
  · exact .refused (Nat.succ_pos _)
  have value := prefixed_runs reads tight .prefixUpdate (by decide) level spelled next
  obtain ⟨token, others, rfl, isToken, _⟩ := spelled
  have tokenType : token.type = type := isToken.type
  refine .step (.current token others) ?_
  rw [tokenType, plain.2.2.2, if_neg (by simp), if_pos isUpdate]
  exact value.mono Nat.succ_lt_succ fun _ _ is => is

/-- An update after its target, on the same line. -/
theorem Reads.postfixUpdate (reads : Reads operand spelling cost) (tight : 19 ≤ spelling.binds)
    {type : TokenType} (isUpdate : type = .increment ∨ type = .decrement) :
    Reads (.made .postfixUpdate [operand, .word .op (Text.ofString type.spelling)])
      ⟨spelling.words ++ [fixed type true], 18, true⟩ cost := by
  have plain : strength type ≤ 18 ∧ type ∉ [.arrow, .ident, .openParen, .colon, .kwFunction] ∧
      type ∉ [.openParen, .closeParen, .endOfInput] ∧
      [TokenType.increment, .decrement].contains type := by
    rcases isUpdate with rfl | rfl <;> decide
  refine .of_unary (reads.worded.extend (Nat.le_trans (by decide) tight) (.cons plain.2.2.1 .nil)
    (.link plain.2.1) (Nat.le_trans (by decide) tight)) (Nat.le_succ 17) (Nat.lt_succ_self 18) ?_
  rintro (_ | level) tokens rest spelled next
  · exact .refused (Nat.succ_pos _)
  obtain ⟨middle, wordsSpelled, update, last, rfl, isUpdateToken, rfl⟩ :=
    Spelled.append_iff.mp spelled
  have updateType : update.type = type := isUpdateToken.type
  have updateText : update.text = Text.ofString type.spelling := isUpdateToken.text
  have onLine : update.newlineBefore = false := isUpdateToken.joined rfl
  have updates : Next 18 (update :: last) := ⟨update, last, rfl, updateType ▸ plain.1⟩
  have value := (reads.chain tight).leftHandSide (by decide) level tokens _ wordsSpelled updates
  obtain ⟨first, others, isWords, _, starts⟩ := reads.worded.starts
  rw [isWords] at wordsSpelled
  obtain ⟨token, more, rfl, isFirst, _⟩ := wordsSpelled
  have notPrefix := startsChain_not (isFirst.type ▸ starts tight)
  obtain ⟨after, following, rfl, _⟩ := next
  refine .step (.current token more) ?_
  simp only [notPrefix.1, if_neg notPrefix.2.1, if_neg notPrefix.2.2]
  refine .bind (value.mono (fun less => by omega) fun _ _ is => is) ?_
  rintro target _ ⟨isOperand, rfl⟩
  refine .step (.check _ update _) (.step (.current update _) ?_)
  rw [updateType, plain.2.2.2, onLine]
  refine .step (.advance update after following)
    (.finishWith (by decide) fun whole isWhole => ⟨isWhole.trans ?_, rfl⟩)
  rw [← isOperand, ← updateText]
  rfl

theorem binaryPrecedence?_range {type : TokenType} {precedence : Nat}
    (isBinary : binaryPrecedence? type = some precedence) :
    1 ≤ precedence ∧ (type = .pow ∧ precedence = 12 ∨ type ≠ .pow ∧ precedence ≤ 11) := by
  cases type <;> cases isBinary <;> decide

private theorem binary_plain {type : TokenType} {precedence : Nat}
    (isBinary : binaryPrecedence? type = some precedence) :
    type ∉ [.arrow, .ident, .openParen, .colon, .kwFunction] ∧
      type ∉ [.openParen, .closeParen, .endOfInput] := by
  cases type <;> cases isBinary <;> decide

/-- The node of an operator between two operands. -/
def binaryNode (type : TokenType) (left right : Node) : Node :=
  .made (if isLogical type then .logical else .binary)
    [left, .word .op (Text.ofString type.spelling), right]

/-- An operator between two operands.  All but the power operator group to the left. -/
theorem Reads.binaryOperator {left right : Node} {leftSpelling rightSpelling : Spelling}
    (leftReads : Reads left leftSpelling cost) (rightReads : Reads right rightSpelling cost)
    {type : TokenType} {precedence : Nat} (isBinary : binaryPrecedence? type = some precedence)
    (leftTight : (if type = .pow then 18 else precedence + 4) ≤ leftSpelling.binds)
    (rightTight : (if type = .pow then 16 else precedence + 5) ≤ rightSpelling.binds) :
    Reads (binaryNode type left right)
      ⟨leftSpelling.words ++ fixed type false :: rightSpelling.words, precedence + 4, true⟩
      (cost + 1) := by
  obtain ⟨positive, range⟩ := binaryPrecedence?_range isBinary
  obtain ⟨continues, plain⟩ := binary_plain isBinary
  have atLeast : precedence + 4 ≤ leftSpelling.binds := by
    rcases range with ⟨rfl, rfl⟩ | ⟨notPow, _⟩
    · exact Nat.le_trans (by decide) leftTight
    · rwa [if_neg notPow] at leftTight
  have leftReach : precedence + 4 ≤ reach leftSpelling.binds := by
    unfold reach
    rcases range with ⟨rfl, rfl⟩ | ⟨notPow, small⟩
    · have leftTight : 18 ≤ leftSpelling.binds := leftTight
      rw [if_neg (by omega)]
      omega
    · split <;> omega
  -- The right operand is read from the next precedence on, or from the same for a power.
  obtain ⟨least, isLeast, least_pos, bounded, tight, reached⟩ : ∃ least,
      (if type = .pow then precedence else precedence + 1) = least ∧ 1 ≤ least ∧ least ≤ 12 ∧
        least + 4 ≤ rightSpelling.binds ∧ reach (precedence + 4) ≤ least + 3 := by
    rcases range with ⟨rfl, rfl⟩ | ⟨notPow, small⟩
    · exact ⟨12, rfl, by decide, Nat.le_refl 12, rightTight, by decide⟩
    · rw [if_neg notPow] at rightTight
      refine ⟨precedence + 1, if_neg notPow, Nat.succ_pos _, by omega, rightTight, ?_⟩
      unfold reach
      split <;> omega
  refine .of_binary (leftReads.worded.extend (by omega) (.cons plain rightReads.worded.balanced)
    (.link continues) atLeast) (fun tighter => ?_) (fun tighter => ?_) (by simp only; omega) ?_
  · simp only at tighter
    omega
  · simp only at tighter
    omega
  intro level least' start tokens rest deep gives below deeper spelled next goes
  obtain ⟨middle, leftSpelled, op, others, rfl, isOp, rightSpelled⟩ :=
    Spelled.append_iff.mp spelled
  have opType : op.type = type := isOp.type
  have opText : op.text = Text.ofString type.spelling := isOp.text
  have opBinary : binaryPrecedence? op.type = some precedence := opType ▸ isBinary
  have opNext : Next (reach leftSpelling.binds) (op :: others) :=
    ⟨op, others, rfl, by rw [strength_binary opBinary]; exact leftReach⟩
  have rightValue := (rightReads.binary (by omega)).gives tight bounded level others rest
    rightSpelled (next.mono reached)
  refine leftReads.binary (by omega) level least' start tokens (op :: others) deep gives
    (by simp only at below; omega) (fun less => deeper (by omega)) leftSpelled opNext
    fun budget value isLeft within => ?_
  rcases budget with _ | budget
  · cases within
  have shorter : rest.length < budget := by
    have size := rightSpelled.length
    rw [List.length_cons] at within
    omega
  obtain ⟨second, more, rfl⟩ := next.cons rightSpelled
  refine .step (operator?_some opBinary (by simp only at below; omega)) ?_
  refine .step (.advance op second more) ?_
  rw [opType, isLeast]
  refine .bind (rightValue.mono (fun less => deeper (by omega)) fun _ _ is => is) ?_
  rintro result last ⟨isRight, rfl⟩
  have notParen : (if isLogical type then Kind.logical else .binary) ≠ .paren := by
    split <;> decide
  have joined : Runs deep (finish (if isLogical type then .logical else .binary)
      [value, leafOf .op op, result] start) last fun node after =>
        node.core = binaryNode type left right ∧ after = last := by
    refine .finishWith notParen fun whole isWhole => ⟨isWhole.trans ?_, rfl⟩
    rw [binaryNode, ← isLeft, ← isRight, ← opText]
    rfl
  refine .bind joined ?_
  rintro whole _ ⟨isWhole, rfl⟩
  exact goes budget whole isWhole shorter

end Operators

end Grammar

end ScriptFold
