import ScriptFold.Proofs.Reading.Strength

/-!
# The ladder of readers

The readers of the grammar form a ladder: chains, operands, binary operators, assignments and
whole expressions.  Words that one reader reads as a node of some form are read so by all
readers above it.  The form that is asked for most is to say what a given node says.
-/

namespace ScriptFold

namespace Grammar

/-- The strongest token that is not taken into the right operand of an expression that binds
as tight as given.  The power operator groups to the right. -/
def reach (binds : Nat) : Nat :=
  if binds = 16 then 15 else min binds 17

/-- Words are read as the head of a chain, whatever the chain goes on with after a token that is
not stronger than a bound. -/
def FormsChain (form : Node → Prop) (words : List Word) (free : Bool) (bound cost : Nat) : Prop :=
  ∀ level calls start tokens rest deep gives, (calls = false → free) → (level < cost → deep) →
    Spelled words tokens rest → Next bound rest →
    (∀ budget object, form object → rest.length < budget →
      Runs deep (chainFrom (rulesAt level) calls start budget object) rest gives) →
    Runs deep (chainHead (rulesAt level) >>= chain (rulesAt level) calls start) tokens gives

/-- Words are read as a left operand, whatever operators come next. -/
def FormsBinary (form : Node → Prop) (words : List Word) (binds cost : Nat) : Prop :=
  ∀ level least start tokens rest deep gives, least + 4 ≤ binds → (level < cost + 2 → deep) →
    Spelled words tokens rest → Next (reach binds) rest →
    (∀ budget left, form left → rest.length < budget →
      Runs deep (climb (rulesAt level) least start budget left) rest gives) →
    Runs deep ((rulesAt level).unary >>= fun left => do
      climb (rulesAt level) least start (← get).budget left) tokens gives

/-- Words are read as an operand. -/
def FormsUnary (form : Node → Prop) (words : List Word) (cost : Nat) : Prop :=
  ∀ level, GivesForm (level < cost + 2) (rulesAt level).unary words form 17

/-- Words are read as an assignment expression. -/
def FormsAssignment (form : Node → Prop) (words : List Word) (cost : Nat) : Prop :=
  ∀ level, GivesForm (level < cost + 4) (rulesAt level).assignment words form 2

def FormsExpression (form : Node → Prop) (words : List Word) (cost : Nat) : Prop :=
  ∀ level, GivesForm (level < cost + 5) (rulesAt level).expression words form 0

/-- Words are read as the head of a chain that says what a node says. -/
abbrev ReadsChain (node : Node) (words : List Word) (free : Bool) (bound cost : Nat) : Prop :=
  FormsChain (fun value => value.core = node) words free bound cost

/-- Words are read as a left operand that says what a node says. -/
abbrev ReadsBinary (node : Node) (words : List Word) (binds cost : Nat) : Prop :=
  FormsBinary (fun value => value.core = node) words binds cost

/-- Words are read as an operand that says what a node says. -/
abbrev ReadsUnary (node : Node) (words : List Word) (cost : Nat) : Prop :=
  FormsUnary (fun value => value.core = node) words cost

/-- Words are read as an assignment expression that says what a node says. -/
abbrev ReadsAssignment (node : Node) (words : List Word) (cost : Nat) : Prop :=
  FormsAssignment (fun value => value.core = node) words cost

/-- Words are read as an expression that says what a node says. -/
abbrev ReadsExpression (node : Node) (words : List Word) (cost : Nat) : Prop :=
  FormsExpression (fun value => value.core = node) words cost

theorem chainLink?_none {rules : Rules} {calls : Bool} {start token : Token} {object : Node}
    {rest : List Token} (weak : strength token.type ≤ 18) :
    Steps (chainLink? rules calls start object) (token :: rest) none (token :: rest) := by
  refine (Steps.current token rest).bind ?_
  revert weak
  cases token.type
  case dot | optionalDot | openBracket | openParen | wholeTemplate | templateHead =>
    intro weak
    cases Nat.not_succ_le_self _ weak
  all_goals exact fun _ => .of_pure none

theorem strength_binary {type : TokenType} {precedence : Nat}
    (isBinary : binaryPrecedence? type = some precedence) : strength type = precedence + 4 := by
  cases type <;> cases isBinary <;> rfl

private theorem run_operator? (least : Nat) (state : State) :
    (operator? least).run state =
      .ok (match binaryPrecedence? (state.tokens.headD noToken).type with
        | some precedence =>
            if precedence < least || ((state.tokens.headD noToken).type == .kwIn && state.noIn) then
              none
            else some (state.tokens.headD noToken, precedence)
        | none => none, state) := rfl

/-- What the operator at a token is, if `in` is an operator. -/
theorem operator?_steps (token : Token) (rest : List Token) (least : Nat) :
    Steps (operator? least) (token :: rest)
      ((binaryPrecedence? token.type).bind fun precedence =>
        if precedence < least then none else some (token, precedence)) (token :: rest) := by
  intro state ready
  refine ⟨state, ?_, ready⟩
  rw [run_operator?, ready.left, ready.allows, List.headD_cons]
  cases binaryPrecedence? token.type <;> simp

theorem operator?_none {token : Token} {rest : List Token} {least : Nat}
    (weak : strength token.type ≤ least + 3) :
    Steps (operator? least) (token :: rest) none (token :: rest) := by
  have steps := operator?_steps token rest least
  cases isBinary : binaryPrecedence? token.type with
  | none =>
      rw [isBinary] at steps
      exact steps
  | some precedence =>
      have lower : precedence < least := by
        rw [strength_binary isBinary] at weak
        omega
      rw [isBinary, Option.bind_some, if_pos lower] at steps
      exact steps

theorem operator?_some {token : Token} {rest : List Token} {least precedence : Nat}
    (isBinary : binaryPrecedence? token.type = some precedence) (atLeast : least ≤ precedence) :
    Steps (operator? least) (token :: rest) (some (token, precedence)) (token :: rest) := by
  have steps := operator?_steps token rest least
  rw [isBinary, Option.bind_some, if_neg (Nat.not_lt.mpr atLeast)] at steps
  exact steps

/-- Tokens with which a chain can begin. -/
def startsChain : TokenType → Bool
  | .ident | .number | .string | .kwTrue | .kwFalse | .kwNull | .kwThis | .kwNew | .openParen
  | .openBracket | .openBrace => true
  | _ => false

/-- Tokens with which an expression can begin. -/
def startsExpression (type : TokenType) : Bool :=
  startsChain type || isUnary type || type == .increment || type == .decrement

/-- A chain ends before a token that is no link. -/
theorem chainFrom_ends {rules : Rules} {calls : Bool} {start : Token} {budget : Nat} {object : Node}
    {tokens : List Token} {deep : Prop} {gives : Node → List Token → Prop}
    (next : Next 18 tokens) (within : tokens.length < budget) (is : gives object tokens) :
    Runs deep (chainFrom rules calls start budget object) tokens gives := by
  obtain ⟨token, rest, rfl, weak⟩ := next
  cases budget with
  | zero => cases within
  | succ budget => exact .step (chainLink?_none weak) (.of_pure is)

/-- Operators end before a token that binds less tight. -/
theorem climb_ends {rules : Rules} {start : Token} {least budget : Nat} {left : Node}
    {tokens : List Token} {deep : Prop} {gives : Node → List Token → Prop}
    (next : Next (least + 3) tokens) (within : tokens.length < budget) (is : gives left tokens) :
    Runs deep (climb rules least start budget left) tokens gives := by
  obtain ⟨token, rest, rfl, weak⟩ := next
  cases budget with
  | zero => cases within
  | succ budget => exact .step (operator?_none weak) (.of_pure is)

section Ladder

variable {form : Node → Prop} {words : List Word} {cost : Nat}

theorem FormsChain.leftHandSide {free : Bool} {bound : Nat}
    (reads : FormsChain form words free bound cost) (strong : 18 ≤ bound) (level : Nat) : GivesForm (level < cost + 1) (rulesAt level).leftHandSide words form 18 := by
  cases level with
  | zero => exact fun _ _ _ _ => .refused (Nat.succ_pos cost)
  | succ level =>
      intro tokens rest spelled next
      obtain ⟨start, others, rfl⟩ := next.cons spelled
      refine .step (.current start others) ?_
      refine reads level true start _ rest _ _ nofun Nat.succ_lt_succ spelled
        (next.mono strong) fun budget object isNode within => ?_
      exact chainFrom_ends next within ⟨isNode, rfl⟩

theorem startsChain_not {type : TokenType} (starts : startsChain type) :
    isUnary type = false ∧ ¬ (type = .increment ∨ type = .decrement) ∧ type ≠ .kwAwait := by
  revert starts
  cases type <;> simp [startsChain, isUnary]

theorem FormsChain.unary {free : Bool} {bound : Nat}
    (reads : FormsChain form words free bound cost) (strong : 18 ≤ bound) {first : Word}
    {more : List Word} (isWords : words = first :: more) (starts : startsChain first.type) :
    FormsUnary form words cost := by
  rintro (_ | level) tokens rest spelled next
  · exact .refused (Nat.succ_pos _)
  · have operand := reads.leftHandSide strong level tokens rest spelled (next.mono (by decide))
    subst isWords
    obtain ⟨token, others, rfl, isFirst, _⟩ := spelled
    rw [← isFirst.type] at starts
    have notPrefix := startsChain_not starts
    obtain ⟨after, more, rfl, weak⟩ := next
    have notPostfix : [TokenType.increment, .decrement].contains after.type = false := by
      revert weak
      cases after.type <;> simp [strength]
    refine .step (.current token others) ?_
    simp only [notPrefix.1, if_neg notPrefix.2.1, if_neg notPrefix.2.2]
    refine .bind (operand.mono Nat.succ_lt_succ fun _ _ is => is) ?_
    rintro value _ ⟨isNode, rfl⟩
    refine .step (.check _ after more) (.step (.current after more) ?_)
    rw [notPostfix]
    exact .of_pure ⟨isNode, rfl⟩

theorem FormsUnary.binary (reads : FormsUnary form words cost) {binds : Nat} :
    FormsBinary form words binds cost := by
  intro level least start tokens rest deep gives _ deeper spelled next goes
  have weak : reach binds ≤ 17 := by
    unfold reach
    split <;> omega
  have operand := reads level tokens rest spelled (next.mono weak)
  refine .bind (operand.mono deeper fun _ _ is => is) ?_
  rintro left _ ⟨isNode, rfl⟩
  exact .withBudget fun budget within => goes budget left isNode within

/-- Words are read as the operand of an operator that binds less tight. -/
theorem FormsBinary.gives {binds : Nat} (reads : FormsBinary form words binds cost) {least : Nat}
    (tight : least + 4 ≤ binds) (bounded : least ≤ 12) (level : Nat) :
    GivesForm (level < cost + 3) ((rulesAt level).binary least) words form (least + 3) := by
  rcases level with _ | level
  · exact fun _ _ _ _ => .refused (Nat.succ_pos _)
  · intro tokens rest spelled next
    have reached : least + 3 ≤ reach binds := by
      unfold reach
      split <;> omega
    obtain ⟨start, others, rfl⟩ := next.cons spelled
    refine .step (.current start others) ?_
    refine reads level least start _ rest _ _ tight Nat.succ_lt_succ spelled (next.mono reached)
      fun budget left isNode within => ?_
    exact climb_ends next within ⟨isNode, rfl⟩

theorem FormsBinary.conditional {binds : Nat} (reads : FormsBinary form words binds cost)
    (tight : 5 ≤ binds) (level : Nat) :
    GivesForm (level < cost + 3) (Grammar.conditional (rulesAt level)) words form 3 := by
  intro tokens rest spelled next
  have operand := reads.gives tight (by decide) level tokens rest spelled (next.mono (by decide))
  obtain ⟨start, others, rfl⟩ := next.cons spelled
  refine .step (.current start others) (.bind operand ?_)
  rintro test _ ⟨isNode, rfl⟩
  obtain ⟨token, more, rfl, weak⟩ := next
  have notQuestion : token.type ≠ .question := by
    intro isQuestion
    rw [isQuestion] at weak
    exact absurd weak (by decide)
  exact .step (.not_accept notQuestion more) (.of_pure ⟨isNode, rfl⟩)

/-- What is read as a conditional is read as an assignment expression. -/
theorem assignment_of_conditional
    (reads : ∀ level, GivesForm (level < cost + 3) (Grammar.conditional (rulesAt level)) words form 2)
    (opens : Opens words) (notYield : ∀ word, words.head? = some word → word.type ≠ .kwYield) :
    FormsAssignment form words cost := by
  rintro (_ | level) tokens rest spelled next
  · exact .refused (Nat.succ_pos _)
  · have value := reads level tokens rest spelled next
    have notArrow := opens.not_arrow spelled (next.noArrow (by decide))
    obtain ⟨start, others, rfl⟩ := next.cons spelled
    have isStart : start.type ≠ .kwYield := by
      cases words with
      | nil => cases opens
      | cons word words =>
          obtain ⟨_, _, isTokens, isWord, _⟩ := spelled
          cases isTokens
          rw [isWord.type]
          exact notYield word rfl
    refine .step (.current start others) ?_
    rw [if_neg isStart]
    refine .step notArrow (.bind (value.mono Nat.succ_lt_succ fun _ _ is => is) ?_)
    rintro left _ ⟨isNode, rfl⟩
    obtain ⟨token, more, rfl, weak⟩ := next
    have notAssign : token.type.isAssignment = false := by
      revert weak
      cases token.type <;> simp [strength, TokenType.isAssignment]
    refine .step (.current token more) ?_
    rw [notAssign]
    exact .of_pure ⟨isNode, rfl⟩

theorem FormsBinary.assignment {binds : Nat} (reads : FormsBinary form words binds cost)
    (tight : 5 ≤ binds) (opens : Opens words)
    (notYield : ∀ word, words.head? = some word → word.type ≠ .kwYield) :
    FormsAssignment form words cost := by
  refine assignment_of_conditional (fun level tokens rest spelled next => ?_) opens notYield
  exact reads.conditional tight level tokens rest spelled (next.mono (by decide))

theorem FormsAssignment.expression (reads : FormsAssignment form words cost) :
    FormsExpression form words cost := by
  rintro (_ | level) tokens rest spelled next
  · exact .refused (Nat.succ_pos _)
  · have items := commaItems_single (reads level) spelled next.ends
    obtain ⟨start, others, rfl⟩ := next.cons spelled
    refine .step (.current start others) (.bind (items.mono Nat.succ_lt_succ fun _ _ is => is) ?_)
    rintro _ _ ⟨⟨value, rfl, isForm⟩, rfl⟩
    exact .of_pure ⟨isForm, rfl⟩

end Ladder

end Grammar

end ScriptFold
