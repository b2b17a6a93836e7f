import ScriptFold.Proofs.Reading.Ladder

/-!
# Spelled expressions

A spelling of an expression is its words, with how tight they bind.  `Reads node spelling cost`
says which readers read the words as the node; a reader refuses them only if its levels are
fewer than the cost.
-/

namespace ScriptFold

open Word

/-- How an expression is spelled: its words, how tight they bind, and whether a `new` before
them leaves them together. -/
structure Spelling where
  words : List Word
  binds : Nat
  free : Bool

namespace Spelling

/-- An expression in parentheses. -/
def enclosed (spelling : Spelling) : Spelling :=
  ⟨fixed .openParen false :: (spelling.words ++ [fixed .closeParen false]), 20, true⟩

/-- An expression with or without parentheses. -/
def placed (parens : Bool) (spelling : Spelling) : Spelling :=
  if parens then spelling.enclosed else spelling

end Spelling

namespace Grammar

structure WellWorded (spelling : Spelling) : Prop where
  starts : ∃ first more, spelling.words = first :: more ∧ startsExpression first.type ∧
    (19 ≤ spelling.binds → startsChain first.type)
  balanced : Balanced spelling.words
  opens : 5 ≤ spelling.binds → Opens spelling.words
  unlabeled : Unlabeled spelling.words

/-- The readers that read the words of a spelling as a node. -/
structure Reads (node : Node) (spelling : Spelling) (cost : Nat) : Prop where
  worded : WellWorded spelling
  chain : 19 ≤ spelling.binds → ReadsChain node spelling.words spelling.free 19 cost
  unary : 17 ≤ spelling.binds → ReadsUnary node spelling.words cost
  binary : 5 ≤ spelling.binds → ReadsBinary node spelling.words spelling.binds cost
  assignment : 2 ≤ spelling.binds → ReadsAssignment node spelling.words cost
  expression : ReadsExpression node spelling.words cost

theorem startsExpression_not {type : TokenType} (starts : startsExpression type) :
    type ∉ [.kwYield, .comma, .colon, .arrow, .ellipsis, .dot, .closeParen, .closeBracket,
      .closeBrace, .endOfInput] := by
  revert starts
  cases type <;> simp [startsExpression, startsChain, isUnary]

namespace Reads

variable {node : Node} {spelling : Spelling} {cost : Nat}

/-- Words that are read as an assignment expression, and maybe further down. -/
theorem of_assignment (worded : WellWorded spelling)
    (chain : 19 ≤ spelling.binds → ReadsChain node spelling.words spelling.free 19 cost)
    (unary : 17 ≤ spelling.binds → ReadsUnary node spelling.words cost)
    (binary : 5 ≤ spelling.binds → ReadsBinary node spelling.words spelling.binds cost)
    (reads : ReadsAssignment node spelling.words cost) : Reads node spelling cost := by
  exact ⟨worded, chain, unary, binary, fun _ => reads, reads.expression⟩

/-- Words that are read as a left operand, and maybe further down. -/
theorem of_binary (worded : WellWorded spelling)
    (chain : 19 ≤ spelling.binds → ReadsChain node spelling.words spelling.free 19 cost)
    (unary : 17 ≤ spelling.binds → ReadsUnary node spelling.words cost)
    (tight : 5 ≤ spelling.binds)
    (reads : ReadsBinary node spelling.words spelling.binds cost) : Reads node spelling cost := by
  obtain ⟨first, more, isWords, starts, _⟩ := worded.starts
  have notYield : ∀ word, spelling.words.head? = some word → word.type ≠ .kwYield := by
    intro word isHead isYield
    rw [isWords] at isHead
    cases isHead
    exact startsExpression_not starts (by simp [isYield])
  exact of_assignment worded chain unary (fun _ => reads)
    (reads.assignment tight (worded.opens tight) notYield)

/-- Words that are read as an operand but not as a chain. -/
theorem of_unary (worded : WellWorded spelling) (tight : 17 ≤ spelling.binds)
    (loose : spelling.binds < 19)
    (reads : ReadsUnary node spelling.words cost) : Reads node spelling cost :=
  of_binary worded (fun tighter => absurd loose (Nat.not_lt.mpr tighter)) (fun _ => reads)
    (Nat.le_trans (by decide) tight) reads.binary

/-- Words that are read as a chain. -/
theorem of_chain (worded : WellWorded spelling) (tight : 19 ≤ spelling.binds)
    (reads : ReadsChain node spelling.words spelling.free 19 cost) : Reads node spelling cost := by
  obtain ⟨first, more, isWords, _, starts⟩ := worded.starts
  have operand := reads.unary (by decide) isWords (starts tight)
  exact of_binary worded (fun _ => reads) (fun _ => operand) (Nat.le_trans (by decide) tight)
    operand.binary

theorem mono (reads : Reads node spelling cost) {other : Nat} (atMost : cost ≤ other) :
    Reads node spelling other where
  worded := reads.worded
  chain tight level calls start tokens rest deep gives isFree deeper :=
    reads.chain tight level calls start tokens rest deep gives isFree
      fun less => deeper (Nat.lt_of_lt_of_le less atMost)
  unary tight level tokens rest spelled next :=
    (reads.unary tight level tokens rest spelled next).mono (fun less => by omega) fun _ _ is => is
  binary tight level least start tokens rest deep gives below deeper :=
    reads.binary tight level least start tokens rest deep gives below
      fun less => deeper (by omega)
  assignment tight level tokens rest spelled next :=
    (reads.assignment tight level tokens rest spelled next).mono (fun less => by omega)
      fun _ _ is => is
  expression level tokens rest spelled next :=
    (reads.expression level tokens rest spelled next).mono (fun less => by omega) fun _ _ is => is

end Reads

/-- Words that go on after a first operand. -/
theorem WellWorded.extend {spelling : Spelling} (worded : WellWorded spelling)
    (tight : 5 ≤ spelling.binds) {more : List Word} (balanced : Balanced more)
    (continues : Continues more) {binds : Nat} (looser : binds ≤ spelling.binds) {free : Bool} :
    WellWorded ⟨spelling.words ++ more, binds, free⟩ := by
  obtain ⟨first, others, isWords, starts, startsChain⟩ := worded.starts
  have opens := (worded.opens tight).append continues
  refine ⟨⟨first, others ++ more, ?_, starts, ?_⟩, worded.balanced.append balanced, fun _ => opens,
    opens.unlabeled⟩
  · simp only [isWords, List.cons_append]
  · intro chained
    exact startsChain (Nat.le_trans chained looser)

/-- Words are read as a primary expression. -/
def FormsPrimary (form : Node → Prop) (words : List Word) (cost : Nat) : Prop :=
  ∀ level, GivesForm (level < cost) (primary (rulesAt level)) words form 19

/-- Words are read as a primary expression that says what a node says. -/
abbrev ReadsPrimary (node : Node) (words : List Word) (cost : Nat) : Prop :=
  FormsPrimary (fun value => value.core = node) words cost

theorem FormsPrimary.chain {form : Node → Prop} {words : List Word} {cost : Nat}
    (reads : FormsPrimary form words cost) {first : Word} {more : List Word}
    (isWords : words = first :: more) (notNew : first.type ≠ .kwNew) (free : Bool) :
    FormsChain form words free 19 cost := by
  intro level calls start tokens rest deep gives _ deeper spelled next goes
  have head := reads level tokens rest spelled next
  subst isWords
  obtain ⟨token, others, rfl, isFirst, _⟩ := spelled
  rw [← isFirst.type] at notNew
  have reached : Runs deep (chainHead (rulesAt level)) (token :: others)
      fun value after => form value ∧ after = rest := by
    refine .step (.check _ token others) ?_
    rw [not_contains_of_ne notNew]
    exact head.mono deeper fun _ _ is => is
  refine .bind reached ?_
  rintro object _ ⟨isForm, rfl⟩
  exact .withBudget fun budget within => goes budget object isForm within

/-- An expression of some form in parentheses, as it is read. -/
def IsEnclosedRead (form : Node → Prop) (node : Node) : Prop :=
  ∃ source span inner, form inner ∧ node = .read .paren {} source span [inner]

/-- Words in parentheses are read as a primary expression. -/
theorem FormsExpression.enclosed {form : Node → Prop} {words : List Word} {cost : Nat}
    (reads : FormsExpression form words cost) :
    FormsPrimary (IsEnclosedRead form)
      (fixed .openParen false :: (words ++ [fixed .closeParen false])) (cost + 5) := by
  intro level tokens rest spelled next
  obtain ⟨opener, others, rfl, isOpener, spelled⟩ := spelled
  obtain ⟨middle, wordsSpelled, closer, last, rfl, isCloser, rfl⟩ := Spelled.append_iff.mp spelled
  have openType : opener.type = .openParen := isOpener.type
  have closeType : closer.type = .closeParen := isCloser.type
  have closes : Next 0 (closer :: last) := ⟨closer, last, rfl, by rw [closeType]; decide⟩
  have inner := reads level others _ wordsSpelled closes
  obtain ⟨second, more, rfl⟩ := closes.cons wordsSpelled
  obtain ⟨after, following, rfl, _⟩ := next
  refine .step (.current opener _) ?_
  rw [openType]
  refine .step (.advance opener second more) (.bind inner.allowingIn ?_)
  rintro value _ ⟨isForm, rfl⟩
  refine .step (.expect closeType after following) (.finishRead fun source span => ?_)
  exact ⟨⟨source, span, value, isForm, rfl⟩, rfl⟩

theorem ReadsExpression.enclosed {node : Node} {words : List Word} {cost : Nat}
    (reads : ReadsExpression node words cost) (isExpression : node.isExpression) :
    ReadsPrimary node (fixed .openParen false :: (words ++ [fixed .closeParen false]))
      (cost + 5) := by
  intro level
  apply (FormsExpression.enclosed reads level).mono
  rintro _ ⟨source, span, inner, rfl, rfl⟩
  exact Node.core_read_paren isExpression source span

theorem WellWorded.enclosed {spelling : Spelling} (worded : WellWorded spelling) :
    WellWorded spelling.enclosed where
  starts := ⟨_, _, rfl, rfl, fun _ => rfl⟩
  balanced := worded.balanced.enclosed .nil
  opens _ := .group worded.balanced .nil
  unlabeled := (Opens.group worded.balanced .nil).unlabeled

theorem Reads.enclosed {node : Node} {spelling : Spelling} {cost : Nat}
    (reads : Reads node spelling cost) (isExpression : node.isExpression) :
    Reads node spelling.enclosed (cost + 5) :=
  .of_chain reads.worded.enclosed (Nat.le_succ 19)
    ((reads.expression.enclosed isExpression).chain rfl nofun true)

theorem Reads.placed {node : Node} {spelling : Spelling} {cost : Nat}
    (reads : Reads node spelling cost) (isExpression : node.isExpression) (parens : Bool) :
    Reads node (spelling.placed parens) (cost + 5) := by
  cases parens with
  | true => exact reads.enclosed isExpression
  | false => exact reads.mono (Nat.le_add_right cost 5)

end Grammar

end ScriptFold
