import ScriptFold.Proofs.Reading.Operation

/-!
# Reading what binds loosest

Conditionals, assignments, arrow functions and sequences.
-/

namespace ScriptFold

namespace Grammar

open Word

section Conditional

variable {test consequent alternate : Node}
variable {testSpelling consequentSpelling alternateSpelling : Spelling} {cost : Nat}

/-- A conditional is read by its own reader, up to a token that starts no conditional. -/
theorem conditional_gives (testReads : Reads test testSpelling cost)
    (consequentReads : Reads consequent consequentSpelling cost)
    (alternateReads : Reads alternate alternateSpelling cost) (testTight : 5 ≤ testSpelling.binds)
    (consequentTight : 3 ≤ consequentSpelling.binds)
    (alternateTight : 3 ≤ alternateSpelling.binds) (level : Nat) :
    Gives (level < cost + 4) (conditional (rulesAt level))
      (testSpelling.words ++ fixed .question false ::
        (consequentSpelling.words ++ fixed .colon false :: alternateSpelling.words))
      (.made .conditional [test, consequent, alternate]) 2 := by
  intro tokens rest spelled next
  obtain ⟨_, testSpelled, question, others, rfl, isQuestion, spelled⟩ :=
    Spelled.append_iff.mp spelled
  obtain ⟨_, consequentSpelled, colon, more, rfl, isColon, alternateSpelled⟩ :=
    Spelled.append_iff.mp spelled
  have questionType : question.type = .question := isQuestion.type
  have colonType : colon.type = .colon := isColon.type
  have questionNext : Next 4 (question :: others) :=
    ⟨question, others, rfl, by rw [questionType]; decide⟩
  have colonNext : Next 2 (colon :: more) := ⟨colon, more, rfl, by rw [colonType]; decide⟩
  have testValue := (testReads.binary testTight).gives testTight (by decide) level tokens _
    testSpelled questionNext
  have consequentValue := consequentReads.assignment (Nat.le_of_succ_le consequentTight) level others _
    consequentSpelled colonNext
  have alternateValue := alternateReads.assignment (Nat.le_of_succ_le alternateTight) level more rest alternateSpelled
    next
  obtain ⟨second, following, rfl⟩ := colonNext.cons consequentSpelled
  obtain ⟨third, last, rfl⟩ := next.cons alternateSpelled
  obtain ⟨start, tail, rfl⟩ := questionNext.cons testSpelled
  refine .step (.current start tail)
    (.bind (testValue.mono (fun less => by omega) fun _ _ is => is) ?_)
  rintro testNode _ ⟨rfl, rfl⟩
  refine .step (.accept questionType second following) (.bind consequentValue.allowingIn ?_)
  rintro consequentNode _ ⟨rfl, rfl⟩
  refine .step (.expect colonType third last) (.bind alternateValue ?_)
  rintro alternateNode _ ⟨rfl, rfl⟩
  exact .finishWith (by decide) fun whole isWhole => ⟨isWhole, rfl⟩

theorem Reads.conditional (testReads : Reads test testSpelling cost)
    (consequentReads : Reads consequent consequentSpelling cost)
    (alternateReads : Reads alternate alternateSpelling cost) (testTight : 5 ≤ testSpelling.binds)
    (consequentTight : 3 ≤ consequentSpelling.binds)
    (alternateTight : 3 ≤ alternateSpelling.binds) :
    Reads (.made .conditional [test, consequent, alternate])
      ⟨testSpelling.words ++ fixed .question false ::
        (consequentSpelling.words ++ fixed .colon false :: alternateSpelling.words), 4, true⟩
      (cost + 1) := by
  have balanced : Balanced (fixed .question false ::
      (consequentSpelling.words ++ fixed .colon false :: alternateSpelling.words)) :=
    .cons (by decide) (consequentReads.worded.balanced.append
      (.cons (by decide) alternateReads.worded.balanced))
  have continues : Continues (fixed .question false ::
      (consequentSpelling.words ++ fixed .colon false :: alternateSpelling.words)) :=
    .link (by decide)
  obtain ⟨first, more, isWords, starts, _⟩ := testReads.worded.starts
  refine .of_assignment (testReads.worded.extend testTight balanced continues (by omega))
    (by simp) (by simp) (by simp) ?_
  refine assignment_of_conditional (fun level => conditional_gives testReads consequentReads
    alternateReads testTight consequentTight alternateTight level)
    ((testReads.worded.opens testTight).append continues) ?_
  intro word isHead isYield
  simp only [isWords, List.cons_append, List.head?_cons, Option.some.injEq] at isHead
  subst isHead
  exact startsExpression_not starts (by simp [isYield])

end Conditional

section Assignment

variable {target value : Node} {targetSpelling valueSpelling : Spelling} {cost : Nat}

/-- What can be assigned to without being a pattern. -/
def isPlainTarget (node : Node) : Bool :=
  node.isOneOf [.ident, .member, .subscript]

/-- A target that is no pattern is taken as it is, also in parentheses. -/
theorem toTarget_of_plain {node : Node} (plain : isPlainTarget node.core) :
    toTarget false node = .ok node := by
  match node with
  | .absent | .leaf _ => rfl
  | .tree kind flags place children =>
      cases kind
      case object | array | assign => cases plain
      case ident => rfl
      all_goals rfl

theorem asTarget_steps {node : Node} (plain : isPlainTarget node.core) (tokens : List Token) :
    Steps (asTarget node) tokens node tokens := by
  rw [asTarget, toTarget_of_plain plain]
  exact .of_pure node

private theorem assignment_plain {type : TokenType} (assigns : type.isAssignment) :
    strength type = 3 ∧ type ∉ [.arrow, .ident, .openParen, .colon, .kwFunction] ∧
      type ∉ [.openParen, .closeParen, .endOfInput] := by
  revert assigns
  cases type <;> simp [TokenType.isAssignment, strength]

/-- An assignment to a name, a member or a subscript. -/
theorem Reads.assign (targetReads : Reads target targetSpelling cost)
    (valueReads : Reads value valueSpelling cost) (targetTight : 19 ≤ targetSpelling.binds)
    (valueTight : 3 ≤ valueSpelling.binds) (plain : isPlainTarget target) {type : TokenType}
    (assigns : type.isAssignment) :
    Reads (.made .assign [target, .word .assignOp (Text.ofString type.spelling), value])
      ⟨targetSpelling.words ++ fixed type false :: valueSpelling.words, 3, true⟩ (cost + 1) := by
  obtain ⟨isStrength, links, unparenthesised⟩ := assignment_plain assigns
  have tight : 5 ≤ targetSpelling.binds := Nat.le_trans (by decide) targetTight
  have balanced : Balanced (fixed type false :: valueSpelling.words) :=
    .cons unparenthesised valueReads.worded.balanced
  have opens := (targetReads.worded.opens tight).append
    (.link links : Continues (fixed type false :: valueSpelling.words))
  obtain ⟨first, more, isWords, starts, _⟩ := targetReads.worded.starts
  refine .of_assignment (targetReads.worded.extend tight balanced (.link links) (by omega))
    (by simp) (by simp) (by simp) ?_
  rintro (_ | level) tokens rest spelled next
  · exact .refused (Nat.succ_pos _)
  have notArrow := opens.not_arrow spelled (next.noArrow (by decide))
  obtain ⟨_, targetSpelled, op, others, rfl, isOp, valueSpelled⟩ := Spelled.append_iff.mp spelled
  have opType : op.type = type := isOp.type
  have opText : op.text = Text.ofString type.spelling := isOp.text
  have opNext : Next 3 (op :: others) :=
    ⟨op, others, rfl, Nat.le_of_eq (by rw [opType, isStrength])⟩
  have targetValue := (targetReads.binary tight).conditional tight level tokens _ targetSpelled
    opNext
  have assigned := valueReads.assignment (Nat.le_of_succ_le valueTight) level others rest valueSpelled next
  obtain ⟨second, following, rfl⟩ := next.cons valueSpelled
  rw [isWords] at targetSpelled
  obtain ⟨start, tail, rfl, isFirst, _⟩ := targetSpelled
  have notYield : start.type ≠ .kwYield := by
    intro isYield
    rw [isFirst.type] at isYield
    exact startsExpression_not starts (by simp [isYield])
  refine .step (.current start tail) ?_
  rw [if_neg notYield]
  refine .step notArrow (.bind (targetValue.mono (fun less => by omega) fun _ _ is => is) ?_)
  rintro targetNode _ ⟨rfl, rfl⟩
  refine .step (.current op _) ?_
  rw [opType, assigns]
  have finished : Runs (level + 1 < cost + 1 + 4) (do
      let value ← (rulesAt level).assignment
      finish .assign [targetNode, leafOf .assignOp op, value] start) (second :: following)
      fun node after => node.core = .made .assign [targetNode.core,
        .word .assignOp (Text.ofString type.spelling), value] ∧ after = rest := by
    refine .bind (assigned.mono Nat.succ_lt_succ fun _ _ is => is) ?_
    rintro valueNode _ ⟨rfl, rfl⟩
    refine .finishWith (by decide) fun whole isWhole => ⟨isWhole.trans ?_, rfl⟩
    rw [← opText]
    rfl
  refine .step (.advance op second following) ?_
  dsimp only
  split
  · exact .step (asTarget_steps plain _) finished
  · exact .step (.of_pure targetNode) finished

end Assignment

section Arrow

variable {body : Node} {spelling : Spelling} {cost : Nat}

def namedParameter (name : Text) : Node :=
  .made .binding [.word .name name]

/-- Parameters with names, in parentheses. -/
def parameterWords (names : List Text) : List Word :=
  fixed .openParen false ::
    (joinItems (names.map fun name => [⟨.ident, name, false⟩]) ++ [fixed .closeParen false])

theorem readsItem_parameter (name : Text) (level : Nat) :
    ReadsItem (level < 1) (parameter (rulesAt level)) .closeParen (namedParameter name)
      [⟨.ident, name, false⟩] := by
  refine ⟨⟨_, _, rfl, by nofun, by nofun⟩, ?_⟩
  rintro tokens rest ⟨token, _, rfl, isName, rfl⟩ ⟨after, following, rfl, weak⟩
  have tokenType : token.type = .ident := isName.type
  obtain rfl : token.text = name := isName.text
  have notAssign : after.type ≠ .assign := by
    intro isAssign
    rw [isAssign] at weak
    exact absurd weak (by decide)
  have targeted : Runs (level < 1) (rulesAt level).target (token :: after :: following)
      fun node rest => node.core = namedParameter token.text ∧ rest = after :: following := by
    cases level with
    | zero => exact .refused Nat.zero_lt_one
    | succ level =>
        refine .step (.current token _) ?_
        rw [tokenType]
        exact .step (.advance token after following)
          (.finishWith (by decide) fun node isNode => ⟨isNode, rfl⟩)
  refine .step (.current token _) (.step (.not_accept (by rw [tokenType]; nofun) _) ?_)
  refine .bind targeted ?_
  rintro node _ ⟨isNode, rfl⟩
  exact .step (.not_accept notAssign following) (.of_pure ⟨isNode, rfl⟩)

theorem parameters_gives (names : List Text) (level : Nat) {tokens rest : List Token}
    (spelled : Spelled (parameterWords names) tokens rest) {token : Token} {others : List Token}
    (isRest : rest = token :: others) :
    Runs (level < 1) (parameters (rulesAt level)) tokens fun value after =>
      value.core = .made .params (names.map namedParameter) ∧ after = rest := by
  subst isRest
  obtain ⟨opener, inner, rfl, isOpener, spelled⟩ := spelled
  obtain ⟨_, itemsSpelled, closer, _, rfl, isCloser, rfl⟩ := Spelled.append_iff.mp spelled
  have openType : opener.type = .openParen := isOpener.type
  have closeType : closer.type = .closeParen := isCloser.type
  have closes : Next 0 (closer :: token :: others) := ⟨_, _, rfl, by rw [closeType]; decide⟩
  let items : List (Node × List Word) :=
    names.map fun name => (namedParameter name, [⟨.ident, name, false⟩])
  have reads : ∀ entry, entry ∈ items →
      ReadsItem (level < 1) (parameter (rulesAt level)) .closeParen entry.1 entry.2 := by
    intro entry there
    obtain ⟨name, _, rfl⟩ := List.mem_map.mp there
    exact readsItem_parameter name level
  have areWords : items.map Prod.snd = names.map fun name => [⟨.ident, name, false⟩] :=
    List.map_map
  have areNodes : items.map Prod.fst = names.map namedParameter := List.map_map
  have list := commaList_runs reads (areWords ▸ itemsSpelled) closeType closes.ends
  obtain ⟨second, more, rfl⟩ := closes.cons itemsSpelled
  refine .step (.expect openType second more) (.bind list.allowingIn ?_)
  rintro values _ ⟨are, rfl⟩
  refine .step (.expect closeType token others)
    (.finishWith (by decide) fun whole isWhole => ⟨isWhole.trans ?_, rfl⟩)
  rw [are, areNodes]
  rfl

/-- An arrow function whose body is an expression. -/
theorem Reads.arrow (reads : Reads body spelling cost) (tight : 3 ≤ spelling.binds)
    (notBlock : ∀ word, spelling.words.head? = some word → word.type ≠ .openBrace)
    (names : List Text) :
    Reads (.made .arrow [.made .params (names.map namedParameter), body])
      ⟨parameterWords names ++ fixed .arrow true :: spelling.words, 3, true⟩ (cost + 1) := by
  have balanced : Balanced (joinItems (names.map fun name => [⟨.ident, name, false⟩])) := by
    refine .joinItems fun words there => ?_
    obtain ⟨name, _, rfl⟩ := List.mem_map.mp there
    exact .cons (by simp) .nil
  have isWords : parameterWords names ++ fixed .arrow true :: spelling.words =
      fixed .openParen false :: (joinItems (names.map fun name => [⟨.ident, name, false⟩]) ++
        fixed .closeParen false :: fixed .arrow true :: spelling.words) := by
    simp [parameterWords]
  have worded : WellWorded
      ⟨parameterWords names ++ fixed .arrow true :: spelling.words, 3, true⟩ := by
    refine ⟨⟨_, _, isWords, rfl, by simp⟩, ?_, by simp, ?_⟩
    · rw [isWords]
      exact balanced.enclosed (.cons (by decide) reads.worded.balanced)
    · rw [isWords]
      intro first second others isFirst isName
      obtain ⟨rfl, _⟩ := List.cons.inj isFirst
      cases isName
  refine .of_assignment worded (by simp) (by simp) (by simp) ?_
  rintro (_ | level) tokens rest spelled next
  · exact .refused (Nat.succ_pos _)
  have isArrow : Steps isArrowStart tokens true tokens := by
    rw [isWords] at spelled
    exact isArrowStart_parameters balanced spelled
  obtain ⟨_, paramsSpelled, arrow, others, rfl, isArrowWord, bodySpelled⟩ :=
    Spelled.append_iff.mp spelled
  have arrowType : arrow.type = .arrow := isArrowWord.type
  have params := parameters_gives names level paramsSpelled rfl
  have value := reads.assignment (Nat.le_of_succ_le tight) level others rest bodySpelled next
  obtain ⟨first, more, isBody, _⟩ := reads.worded.starts
  rw [isBody] at bodySpelled
  obtain ⟨second, following, rfl, isSecond, _⟩ := bodySpelled
  have notBrace : second.type ≠ .openBrace := by
    rw [isSecond.type]
    exact notBlock first (by rw [isBody]; rfl)
  obtain ⟨opener, _, rfl, isOpener, tailSpelled⟩ := paramsSpelled
  have openType : opener.type = .openParen := isOpener.type
  have notAsync : opener.isNamed "async" = false := by simp [Token.isNamed, openType]
  have arrowNext : Next (strength arrow.type) (arrow :: second :: following) :=
    ⟨arrow, _, rfl, Nat.le_refl _⟩
  obtain ⟨inner, tail, rfl⟩ := arrowNext.cons tailSpelled
  have headed : Runs (level + 1 < cost + 1 + 4) (arrowParameters (rulesAt level))
      (opener :: inner :: tail) fun value after =>
        value.core = .made .params (names.map namedParameter) ∧
          after = arrow :: second :: following := by
    refine .step (.check _ opener _) ?_
    rw [not_contains_of_ne (by rw [openType]; decide)]
    exact params.mono (fun less => by omega) fun _ _ is => is
  refine .step (.current opener _) ?_
  rw [if_neg (by rw [openType]; decide)]
  refine .step isArrow ?_
  refine .step (.current opener _) (.step (.peek opener inner tail)
    (.step (.checkName "async" opener _) ?_))
  rw [notAsync]
  refine .bind headed ?_
  rintro paramsNode _ ⟨isParams, rfl⟩
  refine .step (.expect arrowType second following) (.step (.check _ second following) ?_)
  rw [not_contains_of_ne notBrace]
  refine .bind (value.mono Nat.succ_lt_succ fun _ _ is => is) ?_
  rintro bodyNode _ ⟨rfl, rfl⟩
  refine .finishWith (by decide) fun whole isWhole => ⟨isWhole.trans ?_, rfl⟩
  rw [← isParams]
  rfl

end Arrow

/-- A sequence of at least two expressions. -/
theorem reads_sequence {items : List (Node × List Word)} {cost : Nat}
    (reads : ∀ entry, entry ∈ items → ∃ spelling : Spelling, entry.2 = spelling.words ∧
      Reads entry.1 spelling cost ∧ 2 ≤ spelling.binds) (several : 2 ≤ items.length) :
    Reads (.made .sequence (items.map Prod.fst)) ⟨joinItems (items.map Prod.snd), 1, true⟩
      cost := by
  match items, several with
  | first :: second :: others, _ =>
  obtain ⟨spelling, isFirst, firstReads, _⟩ := reads first List.mem_cons_self
  obtain ⟨word, more, isWords, starts, _⟩ := firstReads.worded.starts
  have isList : joinItems ((first :: second :: others).map Prod.snd) =
      spelling.words ++ fixed .comma false :: joinItems ((second :: others).map Prod.snd) := by
    rw [← isFirst]
    rfl
  have worded : WellWorded ⟨joinItems ((first :: second :: others).map Prod.snd), 1, true⟩ := by
    refine ⟨⟨word, more ++ fixed .comma false :: joinItems ((second :: others).map Prod.snd), ?_,
      starts, by simp⟩, .joinItems fun words there => ?_, by simp, ?_⟩
    · rw [isList, isWords]
      rfl
    · obtain ⟨entry, isEntry, rfl⟩ := List.mem_map.mp there
      obtain ⟨spelling, isSpelling, entryReads, _⟩ := reads entry isEntry
      rw [isSpelling]
      exact entryReads.worded.balanced
    · rw [isList]
      exact firstReads.worded.unlabeled.append (by rw [isWords]; exact List.cons_ne_nil _ _) rfl
        ⟨nofun, nofun⟩
  refine ⟨worded, by simp, by simp, by simp, by simp, ?_⟩
  rintro (_ | level) tokens rest spelled next
  · exact .refused (Nat.succ_pos _)
  have item : ∀ entry, entry ∈ first :: second :: others →
      ReadsItem (level < cost + 4) (rulesAt level).assignment .comma entry.1 entry.2 := by
    intro entry there
    obtain ⟨spelling, isSpelling, entryReads, tight⟩ := reads entry there
    obtain ⟨head, tail, isWords, starts, _⟩ := entryReads.worded.starts
    have notComma : head.type ≠ .comma := fun isComma =>
      startsExpression_not starts (by simp [isComma])
    rw [isSpelling]
    exact ⟨⟨head, tail, isWords, notComma, notComma⟩, entryReads.assignment tight level⟩
  have list := commaItems_runs (List.cons_ne_nil _ _) item spelled next.ends
  obtain ⟨start, following, rfl⟩ := next.cons spelled
  refine .step (.current start following) (.bind (list.mono Nat.succ_lt_succ fun _ _ is => is) ?_)
  rintro values _ ⟨areNodes, rfl⟩
  match values, areNodes with
  | [_], areNodes => cases (List.cons.inj areNodes).2
  | _ :: _ :: _, areNodes =>
      refine .finishWith (by decide) fun whole isWhole => ⟨isWhole.trans ?_, rfl⟩
      rw [areNodes]
      rfl

end Grammar

end ScriptFold
