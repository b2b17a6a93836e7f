import ScriptFold.Proofs.Reading.Primary

/-!
# What is not read

A reader that fails makes every reader fail that begins with it, and a list of which one item is
not read to its end is not read to its end either.  Brackets inside brackets take four levels each,
so a text that opens more of them than there are levels for is refused as nested too deep.
-/

namespace ScriptFold

namespace Grammar

open Word

/-- A reader refuses tokens as nested too deep. -/
def Refuses {α : Type} (reader : Reader α) (tokens : List Token) : Prop :=
  ∀ state, Ready state tokens → reader.run state = .error .nestingTooDeep

namespace Refuses

variable {α β : Type} {tokens : List Token}

theorem bind {first : Reader β} (refuses : Refuses first tokens) (next : β → Reader α) :
    Refuses (first >>= next) tokens := by
  intro state ready
  rw [StateT.run_bind, refuses state ready]
  rfl

theorem step {first : Reader β} {next : β → Reader α} {value : β} {middle : List Token}
    (begins : Steps first tokens value middle) (refuses : Refuses (next value) middle) :
    Refuses (first >>= next) tokens := by
  intro state ready
  obtain ⟨between, ran, ready⟩ := begins state ready
  rw [StateT.run_bind, ran]
  exact refuses between ready

theorem allowingIn {reader : Reader α} (refuses : Refuses reader tokens) :
    Refuses (Grammar.allowingIn true reader) tokens := by
  intro state ready
  have opened : Ready { state with noIn := !true } tokens := ⟨ready.left, rfl, ready.within⟩
  have ranAs : (Grammar.allowingIn true reader).run state =
      (reader.run { state with noIn := !true } >>= fun result =>
        Except.ok (result.1, { result.2 with noIn := state.noIn })) := rfl
  rw [ranAs, refuses _ opened]
  rfl

/-- A repetition that refuses whatever its bound is. -/
theorem withBudget {next : Nat → Reader α} (refuses : ∀ budget, Refuses (next budget) tokens) :
    Refuses (do next (← get).budget) tokens :=
  fun state ready => refuses state.budget state ready

end Refuses

/-- A reader fails at some tokens, or gives a value and leaves tokens as `gives` says. -/
def Leaves {α : Type} (reader : Reader α) (tokens : List Token)
    (gives : α → List Token → Prop) : Prop :=
  ∀ state, Ready state tokens → (∃ failure, reader.run state = .error failure) ∨
    ∃ value after rest, reader.run state = .ok (value, after) ∧ Ready after rest ∧ gives value rest

/-- A reader fails at some tokens. -/
abbrev Fails {α : Type} (reader : Reader α) (tokens : List Token) : Prop :=
  Leaves reader tokens fun _ _ => False

namespace Leaves

variable {α β : Type} {tokens : List Token} {gives : α → List Token → Prop}

theorem of_throw {failure : ParseFailure} : Leaves (throw failure : Reader α) tokens gives :=
  fun _ _ => .inl ⟨failure, rfl⟩

theorem of_pure {value : α} (is : gives value tokens) : Leaves (pure value) tokens gives :=
  fun state ready => .inr ⟨value, state, tokens, rfl, ready, is⟩

theorem of_runs {deep : Prop} {reader : Reader α} (runs : Runs deep reader tokens gives) :
    Leaves reader tokens gives := by
  intro state ready
  rcases runs state ready with gave | ⟨_, refused⟩
  · exact .inr gave
  · exact .inl ⟨_, refused⟩

theorem bind {first : Reader β} {next : β → Reader α} {middle : β → List Token → Prop}
    (begins : Leaves first tokens middle)
    (goes : ∀ value rest, middle value rest → Leaves (next value) rest gives) :
    Leaves (first >>= next) tokens gives := by
  intro state ready
  rw [StateT.run_bind]
  rcases begins state ready with ⟨failure, failed⟩ | ⟨value, between, rest, ran, ready, is⟩
  · rw [failed]
    exact .inl ⟨failure, rfl⟩
  · rw [ran]
    exact goes value rest is between ready

theorem step {first : Reader β} {next : β → Reader α} {value : β} {middle : List Token}
    (begins : Steps first tokens value middle) (goes : Leaves (next value) middle gives) :
    Leaves (first >>= next) tokens gives := by
  intro state ready
  obtain ⟨between, ran, ready⟩ := begins state ready
  rw [StateT.run_bind, ran]
  exact goes between ready

theorem allowingIn {reader : Reader α} (leaves : Leaves reader tokens gives) :
    Leaves (Grammar.allowingIn true reader) tokens gives := by
  intro state ready
  have opened : Ready { state with noIn := !true } tokens := ⟨ready.left, rfl, ready.within⟩
  have ranAs : (Grammar.allowingIn true reader).run state =
      (reader.run { state with noIn := !true } >>= fun result =>
        Except.ok (result.1, { result.2 with noIn := state.noIn })) := rfl
  rw [ranAs]
  rcases leaves _ opened with ⟨failure, failed⟩ | ⟨value, after, rest, ran, later, is⟩
  · rw [failed]
    exact .inl ⟨failure, rfl⟩
  · refine .inr ⟨value, { after with noIn := state.noIn }, rest, ?_, ?_, is⟩
    · rw [ran]
      rfl
    · exact ⟨later.left, ready.allows, later.within⟩

/-- A repetition, whatever its bound is. -/
theorem withBudget {next : Nat → Reader α} (goes : ∀ budget, Leaves (next budget) tokens gives) :
    Leaves (do next (← get).budget) tokens gives :=
  fun state ready => goes state.budget state ready

end Leaves

namespace Fails

variable {α β : Type} {tokens : List Token} {gives : α → List Token → Prop}

theorem leaves {reader : Reader α} (fails : Fails reader tokens) : Leaves reader tokens gives := by
  intro state ready
  rcases fails state ready with failed | ⟨_, _, _, _, _, never⟩
  · exact .inl failed
  · cases never

theorem bind {first : Reader β} (fails : Fails first tokens) (next : β → Reader α) :
    Leaves (first >>= next) tokens gives :=
  Leaves.bind fails fun _ _ => False.elim

theorem expect {type : TokenType} {token : Token} (notType : token.type ≠ type)
    (rest : List Token) : Fails (Grammar.expect type) (token :: rest) := by
  refine .step (.current token rest) ?_
  rw [if_neg notType]
  exact .of_throw

end Fails

/-- The tokens that are left begin with `=`. -/
def AtAssign {α : Type} (_ : α) (tokens : List Token) : Prop :=
  ∃ token rest, tokens = token :: rest ∧ token.type = .assign

/-- Words cannot be read as an item of a list, or not up to its end. -/
structure MissesItem (item : Reader Node) (closer : TokenType) (words : List Word) : Prop where
  starts : ∃ first more, words = first :: more ∧ first.type ≠ closer ∧ first.type ≠ .comma
  leaves : ∀ tokens next rest, Spelled words tokens (next :: rest) → Leaves item tokens AtAssign

section Missing

variable {item : Reader Node} {closer : TokenType} {before : TokenType → Prop} {deep holes : Prop}

theorem itemThen_misses {tokens : List Token} (misses : Leaves item tokens AtAssign)
    (more : Reader (List Node)) : Leaves (itemThen item more) tokens AtAssign := by
  refine .bind misses ?_
  rintro value _ ⟨token, rest, rfl, isAssign⟩
  have notComma : token.type ≠ .comma := by
    rw [isAssign]
    nofun
  exact .step (.not_accept notComma rest) (.of_pure ⟨token, rest, rfl, isAssign⟩)

theorem itemThen_passes {form : Node → Prop} {words others : List Word}
    (reads : FormsItem deep item closer before form words) (comma : before .comma)
    {tokens : List Token} {next : Token} {rest : List Token}
    (spelled : Spelled (words ++ fixed .comma false :: others) tokens (next :: rest))
    {more : Reader (List Node)} (misses : ∀ middle, Spelled others middle (next :: rest) →
      Leaves more middle AtAssign) : Leaves (itemThen item more) tokens AtAssign := by
  obtain ⟨_, wordsSpelled, separator, left, rfl, isComma, othersSpelled⟩ :=
    Spelled.append_iff.mp spelled
  have commaType : separator.type = .comma := isComma.type
  have weak : strength separator.type ≤ 2 := by
    rw [commaType]
    decide
  have missed := misses left othersSpelled
  obtain ⟨token, following, rfl⟩ := Next.cons ⟨next, rest, rfl, Nat.le_refl _⟩ othersSpelled
  refine .bind (.of_runs (reads.gives _ _ _ wordsSpelled weak (commaType ▸ comma))) ?_
  rintro value _ ⟨_, rfl⟩
  refine .step (.accept commaType token following) (.bind missed ?_)
  rintro values _ atAssign
  exact .of_pure atAssign

/-- The words of the first item stand in front. -/
theorem spelled_first {words : List Word} (notEmpty : words ≠ []) {others : List (List Word)}
    {trailing : Bool} {tokens : List Token} {next : Token} {rest : List Token}
    (spelled : Spelled (joinItems (words :: others) trailing) tokens (next :: rest)) :
    ∃ token following, Spelled words tokens (token :: following) := by
  by_cases goesOn : others ≠ [] ∨ trailing = true
  · rw [joinItems_cons goesOn] at spelled
    obtain ⟨_, wordsSpelled, comma, following, rfl, _⟩ := Spelled.append_iff.mp spelled
    exact ⟨comma, following, wordsSpelled⟩
  · obtain ⟨rfl, rfl⟩ : others = [] ∧ trailing = false := by simpa using goesOn
    rw [joinItems_single notEmpty] at spelled
    exact ⟨next, rest, spelled⟩

/-- A list with an item that is missed is not read to its end. -/
theorem loop_misses {loop : Nat → Reader (List Node)}
    (zero : ∀ tokens, Fails (loop 0) tokens)
    (opens : ∀ budget token others, token.type ≠ closer → token.type ≠ .comma →
      Leaves (itemThen item (loop budget)) (token :: others) AtAssign →
      Leaves (loop (budget + 1)) (token :: others) AtAssign)
    (skips : holes → ∀ budget token next others, token.type = .comma →
      Leaves (loop budget) (next :: others) AtAssign →
      Leaves (loop (budget + 1)) (token :: next :: others) AtAssign)
    {items : List (List Word)} {trailing : Bool} (comma : before .comma)
    (each : ∀ words, words ∈ items → (holes ∧ words = []) ∨
      (∃ form, FormsItem deep item closer before form words) ∨ MissesItem item closer words)
    (missed : ∃ words, words ∈ items ∧ MissesItem item closer words)
    (budget : Nat) {tokens : List Token} {next : Token} {rest : List Token}
    (spelled : Spelled (joinItems items trailing) tokens (next :: rest)) :
    Leaves (loop budget) tokens AtAssign := by
  induction items generalizing budget tokens with
  | nil =>
      obtain ⟨_, there, _⟩ := missed
      cases there
  | cons words items induction =>
      rcases budget with _ | budget
      · exact (zero tokens).leaves
      by_cases isMissed : MissesItem item closer words
      · obtain ⟨first, more, isWords, _⟩ := isMissed.starts
        have notEmpty : words ≠ [] := by
          rw [isWords]
          exact List.cons_ne_nil _ _
        obtain ⟨_, _, firstSpelled⟩ := spelled_first notEmpty spelled
        have misses := isMissed.leaves _ _ _ firstSpelled
        obtain ⟨token, others, rfl, notCloser, notComma⟩ :=
          joinItems_begins isMissed.starts spelled
        exact opens budget token others notCloser notComma (itemThen_misses misses _)
      -- The item that is missed comes later, so there is a comma in between.
      have later : ∃ words, words ∈ items ∧ MissesItem item closer words := by
        obtain ⟨other, there, isOther⟩ := missed
        rcases List.mem_cons.mp there with rfl | there
        · exact absurd isOther isMissed
        · exact ⟨other, there, isOther⟩
      have goes := induction (fun other there => each other (.tail _ there)) later
      rcases each words List.mem_cons_self with ⟨areHoles, rfl⟩ | ⟨form, reads⟩ | isMissed'
      · rw [joinItems_hole] at spelled
        obtain ⟨separator, others, rfl, isComma, spelled⟩ := spelled
        have missed := goes budget spelled
        obtain ⟨token, following, rfl⟩ := Next.cons ⟨next, rest, rfl, Nat.le_refl _⟩ spelled
        exact skips areHoles budget separator token following isComma.type missed
      · obtain ⟨token, others, rfl, notCloser, notComma⟩ := joinItems_begins reads.starts spelled
        have notLast : items ≠ [] := by
          rintro rfl
          obtain ⟨_, there, _⟩ := later
          cases there
        rw [joinItems_cons (.inl notLast)] at spelled
        exact opens budget token others notCloser notComma
          (itemThen_passes reads comma spelled fun middle spelled => goes budget spelled)
      · exact absurd isMissed' isMissed

theorem holedList_misses (notComma : closer ≠ .comma) {items : List (List Word)}
    {trailing : Bool} (comma : before .comma)
    (each : ∀ words, words ∈ items → words = [] ∨
      (∃ form, FormsItem deep item closer before form words) ∨ MissesItem item closer words)
    (missed : ∃ words, words ∈ items ∧ MissesItem item closer words)
    {tokens : List Token} {next : Token} {rest : List Token}
    (spelled : Spelled (joinItems items trailing) tokens (next :: rest)) :
    Leaves (holedList closer item) tokens AtAssign := by
  refine .withBudget fun budget => loop_misses (fun _ => .of_throw) ?_ ?_ comma
    (fun words there => (each words there).imp_left fun noWords => ⟨trivial, noWords⟩) missed budget
    spelled
  · intro budget token others notCloser notComma misses
    refine .step (.check [closer] token others) ?_
    rw [not_contains_of_ne notCloser]
    exact .step (.not_accept notComma others) misses
  · intro _ budget token next others isComma misses
    refine .step (.check [closer] token _) ?_
    rw [not_contains_of_ne (by rw [isComma]; exact notComma.symm)]
    refine .step (.accept isComma next others) (.bind misses ?_)
    rintro values _ atAssign
    exact .of_pure atAssign

theorem commaList_misses {items : List (List Word)} {trailing : Bool} (comma : before .comma)
    (each : ∀ words, words ∈ items →
      (∃ form, FormsItem deep item closer before form words) ∨ MissesItem item closer words)
    (missed : ∃ words, words ∈ items ∧ MissesItem item closer words)
    {tokens : List Token} {next : Token} {rest : List Token}
    (spelled : Spelled (joinItems items trailing) tokens (next :: rest)) :
    Leaves (commaList closer item) tokens AtAssign := by
  refine .withBudget fun budget => loop_misses (fun _ => .of_throw) ?_ False.elim comma
    (fun words there => .inr (each words there)) missed budget spelled
  intro budget token others notCloser _ misses
  refine .step (.check [closer] token others) ?_
  rw [not_contains_of_ne notCloser]
  exact misses

/-- A list that is not read to its end does not close. -/
theorem between_fails {opener : TokenType} (notAssign : closer ≠ .assign)
    {list : Reader (List Node)} {words : List Word} {kind : Kind}
    (misses : ∀ tokens next rest, Spelled words tokens (next :: rest) →
      Leaves list tokens AtAssign)
    {tokens rest : List Token}
    (spelled : Spelled (fixed opener false :: (words ++ [fixed closer false])) tokens rest) :
    Fails (between opener closer list kind) tokens := by
  obtain ⟨start, others, rfl, isStart, spelled⟩ := spelled
  obtain ⟨_, wordsSpelled, last, following, rfl, _⟩ := Spelled.append_iff.mp spelled
  have missed := misses _ _ _ wordsSpelled
  obtain ⟨second, more, rfl⟩ := Next.cons ⟨last, following, rfl, Nat.le_refl _⟩ wordsSpelled
  refine .step (.expect isStart.type second more) (.bind missed.allowingIn ?_)
  rintro values _ ⟨token, left, rfl, isAssign⟩
  have notCloser : token.type ≠ closer := by
    rw [isAssign]
    exact notAssign.symm
  exact (Fails.expect notCloser left).bind _

end Missing

section Ladder

variable {token : Token} {others : List Token}

/-- A chain whose head fails is no conditional expression. -/
theorem conditional_fails (starts : startsChain token.type) (notNew : token.type ≠ .kwNew)
    (fails : ∀ level, Fails (primary (rulesAt level)) (token :: others)) (level : Nat) :
    Fails (conditional (rulesAt level)) (token :: others) := by
  have head : ∀ level, Fails (chainHead (rulesAt level)) (token :: others) := by
    intro level
    refine .step (.check _ token others) ?_
    rw [not_contains_of_ne notNew]
    exact fails level
  have chained : ∀ level, Fails (rulesAt level).leftHandSide (token :: others)
    | 0 => .of_throw
    | level + 1 => .step (.current token others) ((head level).bind _)
  have notPrefix := startsChain_not starts
  have operand : ∀ level, Fails (rulesAt level).unary (token :: others) := by
    rintro (_ | level)
    · exact .of_throw
    · refine .step (.current token others) ?_
      simp only [notPrefix.1, if_neg notPrefix.2.1, if_neg notPrefix.2.2]
      exact (chained level).bind _
  have operation : ∀ level, Fails ((rulesAt level).binary 1) (token :: others)
    | 0 => .of_throw
    | level + 1 => .step (.current token others) ((operand level).bind _)
  exact .step (.current token others) ((operation level).bind _)

theorem assignment_fails (starts : startsChain token.type) (notNew : token.type ≠ .kwNew)
    (notArrow : Steps isArrowStart (token :: others) false (token :: others))
    (fails : ∀ level, Fails (primary (rulesAt level)) (token :: others)) (level : Nat) :
    Fails (rulesAt level).assignment (token :: others) := by
  rcases level with _ | level
  · exact .of_throw
  · have notYield : token.type ≠ .kwYield := by
      intro isYield
      rw [isYield] at starts
      cases starts
    refine .step (.current token others) ?_
    rw [if_neg notYield]
    exact .step notArrow ((conditional_fails starts notNew fails level).bind _)

end Ladder

/-- Some brackets open, and one more. -/
def Brackets (count : Nat) (tokens : List Token) : Prop :=
  ∃ rest, Spelled (List.replicate (count + 1) (fixed .openBracket false)) tokens rest

theorem Brackets.first {count : Nat} {tokens : List Token} (brackets : Brackets count tokens) :
    ∃ token rest, tokens = token :: rest ∧ token.type = .openBracket := by
  obtain ⟨_, token, rest, rfl, isBracket, _⟩ := brackets
  exact ⟨token, rest, rfl, isBracket.type⟩

theorem Brackets.tail {count : Nat} {token : Token} {tokens : List Token}
    (brackets : Brackets (count + 1) (token :: tokens)) : Brackets count tokens := by
  obtain ⟨rest, _, _, isTokens, _, spelled⟩ := brackets
  cases isTokens
  exact ⟨rest, spelled⟩

/-- An array whose first element is refused is refused. -/
theorem arrayLiteral_refuses {rules : Rules} {opener first : Token} {rest : List Token}
    (isOpener : opener.type = .openBracket) (isFirst : first.type = .openBracket)
    (refuses : Refuses rules.assignment (first :: rest)) :
    Refuses (arrayLiteral rules) (opener :: first :: rest) := by
  have element : Refuses (spreadable rules) (first :: rest) := by
    refine .step (.current first rest) (.step (.not_accept (by rw [isFirst]; nofun) rest) ?_)
    exact refuses
  refine .step (.expect isOpener first rest) (.bind (.allowingIn (.withBudget ?_)) _)
  rintro (_ | budget)
  · exact fun _ _ => rfl
  · refine .step (.check _ first rest) ?_
    rw [not_contains_of_ne (by rw [isFirst]; nofun)]
    refine .step (.not_accept (by rw [isFirst]; nofun) rest) (.bind element _)

section Descent

variable {opener : Token} {rest : List Token}

theorem leftHandSide_refuses (isOpener : opener.type = .openBracket) {level : Nat}
    (refuses : Refuses (arrayLiteral (rulesAt (level - 1))) (opener :: rest)) :
    Refuses (rulesAt level).leftHandSide (opener :: rest) := by
  cases level with
  | zero => exact fun _ _ => rfl
  | succ level =>
      have head : Refuses (chainHead (rulesAt level)) (opener :: rest) := by
        refine .step (.check _ opener rest) ?_
        rw [not_contains_of_ne (by rw [isOpener]; nofun)]
        refine .step (.current opener rest) ?_
        rw [isOpener]
        exact refuses
      exact .step (.current opener rest) (head.bind _)

theorem unary_refuses (isOpener : opener.type = .openBracket) {level : Nat}
    (refuses : Refuses (rulesAt (level - 1)).leftHandSide (opener :: rest)) :
    Refuses (rulesAt level).unary (opener :: rest) := by
  cases level with
  | zero => exact fun _ _ => rfl
  | succ level =>
      have notPrefix := startsChain_not (show startsChain opener.type by rw [isOpener]; rfl)
      refine .step (.current opener rest) ?_
      simp only [notPrefix.1, if_neg notPrefix.2.1, if_neg notPrefix.2.2]
      exact refuses.bind _

private theorem binary_refuses {level least : Nat}
    (refuses : Refuses (rulesAt (level - 1)).unary (opener :: rest)) :
    Refuses ((rulesAt level).binary least) (opener :: rest) := by
  cases level with
  | zero => exact fun _ _ => rfl
  | succ level => exact .step (.current opener rest) (refuses.bind _)

private theorem assignment_refuses_of_binary (isOpener : opener.type = .openBracket) {level : Nat}
    (refuses : Refuses ((rulesAt (level - 1)).binary 1) (opener :: rest)) :
    Refuses (rulesAt level).assignment (opener :: rest) := by
  cases level with
  | zero => exact fun _ _ => rfl
  | succ level =>
      have notName : opener.type ≠ .ident := by rw [isOpener]; nofun
      have notArrow : Steps isArrowStart (opener :: rest) false (opener :: rest) := by
        have steps := isArrowStart_steps (opener :: rest)
        rw [asyncAt_of_not_name notName] at steps
        rwa [if_neg (by nofun), arrowFrom_other notName (by rw [isOpener]; nofun)] at steps
      have conditional : Refuses (Grammar.conditional (rulesAt level)) (opener :: rest) :=
        .step (.current opener rest) (refuses.bind _)
      refine .step (.current opener rest) ?_
      rw [if_neg (by rw [isOpener]; nofun)]
      exact .step notArrow (conditional.bind _)

end Descent

/-- Brackets inside brackets take four levels each. -/
theorem assignment_refuses {level count : Nat} (deep : level ≤ 4 * count) {tokens : List Token}
    (brackets : Brackets count tokens) : Refuses (rulesAt level).assignment tokens := by
  induction count generalizing level tokens with
  | zero =>
      obtain rfl : level = 0 := Nat.le_zero.mp deep
      exact fun _ _ => rfl
  | succ count induction =>
      obtain ⟨opener, _, rfl, isOpener⟩ := brackets.first
      have inner := brackets.tail
      obtain ⟨first, rest, rfl, isFirst⟩ := inner.first
      have element : Refuses (rulesAt (level - 1 - 1 - 1 - 1)).assignment (first :: rest) :=
        induction (by omega) inner
      have array := arrayLiteral_refuses isOpener isFirst element
      exact assignment_refuses_of_binary isOpener (binary_refuses (unary_refuses isOpener
        (leftHandSide_refuses isOpener array)))

private theorem expression_refuses {level count : Nat} (deep : level ≤ 4 * count + 1)
    {tokens : List Token} (brackets : Brackets count tokens) :
    Refuses (rulesAt level).expression tokens := by
  cases level with
  | zero => exact fun _ _ => rfl
  | succ level =>
      obtain ⟨opener, rest, rfl, isOpener⟩ := brackets.first
      have assignment : Refuses (rulesAt level).assignment (opener :: rest) :=
        assignment_refuses (by omega) brackets
      refine .step (.current opener rest) (.bind (.withBudget ?_) _)
      rintro (_ | budget)
      · exact fun _ _ => rfl
      · exact assignment.bind _

private theorem statement_refuses {level count : Nat} (deep : level ≤ 4 * count + 2)
    {tokens : List Token} (brackets : Brackets count tokens) :
    Refuses (rulesAt level).statement tokens := by
  cases level with
  | zero => exact fun _ _ => rfl
  | succ level =>
      have expression : Refuses (rulesAt level).expression tokens :=
        expression_refuses (by omega) brackets
      obtain ⟨opener, rest, rfl, isOpener⟩ := brackets.first
      refine .step (.current opener rest) ?_
      rw [isOpener]
      exact .step (.current opener rest) (expression.allowingIn.bind _)

/-- A script that opens more brackets than there are levels for is refused. -/
theorem statements_refuses {count levels : Nat} (deep : levels ≤ 4 * count + 2)
    {tokens : List Token} (brackets : Brackets count tokens) :
    Refuses (statements levels) tokens := by
  have statement := statement_refuses deep brackets
  obtain ⟨opener, rest, rfl, isOpener⟩ := brackets.first
  refine .withBudget ?_
  rintro (_ | budget)
  · exact fun _ _ => rfl
  · refine .step ((Steps.current opener rest).bind (.of_pure _)) ?_
    rw [isOpener]
    exact statement.bind _

end Grammar

/-- A text that is laid out in more brackets than there are levels for is no script. -/
theorem parseScript_refuses {source : Source} {count levels : Nat}
    (deep : levels ≤ 4 * count + 2) {words : List Word} {edge : Edge}
    (laid : LaidOut source.text
      (List.replicate (count + 1) (Word.fixed .openBracket false) ++ words) edge) :
    parseScript source levels = .error (.parse .nestingTooDeep) := by
  obtain ⟨tokens, last, tokenized, holds, _⟩ := laid.tokenize
  obtain ⟨rest, spelled, _⟩ := Spelled.append_iff.mp (Spelled.of_holds holds [last])
  have refused := Grammar.statements_refuses deep ⟨rest, spelled⟩
    ⟨source, tokens ++ [last], none, false, (tokens ++ [last]).length + 1⟩
    ⟨rfl, rfl, Nat.lt_succ_self _⟩
  unfold parseScript
  simp only [tokenized, refused]

end ScriptFold
