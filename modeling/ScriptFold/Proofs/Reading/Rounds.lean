import Mathlib.Logic.Function.Iterate
import ScriptFold.Proofs.Reading.Destructuring
import ScriptFold.Proofs.Reading.Progress

/-!
# Every repetition ends

A round of a repetition moves by at least one token before the next one begins.  So there are
at most as many rounds as tokens: what would come after so many rounds is never reached, and the
budget of a repetition is never used up.
-/

namespace ScriptFold

namespace Grammar

variable {α β : Type} {tokens : List Token} {state : State} {given between : State → Prop}

/-! ### Readers that do the same -/

/-- Two readers do the same from every state as given. -/
def Alike (given : State → Prop) (reader other : Reader α) : Prop :=
  ∀ state, given state → reader.run state = other.run state

namespace Alike

theorem refl (reader : Reader α) : Alike given reader reader :=
  fun _ _ => rfl

theorem from_state {reader other : Reader α} (alike : Alike between reader other)
    (is : ∀ state, given state → between state) : Alike given reader other :=
  fun state isGiven => alike state (is state isGiven)

/-- Readers that go on alike from whatever the first of them gives and leaves. -/
theorem bind {first : Reader β} {next other : β → Reader α} {target : β → State → Prop}
    (begins : ∀ state value left, given state → first.run state = .ok (value, left) →
      target value left)
    (ends : ∀ value, Alike (target value) (next value) (other value)) :
    Alike given (first >>= next) (first >>= other) := by
  intro state isGiven
  rw [StateT.run_bind, StateT.run_bind]
  cases ran : first.run state with
  | error failure => rfl
  | ok value => exact ends value.1 value.2 (begins state value.1 value.2 isGiven ran)

theorem after {first : Reader β} {next other : β → Reader α} {middle : β → Prop}
    (begins : Leads given first middle between)
    (ends : ∀ value, middle value → Alike between (next value) (other value)) :
    Alike given (first >>= next) (first >>= other) :=
  bind begins fun value state is => ends value is.1 state is.2

/-- Nothing has to be known about what comes first. -/
theorem later [Lasting given] {first : Reader β} {next other : β → Reader α} [keeps : Keeps first]
    (ends : ∀ value, Alike given (next value) (other value)) :
    Alike given (first >>= next) (first >>= other) :=
  after (keeps.leads given) fun value _ => ends value

/-- What comes then is the same. -/
theorem before {first other : Reader β} {next : β → Reader α} (alike : Alike given first other) :
    Alike given (first >>= next) (other >>= next) := by
  intro state isGiven
  rw [StateT.run_bind, StateT.run_bind, alike state isGiven]

theorem ite {condition : Prop} [Decidable condition] {first second other another : Reader α}
    (whenTrue : Alike given first other) (whenFalse : Alike given second another) :
    Alike given (if condition then first else second)
      (if condition then other else another) := by
  split <;> assumption

end Alike

/-! ### As many rounds as tokens -/

section Counting

variable {loops : Type} {start : β → loops → Reader α} {round : loops → loops}

/-- Rounds of loops that start from values: what comes after a round begins further on. -/
def Productive (start : β → loops → Reader α) (round : loops → loops) : Prop :=
  ∀ tokens, EndsOnce tokens → ∀ one other,
    (∀ value, Alike (Beyond tokens) (start value one) (start value other)) →
    ∀ value, Alike (Among tokens) (start value (round one)) (start value (round other))

theorem Productive.of_alike {round : Reader α → Reader α}
    (alike : ∀ tokens, EndsOnce tokens → ∀ one other, Alike (Beyond tokens) one other →
      Alike (Among tokens) (round one) (round other)) :
    Productive (fun _ : Unit => id) round :=
  fun tokens ends one other is _ => alike tokens ends one other (is ())

/-- Whatever comes after as many rounds as tokens is not reached. -/
theorem Productive.iterate (productive : Productive start round) (one other : loops) (count : Nat)
    (ends : EndsOnce state.tokens) (within : state.tokens.length ≤ count) (value : β) :
    (start value (round^[count] one)).run state =
      (start value (round^[count] other)).run state := by
  induction count generalizing state value with
  | zero =>
      obtain ⟨others, last, isTokens, _⟩ := ends
      rw [isTokens, List.length_append] at within
      cases within
  | succ count induction =>
      rw [Function.iterate_succ_apply', Function.iterate_succ_apply']
      refine productive _ ends _ _ ?_ value state (.of_tokens ends.ne_nil rfl)
      rintro next left ⟨moved, positive, further, isRest⟩
      refine induction ?_ ?_ next
      · rw [isRest]
        exact ends.drop further
      · rw [isRest, List.length_drop]
        omega

/-- A repetition is over within as many rounds as tokens are left: it does the same whatever
comes after these. -/
def EndsInRounds (state : State) (reader : Reader α) (round : loops → loops)
    (start : loops → Reader α) : Prop :=
  ∀ beyond, reader.run state = (start (round^[state.tokens.length] beyond)).run state

theorem Productive.endsInRounds (productive : Productive start round) {loop : Nat → loops}
    (unrolls : ∀ budget, loop (budget + 1) = round (loop budget)) (ends : EndsOnce state.tokens)
    (enough : state.tokens.length ≤ state.budget) (value : β) :
    EndsInRounds state (start value (loop state.budget)) round (start value) := by
  have unrolled : ∀ count rest, loop (rest + count) = round^[count] (loop rest) := by
    intro count rest
    induction count with
    | zero => rfl
    | succ count induction =>
        rw [Function.iterate_succ_apply', ← induction]
        exact unrolls _
  obtain ⟨rest, isBudget⟩ := Nat.exists_eq_add_of_le' enough
  intro beyond
  rw [isBudget, unrolled]
  exact productive.iterate _ _ _ ends (Nat.le_refl _) value

end Counting

/-! ### Rounds -/

/-- One round of `repeatWhile`. -/
def repeatRound (continues : Reader Bool) (item : Reader α) (more : Reader (List α)) :
    Reader (List α) := do
  if ← continues then
    let first ← item
    let rest ← more
    return first :: rest
  return []

/-- One round of `commaList`. -/
def commaRound (closer : TokenType) (item : Reader Node) (more : Reader (List Node)) :
    Reader (List Node) := do
  if ← check [closer] then return []
  itemThen item more

/-- One round of `holedList`. -/
def holedRound (closer : TokenType) (item : Reader Node) (more : Reader (List Node)) :
    Reader (List Node) := do
  if ← check [closer] then return []
  if ← accept .comma then
    return .absent :: (← more)
  itemThen item more

/-- One round of `templateParts`. -/
def templateRound (rules : Rules) (more : Reader (List Node)) : Reader (List Node) := do
  let value ← allowingIn true rules.expression
  if ← check [.templateMiddle] then
    let piece := leafOf .templateChunk (← advance)
    return value :: piece :: (← more)
  let tail ← expectOr .templateTail fun _ => .unterminatedSubstitution
  return [value, leafOf .templateChunk tail]

/-- One round of `chainFrom`. -/
def chainRound (rules : Rules) (allowCall : Bool) (start : Token) (more : Node → Reader Node)
    (object : Node) : Reader Node := do
  match ← chainLink? rules allowCall start object with
  | some longer => more longer
  | none => return object

/-- One round of `climb`. -/
def climbRound (rules : Rules) (least : Nat) (start : Token) (more : Node → Reader Node)
    (left : Node) : Reader Node := do
  match ← operator? least with
  | none => return left
  | some (op, precedence) =>
      let _ ← advance
      let right ← rules.binary (if op.type = .pow then precedence else precedence + 1)
      let kind := if isLogical op.type then Kind.logical else .binary
      let joined ← finish kind [left, leafOf .op op, right] start
      more joined

/-- One round of `skipBraces`. -/
def skipRound (more : Nat → Reader Unit) : (depth : Nat) → Reader Unit
  | 0 => return
  | depth + 1 => do
      let token ← current
      if token.type = .endOfInput then failAt (.expectedCloser .closeBrace) token
      let _ ← advance
      match token.type with
      | .openBrace => more (depth + 2)
      | .closeBrace => more depth
      | _ => more (depth + 1)

/-! ### What moves in a round -/

section Moves

variable {rules : Rules}

/-- What is true at the end of input, where reading stays. -/
theorem leads_at_end {last : Token} (isEnd : last.type = .endOfInput) {reader : Reader α}
    [keeps : Keeps reader] {holds : α → Prop} (leads : Leads Exhausted reader holds Exhausted) :
    Leads (Among [last]) reader holds (Among [last]) := by
  intro state value left among ran
  exact ⟨(leads state value left (among.exhausted isEnd) ran).1,
    (keeps.leads (Among [last]) state value left among ran).2⟩

/-- What comes first has moved if what comes after it reads nothing more. -/
theorem Takes.moved {first : Reader β} {next : β → Reader α} (takes : Takes (first >>= next))
    {one second : Token} {rest : List Token} {left : State} {value : β} {result : α}
    (among : Among (one :: second :: rest) state) (ran : first.run state = .ok (value, left))
    (returns : (next value).run left = .ok (result, left)) :
    Beyond (one :: second :: rest) left := by
  have whole : (first >>= next).run state = .ok (result, left) := by
    rw [StateT.run_bind, ran]
    exact returns
  exact (takes.among one second rest state result left among whole).2

/-- An optional token that is read moves. -/
theorem accept_moves (ends : EndsOnce tokens) {type : TokenType} (named : type ≠ .endOfInput)
    (state : State) (accepted : Bool) (left : State) (among : Among tokens state)
    (ran : (accept type).run state = .ok (accepted, left)) :
    if accepted then Beyond tokens left else Among tokens left := by
  cases accepted with
  | false => exact (Keeps.leads (Among tokens) state false left among ran).2
  | true =>
      obtain ⟨last, rfl, isEnd⟩ | ⟨first, second, rest, rfl, _⟩ := ends.cases
      · exact absurd (accept_exhausted named state true left (among.exhausted isEnd) ran).1
          Bool.noConfusion
      · have takes : Takes (do
            if ← accept type then pure () else throw .nestingTooDeep : Reader Unit) :=
          inferInstance
        exact takes.moved among ran rfl

theorem itemThen_alike (ends : EndsOnce tokens) {item : Reader Node} (moves : Advances item)
    {one other : Reader (List Node)} (alike : Alike (Beyond tokens) one other) :
    Alike (Among tokens) (itemThen item one) (itemThen item other) :=
  .after (moves tokens ends) fun _ _ => .later fun _ => .ite (.before alike) (.refl _)

theorem itemThen_productive {item : Reader Node} (moves : Advances item) :
    Productive (fun _ : Unit => id) (itemThen item) :=
  .of_alike fun _ ends _ _ alike => itemThen_alike ends moves alike

theorem repeatRound_productive {continues : Reader Bool} [Keeps continues] {item : Reader α}
    (moves : Advances item) : Productive (fun _ : Unit => id) (repeatRound continues item) := by
  refine .of_alike fun tokens ends _ _ alike => .later fun goesOn => ?_
  exact .ite (.after (moves tokens ends) fun _ _ => .before alike) (.refl _)

theorem commaRound_productive {closer : TokenType} {item : Reader Node} (moves : Advances item) :
    Productive (fun _ : Unit => id) (commaRound closer item) := by
  refine .of_alike fun tokens ends _ _ alike => .later fun closes => ?_
  exact .ite (.refl _) (itemThen_alike ends moves alike)

theorem holedRound_productive {closer : TokenType} {item : Reader Node} (moves : Advances item) :
    Productive (fun _ : Unit => id) (holedRound closer item) := by
  refine .of_alike fun tokens ends _ _ alike => .later fun closes => .ite (.refl _) ?_
  refine .bind (accept_moves ends (by decide)) fun accepted => ?_
  cases accepted with
  | true => exact .before alike
  | false => exact itemThen_alike ends moves alike

theorem templateRound_productive (moves : Advances (allowingIn true rules.expression)) :
    Productive (fun _ : Unit => id) (templateRound rules) := by
  refine .of_alike fun tokens ends _ _ alike => .after (moves tokens ends) fun value _ => ?_
  exact .later fun goesOn => .ite (.later fun _ => .before alike) (.refl _)

/-- What has to be there. -/
def required : Option α → Reader α
  | some value => pure value
  | none => throw .nestingTooDeep

instance {value : Option α} : Keeps (required value) := by
  cases value <;> unfold required <;> infer_instance

instance [TakingRules rules] {calls : Bool} {start : Token} {object : Node} :
    Takes (chainLink? rules calls start object >>= required) := by
  have absent : Takes ((pure none : Reader (Option Node)) >>= required) :=
    inferInstanceAs (Takes (throw _))
  unfold chainLink?
  rw [bind_assoc]
  refine .after fun token => ?_
  cases token.type
  case openParen =>
    dsimp only
    split
    · infer_instance
    · exact absent
  case dot | optionalDot | openBracket | wholeTemplate | templateHead => infer_instance
  all_goals exact absent

private theorem chainLink?_exhausted {calls : Bool} {start : Token} {object : Node} :
    Leads Exhausted (chainLink? rules calls start object) (· = none) Exhausted := by
  refine .bind current_exhausted fun token isEnd => ?_
  simp only [isEnd]
  exact .of_pure rfl

/-- A link of a chain that is found has been read. -/
theorem chainLink?_moves [TakingRules rules] (ends : EndsOnce tokens) {calls : Bool} {start : Token}
    {object : Node} (state : State) (link : Option Node) (left : State)
    (among : Among tokens state)
    (ran : (chainLink? rules calls start object).run state = .ok (link, left)) :
    link = none ∨ Beyond tokens left := by
  cases link with
  | none => exact .inl rfl
  | some longer =>
      obtain ⟨last, rfl, isEnd⟩ | ⟨first, second, rest, rfl, _⟩ := ends.cases
      · exact .inl (chainLink?_exhausted state _ left (among.exhausted isEnd) ran).1
      · have takes : Takes (chainLink? rules calls start object >>= required) := inferInstance
        exact .inr (takes.moved among ran rfl)

theorem chainRound_productive [TakingRules rules] {calls : Bool} {start : Token} :
    Productive (fun object loop => loop object) (chainRound rules calls start) := by
  intro tokens ends one other alike object
  refine .bind (chainLink?_moves ends) fun link => ?_
  cases link with
  | none => exact .refl _
  | some longer => exact (alike longer).from_state fun state moved => moved.resolve_left nofun

private theorem operator?_exhausted {least : Nat} :
    Leads Exhausted (operator? least) (· = none) Exhausted := by
  refine .bind current_exhausted fun op isEnd => .still fun state => .of_pure ?_
  rw [isEnd]
  rfl

theorem climbRound_productive [TakingRules rules] {least : Nat} {start : Token} :
    Productive (fun left loop => loop left) (climbRound rules least start) := by
  intro tokens ends one other alike left
  obtain ⟨last, rfl, isEnd⟩ | ⟨first, second, rest, rfl, _⟩ := ends.cases
  · refine .after (leads_at_end isEnd operator?_exhausted) fun operator isNone => ?_
    rw [isNone]
    exact .refl _
  · refine .later fun operator => ?_
    cases operator with
    | none => exact .refl _
    | some operator =>
        refine .after (Takes.among first second rest) fun _ _ => ?_
        exact .later fun right => .later fun joined => alike joined

theorem skipRound_productive : Productive (fun depth loop => loop depth) skipRound := by
  intro tokens ends one other alike depth
  cases depth with
  | zero => exact .refl _
  | succ depth =>
      obtain ⟨last, rfl, isEnd⟩ | ⟨first, second, rest, rfl, _⟩ := ends.cases
      · refine .after (leads_at_end isEnd current_exhausted) fun token isEnd => ?_
        simp only [isEnd, if_true]
        exact .refl _
      · refine .later fun token => ?_
        have moves : Alike (Among (first :: second :: rest))
            (do
              let _ ← advance
              match token.type with
              | .openBrace => one (depth + 2)
              | .closeBrace => one depth
              | _ => one (depth + 1))
            (do
              let _ ← advance
              match token.type with
              | .openBrace => other (depth + 2)
              | .closeBrace => other depth
              | _ => other (depth + 1)) := by
          refine .after (Takes.among first second rest) fun _ _ => ?_
          cases token.type <;> exact alike _
        exact .ite (.later fun _ => moves) moves

/-- Whether the module of an import is still to come. -/
def beforeModule : Reader Bool := do
  let token ← current
  if token.type = .string then return false
  if token.type = .endOfInput ∨ token.type = .semicolon then failAt .missingModule token
  return true

instance : Keeps beforeModule := by
  unfold beforeModule
  infer_instance

private theorem beforeModule_needs : NeedsToken beforeModule := by
  apply NeedsToken.current
  intro token isEnd
  simp only [isEnd]
  exact .of_failAt

/-- The end of input is not read before the module of an import. -/
theorem importRound_productive :
    Productive (fun _ : Unit => id) (repeatRound beforeModule advance) := by
  refine .of_alike fun tokens ends _ _ alike => ?_
  obtain ⟨last, rfl, isEnd⟩ | ⟨first, second, rest, rfl, _⟩ := ends.cases
  · exact .after (leads_at_end isEnd beforeModule_needs) fun _ => False.elim
  · refine .later fun goesOn => .ite ?_ (.refl _)
    exact .after (Takes.among first second rest) fun _ _ => .before alike

end Moves

/-! ### The repetitions of the grammar -/

section Grammar

variable (rules : Rules)

def patternItem : Reader Node := do
  let first ← current
  if ← accept .ellipsis then restElement rules first else patternProperty rules

/-- A member of a class or a stray semicolon. -/
def classItem : Reader (Option Node) := do
  if ← accept .semicolon then return none
  return some (← classMember rules)

/-- Every repetition that begins in a state is over within as many rounds as tokens are left. -/
structure LoopsEnd (state : State) : Prop where
  /-- The statements of a program, a block or a case. -/
  statements : ∀ (continues : Reader Bool) [Keeps continues],
    EndsInRounds state (repeatWhile continues rules.statement)
      (repeatRound continues rules.statement) id
  cases : ∀ (continues : Reader Bool) [Keeps continues] (start : Token),
    EndsInRounds state (repeatWhile continues (switchCase rules start))
      (repeatRound continues (switchCase rules start)) id
  members : ∀ (continues : Reader Bool) [Keeps continues],
    EndsInRounds state (repeatWhile continues (classItem rules))
      (repeatRound continues (classItem rules)) id
  /-- Arguments, members of objects, parameters and items of object patterns. -/
  lists : ∀ closer, ∀ item ∈ [spreadable rules, objectMember rules, parameter rules,
    patternItem rules],
    EndsInRounds state (commaList closer item) (commaRound closer item) id
  /-- Elements of arrays and array patterns. -/
  holedLists : ∀ closer, ∀ item ∈ [spreadable rules, parameter rules],
    EndsInRounds state (holedList closer item) (holedRound closer item) id
  /-- Expressions and declarations with commas between them. -/
  sequences : ∀ item ∈ [rules.assignment, declarator rules],
    EndsInRounds state (commaItems item) (itemThen item) id
  templates : EndsInRounds state (do templateParts rules (← get).budget) (templateRound rules) id
  chains : ∀ calls start object,
    EndsInRounds state (chain rules calls start object) (chainRound rules calls start) (· object)
  operators : ∀ least start left,
    EndsInRounds state (do climb rules least start (← get).budget left)
      (climbRound rules least start) (· left)
  /-- What comes before the module of an import. -/
  imports : EndsInRounds state (repeatWhile beforeModule advance)
    (repeatRound beforeModule advance) id
  /-- Export lists and attributes, whatever braces are open. -/
  braces : ∀ depth, EndsInRounds state (do skipBraces.loop (← get).budget depth) skipRound (· depth)

end Grammar

section Ending

variable {rules : Rules}

private theorem classItem_needs : NeedsToken (classItem rules) :=
  .refused (accept_exhausted (by decide)) (.bind classMember_needs)

theorem skipBraces_unrolls (budget : Nat) :
    skipBraces.loop (budget + 1) = skipRound (skipBraces.loop budget) := by
  funext depth
  cases depth <;> rfl

variable [TakingRules rules]

instance : Takes (patternItem rules) := by
  unfold patternItem
  infer_instance

instance : Takes (declarator rules) := by
  unfold declarator
  infer_instance

instance : Takes (classItem rules) := by
  unfold classItem
  infer_instance

theorem loopsEnd (needs : RulesNeedTokens rules) {state : State} (ends : EndsOnce state.tokens)
    (enough : state.tokens.length ≤ state.budget) : LoopsEnd rules state where
  statements continues _ :=
    (repeatRound_productive (advances_of_needs needs.statement)).endsInRounds (fun _ => rfl) ends
      enough ()
  cases continues _ start :=
    (repeatRound_productive (advances_of_needs switchCase_needs)).endsInRounds (fun _ => rfl) ends
      enough ()
  members continues _ :=
    (repeatRound_productive (advances_of_needs classItem_needs)).endsInRounds (fun _ => rfl) ends
      enough ()
  lists closer := by
    have end_of {item : Reader Node} [Takes item] (needs : NeedsToken item) :
        EndsInRounds state (commaList closer item) (commaRound closer item) id :=
      (commaRound_productive (advances_of_needs needs)).endsInRounds (fun _ => rfl) ends enough ()
    refine List.forall_iff_forall_mem.mp ⟨?_, ?_, ?_, ?_⟩
    · exact end_of (spreadable_needs needs)
    · exact end_of objectMember_needs
    · exact end_of (parameter_needs needs)
    · exact end_of patternItem_needs
  holedLists closer := by
    have end_of {item : Reader Node} [Takes item] (needs : NeedsToken item) :
        EndsInRounds state (holedList closer item) (holedRound closer item) id :=
      (holedRound_productive (advances_of_needs needs)).endsInRounds (fun _ => rfl) ends enough ()
    refine List.forall_iff_forall_mem.mp ⟨?_, ?_⟩
    · exact end_of (spreadable_needs needs)
    · exact end_of (parameter_needs needs)
  sequences := by
    have end_of {item : Reader Node} [Takes item] (needs : NeedsToken item) :
        EndsInRounds state (commaItems item) (itemThen item) id :=
      (itemThen_productive (advances_of_needs needs)).endsInRounds (fun _ => rfl) ends enough ()
    refine List.forall_iff_forall_mem.mp ⟨?_, ?_⟩
    · exact end_of needs.assignment
    · exact end_of (declarator_needs needs)
  templates :=
    (templateRound_productive (advances_of_needs (.allowingIn needs.expression))).endsInRounds
      (fun _ => rfl) ends enough ()
  chains calls start object :=
    chainRound_productive.endsInRounds (fun _ => rfl) ends enough object
  operators least start left :=
    climbRound_productive.endsInRounds (fun _ => rfl) ends enough left
  imports := importRound_productive.endsInRounds (fun _ => rfl) ends enough ()
  braces depth := skipRound_productive.endsInRounds skipBraces_unrolls ends enough depth

end Ending

/-! ### Progress -/

instance : Lasting (fun state => state.tokens.length ≤ state.budget) where
  noIn _ enough := enough
  advance := by
    intro state next token enough ran
    have sameBudget : next.budget = state.budget := by
      cases ran
      rfl
    have notMore : next.tokens.length ≤ state.tokens.length := by
      obtain ⟨drops, _⟩ | same := tokens_of_advance ran
      · rw [drops, List.length_drop]
        exact Nat.sub_le _ _
      · exact Nat.le_of_eq (congrArg List.length same)
    rw [sameBudget]
    exact Nat.le_trans notMore enough

/-- A position among some tokens, with a budget for all that are left. -/
structure Position (all : List Token) (index : Nat) (state : State) : Prop where
  within : index < all.length
  tokens : state.tokens = all.drop index
  enough : state.tokens.length ≤ state.budget

/-- Scripts are read from the first token on. -/
theorem Position.start (source : Source) (some : tokens ≠ []) :
    Position tokens 0 ⟨source, tokens, none, false, tokens.length + 1⟩ :=
  ⟨List.length_pos_iff.mpr some, rfl, Nat.le_succ _⟩

theorem Position.advances {all : List Token} {index : Nat} (ends : EndsOnce all)
    (position : Position all index state) {reader : Reader α} [keeps : Keeps reader]
    (moves : Advances reader) {value : α} {next : State}
    (ran : reader.run state = .ok (value, next)) :
    ∃ after, index < after ∧ Position all after next := by
  obtain ⟨within, isRest, enough⟩ := position
  have left := ends.drop within
  obtain ⟨_, moved, positive, further, isAfter⟩ :=
    moves _ left state value next (.of_tokens left.ne_nil isRest) ran
  have enoughLeft := (keeps.leads (fun state => state.tokens.length ≤ state.budget) state value next
    enough ran).2
  rw [List.length_drop] at further
  rw [List.drop_drop] at isAfter
  exact ⟨index + moved, Nat.lt_add_of_pos_right positive, by omega, isAfter, enoughLeft⟩

/-- A statement or expression that is read leaves a later position, and no repetition that begins
at a position has more rounds than tokens are left. -/
theorem reading_progresses {all : List Token} (ends : EndsOnce all) {index : Nat} {state : State}
    (position : Position all index state) (levels : Nat) :
    (∀ reader ∈ [(rulesAt levels).statement, (rulesAt levels).expression], ∀ node next,
      reader.run state = .ok (node, next) → ∃ after, index < after ∧ Position all after next) ∧
      LoopsEnd (rulesAt levels) state := by
  have needs := rulesAt_needTokens levels
  refine ⟨List.forall_iff_forall_mem.mp ⟨?_, ?_⟩, ?_⟩
  · exact fun node next => position.advances ends (advances_of_needs needs.statement)
  · exact fun node next => position.advances ends (advances_of_needs needs.expression)
  · exact loopsEnd needs (position.tokens ▸ ends.drop position.within) position.enough

/-- The tokens of `f;(`, a statement before one that is not ended. -/
def openParenthesis : List Token :=
  [⟨.ident, "f", ⟨0, 1, 1⟩, 1, false⟩, ⟨.semicolon, ";", ⟨1, 1, 2⟩, 2, false⟩,
    ⟨.openParen, "(", ⟨2, 1, 3⟩, 3, false⟩, ⟨.endOfInput, [], ⟨3, 1, 4⟩, 3, false⟩]

/-- The state before the script `f;(`. -/
def beforeParenthesis : State :=
  ⟨⟨"f;(", none, .script⟩, openParenthesis, none, false, openParenthesis.length + 1⟩

theorem openParenthesis_progresses :
    (EndsOnce openParenthesis ∧ Position openParenthesis 0 beforeParenthesis) ∧
    (∀ reader ∈ [(rulesAt nestingLimit).statement, (rulesAt nestingLimit).expression],
      ∀ node next, reader.run beforeParenthesis = .ok (node, next) →
        ∃ after, 0 < after ∧ Position openParenthesis after next) ∧
      LoopsEnd (rulesAt nestingLimit) beforeParenthesis := by
  have ends : EndsOnce openParenthesis :=
    ⟨openParenthesis.take 3, ⟨.endOfInput, [], ⟨3, 1, 4⟩, 3, false⟩, rfl, rfl, by decide⟩
  have position : Position openParenthesis 0 beforeParenthesis := .start _ ends.ne_nil
  exact ⟨⟨ends, position⟩, reading_progresses ends position nestingLimit⟩

end Grammar

end ScriptFold
