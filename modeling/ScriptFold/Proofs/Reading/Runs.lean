import ScriptFold.Grammar.Script
import ScriptFold.Proofs.Token.Word
import ScriptFold.Proofs.Tree.Placed

/-!
# Runs of readers

`Runs deep reader tokens gives` says that the reader, at these tokens, gives a value and
leaves tokens as `gives` says, unless it refuses them as nested too deep, which it may only
do if `deep` holds.  Readers that go on in one way only take a `Steps`.
-/

namespace ScriptFold

namespace Node

private theorem coreAll_seatFrom (index : Nat) (nodes : List Node) :
    coreAll (seatFrom index nodes) = unseated (nodes.map core) := by
  induction nodes generalizing index with
  | nil => rfl
  | cons node rest induction =>
      simp only [seatFrom, coreAll, induction]
      rfl

theorem core_read {kind : Kind} (notParen : kind ≠ .paren) (flags : Flags) (source : Source)
    (span : Span) (nodes : List Node) :
    (read kind flags source span nodes).core =
      .tree kind flags none (unseated (nodes.map core)) := by
  rw [read, core, coreAll_seatFrom]
  rintro _ _ _ rfl
  exact absurd rfl notParen

theorem core_read_paren {inner : Node} (isExpression : inner.core.isExpression) (source : Source)
    (span : Span) : (read .paren {} source span [inner]).core = inner.core := by
  have bare : (read .paren {} source span [inner]).core = if inner.core.isExpression then
      inner.core else .tree .paren {} none [⟨none, inner.core⟩] := rfl
  rw [bare, if_pos isExpression]

end Node

/-- Some tokens begin with words and go on with others. -/
def Spelled : List Word → List Token → List Token → Prop
  | [], tokens, rest => tokens = rest
  | word :: words, tokens, rest =>
      ∃ token others, tokens = token :: others ∧ word.Matches token ∧ Spelled words others rest

namespace Spelled

theorem append_iff {first second : List Word} {tokens rest : List Token} :
    Spelled (first ++ second) tokens rest ↔
      ∃ middle, Spelled first tokens middle ∧ Spelled second middle rest := by
  induction first generalizing tokens with
  | nil =>
      constructor
      · intro spelled
        exact ⟨tokens, rfl, spelled⟩
      · rintro ⟨middle, rfl, spelled⟩
        exact spelled
  | cons word words induction =>
      constructor
      · rintro ⟨token, others, isTokens, isWord, spelled⟩
        obtain ⟨middle, firstSpelled, secondSpelled⟩ := induction.mp spelled
        exact ⟨middle, ⟨token, others, isTokens, isWord, firstSpelled⟩, secondSpelled⟩
      · rintro ⟨middle, ⟨token, others, isTokens, isWord, firstSpelled⟩, secondSpelled⟩
        exact ⟨token, others, isTokens, isWord, induction.mpr ⟨middle, firstSpelled, secondSpelled⟩⟩

theorem of_holds {words : List Word} {tokens : List Token} (holds : Holds words tokens)
    (rest : List Token) : Spelled words (tokens ++ rest) rest := by
  induction holds with
  | nil => rfl
  | cons isWord _ induction => exact ⟨_, _, rfl, isWord, induction⟩

theorem length {words : List Word} {tokens rest : List Token}
    (spelled : Spelled words tokens rest) : tokens.length = words.length + rest.length := by
  induction words generalizing tokens with
  | nil => exact (congrArg List.length spelled).trans (Nat.zero_add _).symm
  | cons word words induction =>
      obtain ⟨token, others, rfl, _, spelled⟩ := spelled
      rw [List.length_cons, List.length_cons, induction spelled]
      omega

end Spelled

namespace Grammar

/-- A state with some tokens left, in which `in` is an operator. -/
structure Ready (state : State) (tokens : List Token) : Prop where
  left : state.tokens = tokens
  allows : state.noIn = false
  within : tokens.length < state.budget

/-- A reader gives a value and leaves some tokens. -/
def Steps {α : Type} (reader : Reader α) (tokens : List Token) (value : α) (rest : List Token) :
    Prop :=
  ∀ state, Ready state tokens → ∃ after, reader.run state = .ok (value, after) ∧ Ready after rest

/-- A reader gives a value and leaves tokens as `gives` says, or refuses what is too deep. -/
def Runs {α : Type} (deep : Prop) (reader : Reader α) (tokens : List Token)
    (gives : α → List Token → Prop) : Prop :=
  ∀ state, Ready state tokens →
    (∃ value after rest, reader.run state = .ok (value, after) ∧ Ready after rest ∧
      gives value rest) ∨
    deep ∧ reader.run state = .error .nestingTooDeep

variable {α β : Type} {tokens rest : List Token} {deep : Prop}

namespace Steps

theorem of_pure (value : α) : Steps (pure value) tokens value tokens :=
  fun state ready => ⟨state, rfl, ready⟩

theorem bind {first : Reader β} {next : β → Reader α} {value : β} {result : α}
    {middle : List Token} (begins : Steps first tokens value middle)
    (goes : Steps (next value) middle result rest) : Steps (first >>= next) tokens result rest := by
  intro state ready
  obtain ⟨between, ran, ready⟩ := begins state ready
  obtain ⟨after, ranOn, ready⟩ := goes between ready
  refine ⟨after, ?_, ready⟩
  rw [StateT.run_bind, ran]
  exact ranOn

theorem current (token : Token) (rest : List Token) :
    Steps Grammar.current (token :: rest) token (token :: rest) := by
  intro state ready
  refine ⟨state, ?_, ready⟩
  show Except.ok (state.tokens.headD noToken, state) = _
  rw [ready.left]
  rfl

theorem peek (token next : Token) (rest : List Token) :
    Steps (Grammar.peek 1) (token :: next :: rest) next (token :: next :: rest) := by
  intro state ready
  refine ⟨state, ?_, ready⟩
  show Except.ok (_, state) = _
  rw [ready.left]
  rfl

theorem advance (token next : Token) (rest : List Token) :
    Steps Grammar.advance (token :: next :: rest) token (next :: rest) := by
  intro state ready
  have within : (next :: rest).length < state.budget :=
    Nat.lt_of_succ_lt ready.within
  refine ⟨{ state with tokens := next :: rest, previous := some token }, ?_,
    rfl, ready.allows, within⟩
  obtain ⟨source, tokens, previous, noIn, budget⟩ := state
  obtain rfl : tokens = token :: next :: rest := ready.left
  rfl

theorem check (types : List TokenType) (token : Token) (rest : List Token) :
    Steps (Grammar.check types) (token :: rest) (types.contains token.type) (token :: rest) :=
  (current token rest).bind (of_pure _)

theorem checkName (name : String) (token : Token) (rest : List Token) :
    Steps (Grammar.checkName name) (token :: rest) (token.isNamed name) (token :: rest) :=
  (current token rest).bind (of_pure _)

theorem accept {type : TokenType} {token : Token} (isType : token.type = type) (next : Token)
    (rest : List Token) : Steps (Grammar.accept type) (token :: next :: rest) true (next :: rest) := by
  refine (current token _).bind ?_
  rw [if_pos isType]
  exact (advance token next rest).bind (of_pure true)

theorem not_accept {type : TokenType} {token : Token} (notType : token.type ≠ type)
    (rest : List Token) : Steps (Grammar.accept type) (token :: rest) false (token :: rest) := by
  refine (current token _).bind ?_
  rw [if_neg notType]
  exact of_pure false

theorem expect {type : TokenType} {token : Token} (isType : token.type = type) (next : Token)
    (rest : List Token) : Steps (Grammar.expect type) (token :: next :: rest) token (next :: rest) := by
  refine (current token _).bind ?_
  rw [if_pos isType]
  exact advance token next rest

end Steps

namespace Runs

variable {gives : α → List Token → Prop}

theorem of_steps {reader : Reader α} {value : α} (steps : Steps reader tokens value rest)
    (is : gives value rest) : Runs deep reader tokens gives := by
  intro state ready
  obtain ⟨after, ran, ready⟩ := steps state ready
  exact .inl ⟨value, after, rest, ran, ready, is⟩

theorem of_pure {value : α} (is : gives value tokens) : Runs deep (pure value) tokens gives :=
  of_steps (.of_pure value) is

theorem refused (isDeep : deep) :
    Runs deep (throw .nestingTooDeep : Reader α) tokens gives :=
  fun _ _ => .inr ⟨isDeep, rfl⟩

theorem bind {first : Reader β} {next : β → Reader α} {middle : β → List Token → Prop}
    (begins : Runs deep first tokens middle)
    (goes : ∀ value rest, middle value rest → Runs deep (next value) rest gives) :
    Runs deep (first >>= next) tokens gives := by
  intro state ready
  rw [StateT.run_bind]
  rcases begins state ready with ⟨value, between, rest, ran, ready, is⟩ | ⟨isDeep, refused⟩
  · rw [ran]
    exact goes value rest is between ready
  · rw [refused]
    exact .inr ⟨isDeep, rfl⟩

/-- Readers that go on in one way only. -/
theorem step {first : Reader β} {next : β → Reader α} {value : β} {middle : List Token}
    (begins : Steps first tokens value middle) (goes : Runs deep (next value) middle gives) :
    Runs deep (first >>= next) tokens gives := by
  intro state ready
  obtain ⟨between, ran, ready⟩ := begins state ready
  rw [StateT.run_bind, ran]
  exact goes between ready

theorem mono {reader : Reader α} {deep' : Prop} {gives' : α → List Token → Prop}
    (runs : Runs deep reader tokens gives) (deeper : deep → deep')
    (implies : ∀ value rest, gives value rest → gives' value rest) :
    Runs deep' reader tokens gives' := by
  intro state ready
  rcases runs state ready with ⟨value, after, rest, ran, ready, is⟩ | ⟨isDeep, refused⟩
  · exact .inl ⟨value, after, rest, ran, ready, implies value rest is⟩
  · exact .inr ⟨deeper isDeep, refused⟩

/-- A repetition is bounded by more than the tokens left. -/
theorem withBudget {next : Nat → Reader α}
    (goes : ∀ budget, tokens.length < budget → Runs deep (next budget) tokens gives) :
    Runs deep (do next (← get).budget) tokens gives :=
  fun state ready => goes state.budget ready.within state ready

theorem allowingIn {reader : Reader α} (runs : Runs deep reader tokens gives) :
    Runs deep (allowingIn true reader) tokens gives := by
  intro state ready
  have opened : Ready { state with noIn := !true } tokens := ⟨ready.left, rfl, ready.within⟩
  have ranAs : (Grammar.allowingIn true reader).run state =
      (reader.run { state with noIn := !true } >>= fun result =>
        Except.ok (result.1, { result.2 with noIn := state.noIn })) := rfl
  rw [ranAs]
  rcases runs _ opened with ⟨value, after, rest, ran, later, is⟩ | ⟨isDeep, refused⟩
  · refine .inl ⟨value, { after with noIn := state.noIn }, rest, ?_, ?_, is⟩
    · rw [ran]
      rfl
    · exact ⟨later.left, ready.allows, later.within⟩
  · rw [refused]
    exact .inr ⟨isDeep, rfl⟩

/-- A finished tree is read with its children. -/
theorem finishRead {gives : Node → List Token → Prop} {kind : Kind} {flags : Flags}
    {children : List Node} {start : Token}
    (is : ∀ source span, gives (.read kind flags source span children) tokens) :
    Runs deep (Grammar.finishWith flags kind children start) tokens gives :=
  fun state ready => .inl ⟨_, state, tokens, rfl, ready, is _ _⟩

/-- A finished tree says what its children say. -/
theorem finishWith {gives : Node → List Token → Prop} {kind : Kind} {flags : Flags}
    {children : List Node} {start : Token} (notParen : kind ≠ .paren)
    (is : ∀ node, node.core = .tree kind flags none (Node.unseated (children.map Node.core)) →
      gives node tokens) :
    Runs deep (Grammar.finishWith flags kind children start) tokens gives :=
  finishRead fun source span => is _ (Node.core_read notParen flags source span children)

end Runs

end Grammar

end ScriptFold
