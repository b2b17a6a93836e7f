import ScriptFold.Proofs.Reading.Ending
import ScriptFold.Proofs.Token.Tiling
import ScriptFold.Proofs.Tree.Nesting

/-!
# What readers gather

The tokens left stand in order after the offset that is reached.  `Read start nodes` says of a
state that nodes are laid one after another from `start` up to that offset, and `Took start nodes`
that a token was taken on the way.  `Gathers given reader ensured` relates what a reader gives to
the state that it leaves, so that what it gives can be laid after what is there already.
-/

namespace ScriptFold

namespace Grammar

open Node

/-- Tokens in order from an offset up to the last one, which marks the end of a text. -/
inductive Orderly (limit : Nat) : Nat → List Token → Prop
  | last {offset : Nat} {token : Token} (type : token.type = .endOfInput)
      (begins : offset ≤ token.start) (ends : token.stop = token.start)
      (within : token.start ≤ limit) : Orderly limit offset [token]
  | cons {offset : Nat} {token : Token} {rest : List Token} (begins : offset ≤ token.start)
      (proper : token.start < token.stop) (later : Orderly limit token.stop rest) :
      Orderly limit offset (token :: rest)

namespace Orderly

variable {limit offset : Nat} {tokens : List Token}

theorem le_start (orderly : Orderly limit offset tokens) :
    ∀ token ∈ tokens, offset ≤ token.start := by
  induction orderly with
  | last _ begins => exact List.forall_mem_singleton.mpr begins
  | cons begins proper _ induction =>
      refine List.forall_mem_cons.mpr ⟨begins, fun token there => ?_⟩
      exact Nat.le_trans begins (Nat.le_trans (Nat.le_of_lt proper) (induction token there))

theorem le_limit (orderly : Orderly limit offset tokens) : offset ≤ limit := by
  induction orderly with
  | last _ begins _ within => exact Nat.le_trans begins within
  | cons begins proper _ induction =>
      exact Nat.le_trans begins (Nat.le_trans (Nat.le_of_lt proper) induction)

theorem head_mem (orderly : Orderly limit offset tokens) : tokens.headD noToken ∈ tokens := by
  cases orderly <;> exact List.mem_cons_self

/-- The first token has something unless it marks the end. -/
theorem head_proper (orderly : Orderly limit offset tokens)
    (further : (tokens.headD noToken).type ≠ .endOfInput) :
    (tokens.headD noToken).start < (tokens.headD noToken).stop := by
  cases orderly with
  | last type => exact absurd type further
  | cons _ proper => exact proper

end Orderly

theorem orderly_of_divides {cursor : Cursor} {tokens : List Token}
    (divides : Lexer.Divides cursor tokens) :
    Orderly (cursor.mark.offset + cursor.rest.length) cursor.mark.offset tokens := by
  induction divides with
  | @last cursor start next gap token stands ended type text =>
      have isWritten : token.written = [] := by
        rw [Token.written, type, text]
        rfl
      have begins := stands.crosses.offset
      have ends := stands.written.offset
      have length := congrArg List.length stands.crosses.rest
      rw [isWritten, ← stands.mark, ← stands.stop] at ends
      rw [← stands.mark] at begins
      rw [ended, List.append_nil] at length
      refine .last type ?_ ends ?_ <;> rw [Token.start] <;> omega
  | @cons cursor start next gap token rest stands whole _ _ induction =>
      have begins := stands.crosses.offset
      have ends := stands.written.offset
      have length := congrArg List.length stands.crosses.rest
      have written := congrArg List.length stands.written.rest
      have some := List.length_pos_iff.mpr whole.notEmpty
      rw [← stands.mark, ← stands.stop] at ends
      rw [← stands.mark] at begins
      rw [List.length_append] at length written
      have limit :
          next.mark.offset + next.rest.length = cursor.mark.offset + cursor.rest.length := by
        rw [← stands.stop]
        omega
      rw [limit, ← stands.stop] at induction
      refine .cons ?_ ?_ induction <;> rw [Token.start] <;> omega

def State.reach (state : State) : Nat :=
  state.previous.elim 0 Token.stop

/-- The tokens left of a source stand in order after the offset that is reached. -/
def State.Orderly (state : State) : Prop :=
  Grammar.Orderly state.source.text.length state.reach state.tokens

/-- Nodes are laid one after another from an offset on, and no token before it is left. -/
structure Read (start : Nat) (nodes : List Node) (state : State) : Prop where
  orderly : state.Orderly
  here : ∀ token ∈ state.tokens, start ≤ token.start
  laid : Laid state.reach start (nodes.map toFormer)
  nested : ∀ node ∈ nodes, node.Nested

/-- The same, and something has been taken since. -/
structure Took (start : Nat) (nodes : List Node) (state : State) : Prop
    extends Read start nodes state where
  further : start < state.reach

theorem Took.last {start : Nat} {nodes : List Node} {state : State} (took : Took start nodes state)
    (token : Token) : (state.previous.getD token).stop = state.reach := by
  have further := took.further
  cases isPrevious : state.previous with
  | none =>
      rw [State.reach, isPrevious] at further
      exact absurd further (Nat.not_lt_zero _)
  | some last =>
      rw [State.reach, isPrevious]
      rfl

/-- What it is to have read a token: it is reached, and those left are after it. -/
structure Passes (state : State) (token : Token) (next : State) : Prop where
  head : token = state.tokens.headD noToken
  reach : next.reach = token.stop
  further : state.reach ≤ token.stop
  orderly : next.Orderly
  drops : ∀ other ∈ next.tokens, other ∈ state.tokens

theorem passes_of_advance {state next : State} {token : Token} (orderly : state.Orderly)
    (ran : advance.run state = .ok (token, next)) : Passes state token next := by
  have drops := (advance_drops ran).2
  have least := orderly.le_start _ orderly.head_mem
  rw [State.Orderly] at orderly
  obtain ⟨source, tokens, previous, noIn, budget⟩ := state
  cases orderly with
  | @last _ token type begins ends within =>
      cases ran
      refine ⟨rfl, rfl, ?_, .last type (Nat.le_of_eq ends) ends within, drops⟩
      exact Nat.le_trans begins (Nat.le_of_eq ends.symm)
  | @cons _ token rest begins proper later =>
      cases rest with
      | nil => cases later
      | cons following rest =>
          cases ran
          exact ⟨rfl, rfl, Nat.le_trans begins (Nat.le_of_lt proper), later, drops⟩

instance {start : Nat} {nodes : List Node} : Lasting (Read start nodes) where
  noIn _ read := ⟨read.orderly, read.here, read.laid, read.nested⟩
  advance := by
    intro state next token read ran
    have passes := passes_of_advance read.orderly ran
    refine ⟨passes.orderly, fun other there => read.here other (passes.drops other there), ?_,
      read.nested⟩
    rw [passes.reach]
    exact read.laid.mono (Nat.le_refl _) passes.further

instance {start : Nat} {nodes : List Node} : Lasting (Took start nodes) where
  noIn noIn took := ⟨Steady.noIn noIn took.toRead, took.further⟩
  advance := by
    intro state next token took ran
    have passes := passes_of_advance took.orderly ran
    refine ⟨Lasting.advance took.toRead ran, ?_⟩
    rw [passes.reach]
    exact Nat.lt_of_lt_of_le took.further passes.further

/-- What a reader gives and leaves together, from a state as given. -/
def Gathers {α : Type} (given : State → Prop) (reader : Reader α) (ensured : α → State → Prop) :
    Prop :=
  ∀ state value left, given state → reader.run state = .ok (value, left) → ensured value left

variable {α β : Type} {given between invariant : State → Prop}
  {ensured : α → State → Prop} {middle : β → State → Prop}

namespace Gathers

theorem of_pure {value : α} (is : ∀ state, given state → ensured value state) :
    Gathers given (pure value) ensured := by
  intro state result left isGiven ran
  cases ran
  exact is state isGiven

theorem of_throw {failure : ParseFailure} : Gathers given (throw failure : Reader α) ensured := by
  intro state result left isGiven ran
  cases ran

theorem of_failAt {cause : ParseError} {token : Token} :
    Gathers given (failAt cause token : Reader α) ensured :=
  .of_throw

theorem bind {first : Reader β} {next : β → Reader α} (begins : Gathers given first middle)
    (ends : ∀ value, Gathers (middle value) (next value) ensured) :
    Gathers given (first >>= next) ensured := by
  intro state result left isGiven ran
  rw [StateT.run_bind] at ran
  cases firstRan : first.run state with
  | error failure =>
      rw [firstRan] at ran
      cases ran
  | ok value =>
      rw [firstRan] at ran
      exact ends value.1 value.2 result left (begins state value.1 value.2 isGiven firstRan) ran

theorem from_state {reader : Reader α} (gathers : Gathers between reader ensured)
    (is : ∀ state, given state → between state) : Gathers given reader ensured :=
  fun state result left isGiven ran => gathers state result left (is state isGiven) ran

/-- Something is known that does not depend on the state. -/
theorem from_fact {fact : Prop} {reader : Reader α}
    (gathers : fact → Gathers given reader ensured) :
    Gathers (fun state => fact ∧ given state) reader ensured :=
  fun state result left isGiven ran => gathers isGiven.1 state result left isGiven.2 ran

theorem mono {other : α → State → Prop} {reader : Reader α}
    (gathers : Gathers given reader ensured)
    (is : ∀ value state, ensured value state → other value state) : Gathers given reader other :=
  fun state result left isGiven ran => is result left (gathers state result left isGiven ran)

/-- Nothing has to be known about what comes before. -/
theorem after [Lasting invariant] {first : Reader β} {next : β → Reader α} [keeps : Keeps first]
    (ends : ∀ value, Gathers invariant (next value) ensured) :
    Gathers invariant (first >>= next) ensured := by
  have begins : Gathers invariant first fun _ => invariant :=
    fun state value left isGiven ran => (keeps.leads invariant state value left isGiven ran).2
  exact bind begins ends

/-- The state does not change. -/
theorem still {first : Reader β} {next : β → Reader α} [still : Still first]
    (ends : ∀ value, Gathers given (next value) ensured) :
    Gathers given (first >>= next) ensured := by
  have begins : Gathers given first fun _ => given := by
    intro state value left isGiven ran
    rw [still.same state value left ran]
    exact isGiven
  exact bind begins ends

theorem ite {condition : Prop} [Decidable condition] {first second : Reader α}
    (whenTrue : condition → Gathers given first ensured)
    (whenFalse : ¬condition → Gathers given second ensured) :
    Gathers given (if condition then first else second) ensured := by
  by_cases is : condition
  · rw [if_pos is]
    exact whenTrue is
  · rw [if_neg is]
    exact whenFalse is

/-- One of two readers, and what comes after both. -/
theorem either {condition : Prop} [Decidable condition] {first second : Reader β}
    {next : β → Reader α} (whenTrue : condition → Gathers given first middle)
    (whenFalse : ¬condition → Gathers given second middle)
    (ends : ∀ value, Gathers (middle value) (next value) ensured) :
    Gathers given (if condition then first >>= next else second >>= next) ensured :=
  .ite (fun is => .bind (whenTrue is) ends) fun isNot => .bind (whenFalse isNot) ends

/-- A reader that may come before. -/
theorem optionally [Lasting invariant] {condition : Prop} [Decidable condition]
    {first : Reader β} {next : Reader α} [Keeps first]
    (gathers : Gathers invariant next ensured) :
    Gathers invariant (if condition then first >>= fun _ => next else next) ensured :=
  .ite (fun _ => .after fun _ => gathers) fun _ => gathers

theorem allowingIn {allowed : Bool} {reader : Reader α} [Steady given]
    [∀ value, Steady (ensured value)] (gathers : Gathers given reader ensured) :
    Gathers given (allowingIn allowed reader) ensured := by
  have sets : ∀ {invariant : State → Prop} [Steady invariant] {change : State → Bool},
      Gathers invariant (modify fun state => { state with noIn := change state } : Reader PUnit)
        (fun _ => invariant) :=
    fun state value left isGiven ran => (setNoIn_leads state value left isGiven ran).2
  refine .still fun saved => .bind sets fun _ => .bind gathers fun value => ?_
  exact .bind sets fun _ => .of_pure fun _ is => is

end Gathers

/-! ### Tokens that are taken -/

/-- What is given, with a token ahead that does not mark the end of input. -/
def Ahead (given : State → Prop) (state : State) : Prop :=
  given state ∧ ¬Exhausted state

/-- What is given, with this token ahead. -/
def Facing (token : Token) (given : State → Prop) (state : State) : Prop :=
  given state ∧ state.tokens.headD noToken = token

/-- A token is taken after some nodes, be it as a node of its own or not. -/
structure TookToken (start : Nat) (nodes : List Node) (token : Token) (state : State) : Prop where
  took : Took start nodes state
  leaf : ∀ type, Took start (nodes ++ [leafOf type token]) state
  reach : state.reach = token.stop

theorem ahead_of_facing {token : Token} (proper : token.type ≠ .endOfInput) (state : State)
    (facing : Facing token given state) : Ahead given state := by
  refine ⟨facing.1, fun exhausted => proper ?_⟩
  rw [← facing.2]
  exact exhausted

/-- What is true of a type, but not of the one that marks the end of input. -/
theorem proper_of {test : TokenType → Bool} {type : TokenType} (holds : test type = true)
    (fails : test .endOfInput = false) : type ≠ .endOfInput := by
  rintro rfl
  rw [fails] at holds
  cases holds

instance {token : Token} [steady : Steady given] : Steady (Facing token given) where
  noIn noIn facing := ⟨steady.noIn noIn facing.1, facing.2⟩

theorem Ahead.imp {state : State} (ahead : Ahead given state) (is : given state → between state) :
    Ahead between state :=
  ⟨is ahead.1, ahead.2⟩

namespace Read

variable {start : Nat} {nodes : List Node} {state : State}

/-- Nothing is gathered yet from the token ahead on. -/
theorem fromHead (read : Read start nodes state) :
    start ≤ (state.tokens.headD noToken).start ∧
      Read (state.tokens.headD noToken).start [] state := by
  refine ⟨read.here _ read.orderly.head_mem, read.orderly, ?_, .nil, nofun⟩
  intro token there
  have orderly := read.orderly
  rw [State.Orderly] at orderly
  obtain ⟨source, tokens, previous, noIn, budget⟩ := state
  cases orderly with
  | last => exact Nat.le_of_eq (congrArg Token.start (List.mem_singleton.mp there)).symm
  | cons begins proper later =>
      rcases List.mem_cons.mp there with rfl | behind
      · exact Nat.le_refl _
      · exact Nat.le_trans (Nat.le_of_lt proper) (later.le_start token behind)

/-- Nothing is gathered yet from the offset that is reached. -/
theorem fresh (read : Read start nodes state) : Read (max start state.reach) [] state := by
  refine ⟨read.orderly, fun token there => ?_, .nil, nofun⟩
  exact Nat.max_le.mpr ⟨read.here token there, read.orderly.le_start token there⟩

/-- What is gathered from where nothing has been read comes after what there is. -/
theorem took_append {next : State} {node : Node} (read : Read start nodes state)
    (took : Took (max start state.reach) [node] next) : Took start (nodes ++ [node]) next := by
  have further : start < next.reach := Nat.lt_of_le_of_lt (Nat.le_max_left _ _) took.further
  refine ⟨⟨took.orderly, fun token there => ?_, ?_, ?_⟩, further⟩
  · exact Nat.le_trans (Nat.le_max_left _ _) (took.here token there)
  · rw [List.map_append]
    exact read.laid.append (Nat.le_max_left _ _) (Nat.le_max_right _ _)
      (Nat.le_of_lt (Nat.lt_of_le_of_lt (Nat.le_max_right _ _) took.further)) took.laid
  · exact List.forall_mem_append.mpr ⟨read.nested, took.nested⟩

end Read

private theorem leaf_laid {stop : Nat} {token : Token} {type : LeafType} (proper
    : token.start < token.stop)
    (ends : token.stop ≤ stop) : Laid stop token.start ([leafOf type token].map toFormer) :=
  .present (Nat.le_refl _) proper ends .nil

theorem took_of_advance {start : Nat} {nodes : List Node} {state next : State} {token : Token}
    (ahead : Ahead (Read start nodes) state) (ran : advance.run state = .ok (token, next)) :
    TookToken start nodes token next := by
  obtain ⟨read, notEnd⟩ := ahead
  have passes := passes_of_advance read.orderly ran
  have proper := read.orderly.head_proper notEnd
  have begins := read.here _ read.orderly.head_mem
  have least := read.orderly.le_start _ read.orderly.head_mem
  rw [← passes.head] at proper begins least
  have took : Took start nodes next := by
    refine ⟨Lasting.advance read ran, ?_⟩
    rw [passes.reach]
    exact Nat.lt_of_le_of_lt begins proper
  refine ⟨took, fun type => ⟨⟨took.orderly, took.here, ?_, ?_⟩, took.further⟩, passes.reach⟩
  · rw [List.map_append, passes.reach]
    exact read.laid.append begins least passes.further (leaf_laid proper (Nat.le_refl _))
  · exact List.forall_mem_append.mpr ⟨read.nested, List.forall_mem_singleton.mpr .leaf⟩

namespace Gathers

variable {start : Nat} {nodes : List Node}

theorem took {reader : Reader α} (gathers : Gathers (Read start nodes) reader ensured) :
    Gathers (Took start nodes) reader ensured :=
  gathers.from_state fun _ took => took.toRead

/-- The token that is ahead does not matter. -/
theorem unfaced {token : Token} {reader : Reader α} (gathers : Gathers given reader ensured) :
    Gathers (Facing token given) reader ensured :=
  gathers.from_state fun _ facing => facing.1

/-- The token that was taken is a node. -/
theorem leaf {token : Token} {reader : Reader α} (type : LeafType)
    (gathers : Gathers (Took start (nodes ++ [leafOf type token])) reader ensured) :
    Gathers (TookToken start nodes token) reader ensured :=
  gathers.from_state fun _ tookToken => tookToken.leaf type

/-- The token that was taken is no node. -/
theorem past {token : Token} {reader : Reader α}
    (gathers : Gathers (Took start nodes) reader ensured) :
    Gathers (TookToken start nodes token) reader ensured :=
  gathers.from_state fun _ tookToken => tookToken.took

/-- A token is ahead and is taken. -/
theorem advance {next : Token → Reader α} (reads : ∀ state, given state → Read start nodes state)
    (ends : ∀ token, Gathers (TookToken start nodes token) (next token) ensured) :
    Gathers (Ahead given) (advance >>= next) ensured :=
  .bind (fun state _ _ ahead ran => took_of_advance (ahead.imp (reads state)) ran) ends

/-- The token that is ahead is taken. -/
theorem advance_facing {token : Token} {next : Token → Reader α}
    (reads : ∀ state, given state → Read start nodes state) (proper : token.type ≠ .endOfInput)
    (ends : Gathers (TookToken start nodes token) (next token) ensured) :
    Gathers (Facing token given) (Grammar.advance >>= next) ensured := by
  have begins : Gathers (Facing token given) Grammar.advance
      fun value state => value = token ∧ TookToken start nodes token state := by
    intro state value left facing ran
    have ahead := (ahead_of_facing proper state facing).imp (reads state)
    have isToken : value = token :=
      (passes_of_advance ahead.1.orderly ran).head.trans facing.2
    rw [← isToken]
    exact ⟨rfl, took_of_advance ahead ran⟩
  refine .bind begins fun value state result left is ran => ?_
  obtain ⟨rfl, tookToken⟩ := is
  exact ends state result left tookToken ran

/-- The token from which nothing is gathered yet is taken. -/
theorem take_facing {token : Token} {next : Token → Reader α} (proper : token.type ≠ .endOfInput)
    (ends : Gathers (TookToken token.start [] token) (next token) ensured) :
    Gathers (Facing token (Read token.start [])) (Grammar.advance >>= next) ensured :=
  .advance_facing (fun _ => id) proper ends

theorem current {next : Token → Reader α}
    (ends : ∀ token, Gathers (Facing token given) (next token) ensured) :
    Gathers given (current >>= next) ensured := by
  have begins : Gathers given Grammar.current fun token => Facing token given := by
    intro state token left isGiven ran
    cases ran
    exact ⟨isGiven, rfl⟩
  exact .bind begins ends

/-- The current token is the one that is ahead. -/
theorem current_facing {token : Token} {next : Token → Reader α}
    (ends : Gathers (Facing token given) (next token) ensured) :
    Gathers (Facing token given) (Grammar.current >>= next) ensured := by
  intro state value left facing ran
  rw [StateT.run_bind] at ran
  have ranAs : Grammar.current.run state = .ok (state.tokens.headD noToken, state) := rfl
  rw [ranAs, facing.2] at ran
  exact ends state value left facing ran

/-- A token that is found is ahead. -/
theorem checked {types : List TokenType} {next : Bool → Reader α}
    (without : types.contains .endOfInput = false)
    (whenTrue : Gathers (Ahead given) (next true) ensured)
    (whenFalse : Gathers given (next false) ensured) :
    Gathers given (check types >>= next) ensured := by
  intro state value left isGiven ran
  rw [StateT.run_bind] at ran
  have ranAs : (Grammar.check types).run state =
      .ok (types.contains (state.tokens.headD noToken).type, state) := rfl
  rw [ranAs] at ran
  cases found : types.contains (state.tokens.headD noToken).type with
  | false =>
      rw [found] at ran
      exact whenFalse state value left isGiven ran
  | true =>
      rw [found] at ran
      refine whenTrue state value left ⟨isGiven, fun exhausted => ?_⟩ ran
      rw [Exhausted] at exhausted
      rw [exhausted, without] at found
      cases found

/-- A token that is accepted is taken. -/
theorem accepted {type : TokenType} {next : Bool → Reader α} (named : type ≠ .endOfInput)
    (reads : ∀ state, given state → Read start nodes state)
    (whenTrue : Gathers (Took start nodes) (next true) ensured)
    (whenFalse : Gathers given (next false) ensured) :
    Gathers given (accept type >>= next) ensured := by
  have accepts : Gathers given (accept type) fun found state =>
      if found then Took start nodes state else given state := by
    refine .current fun token => .ite (fun isType => ?_) fun _ => .of_pure fun _ facing => facing.1
    refine .advance_facing reads (isType ▸ named) (.of_pure fun _ tookToken => tookToken.took)
  refine .bind accepts fun found => ?_
  cases found with
  | false => exact whenFalse
  | true => exact whenTrue

theorem expectOr {type : TokenType} {cause : Token → ParseError} {next : Token → Reader α}
    (named : type ≠ .endOfInput)
    (ends : ∀ token, Gathers (TookToken start nodes token) (next token) ensured) :
    Gathers (Read start nodes) (expectOr type cause >>= next) ensured := by
  have begins :
      Gathers (Read start nodes) (Grammar.expectOr type cause) (TookToken start nodes) := by
    refine .current fun token => .ite (fun isType => ?_) fun _ => .of_failAt
    intro state value left facing ran
    exact took_of_advance (ahead_of_facing (isType ▸ named) state facing) ran
  exact .bind begins ends

end Gathers

end Grammar

end ScriptFold
