import ScriptFold.Proofs.Reading.Ending

/-!
# Readers make progress

Reading moves forward only, and never past the last token.  Every reader of the grammar that
gives anything has moved by at least one token: as long as two tokens are left one of them is
read, and of the end of input nothing is given.
-/

namespace ScriptFold

namespace Grammar

/-- The tokens left are some of the last of these. -/
def Among (tokens : List Token) (state : State) : Prop :=
  ∃ count, count < tokens.length ∧ state.tokens = tokens.drop count

/-- The tokens left are some of the last of these, and not all. -/
def Beyond (tokens : List Token) (state : State) : Prop :=
  ∃ count, 0 < count ∧ count < tokens.length ∧ state.tokens = tokens.drop count

variable {tokens : List Token} {state : State}

theorem Beyond.among (beyond : Beyond tokens state) : Among tokens state := by
  obtain ⟨count, _, within, isRest⟩ := beyond
  exact ⟨count, within, isRest⟩

theorem Among.of_tokens (some : tokens ≠ []) (isTokens : state.tokens = tokens) :
    Among tokens state :=
  ⟨0, List.length_pos_iff.mpr some, isTokens⟩

/-- Reading a token drops it, unless it is the last one. -/
theorem tokens_of_advance {state next : State} {token : Token}
    (ran : advance.run state = .ok (token, next)) :
    next.tokens = state.tokens.drop 1 ∧ next.tokens ≠ [] ∨ next.tokens = state.tokens := by
  cases ran
  cases state.tokens with
  | nil => exact .inr rfl
  | cons first rest =>
      cases rest with
      | nil => exact .inr rfl
      | cons second rest => exact .inl ⟨rfl, List.cons_ne_nil _ _⟩

theorem length_of_drop {count : Nat} (some : tokens.drop count ≠ []) : count < tokens.length := by
  exact Nat.lt_of_not_le fun outside => some (List.drop_eq_nil_of_le outside)

instance : Lasting (Among tokens) where
  noIn _ among := among
  advance := by
    rintro state next token ⟨count, within, isRest⟩ ran
    obtain ⟨drops, notEmpty⟩ | same := tokens_of_advance ran
    · rw [isRest, List.drop_drop] at drops
      rw [drops] at notEmpty
      exact ⟨count + 1, length_of_drop notEmpty, drops⟩
    · exact ⟨count, within, same.trans isRest⟩

instance : Lasting (Beyond tokens) where
  noIn _ beyond := beyond
  advance := by
    rintro state next token ⟨count, moved, within, isRest⟩ ran
    obtain ⟨drops, notEmpty⟩ | same := tokens_of_advance ran
    · rw [isRest, List.drop_drop] at drops
      rw [drops] at notEmpty
      exact ⟨count + 1, Nat.succ_pos _, length_of_drop notEmpty, drops⟩
    · exact ⟨count, moved, within, same.trans isRest⟩

instance : Steady (·.tokens = tokens) where
  noIn _ isTokens := isTokens

/-- Readers that keep all that lasts, and read a token if there are two. -/
class Takes {α : Type} (reader : Reader α) : Prop where
  keeps : Keeps reader
  moves : ∀ first second rest, Leads (·.tokens = first :: second :: rest) reader (fun _ => True)
    (Beyond (first :: second :: rest))

variable {α β : Type}

instance (priority := low) {reader : Reader α} [takes : Takes reader] : Keeps reader :=
  takes.keeps

/-! ### How readers are put together -/

/-- A reader that has moved goes on from there. -/
instance {first : Reader β} {next : β → Reader α} [takes : Takes first]
    [ends : ∀ value, Keeps (next value)] : Takes (first >>= next) where
  keeps := inferInstance
  moves token second rest :=
    .bind (takes.moves token second rest) fun value _ => (ends value).leads _

/-- Of two tokens or more, one has been read before or is read now. -/
theorem Takes.among {reader : Reader α} [takes : Takes reader] (first second : Token)
    (rest : List Token) : Leads (Among (first :: second :: rest)) reader (fun _ => True)
      (Beyond (first :: second :: rest)) := by
  rintro state value after ⟨count, within, isRest⟩ ran
  cases count with
  | zero => exact takes.moves first second rest state value after isRest ran
  | succ count =>
      have beyond : Beyond (first :: second :: rest) state :=
        ⟨count + 1, Nat.succ_pos _, within, isRest⟩
      exact takes.keeps.leads _ state value after beyond ran

/-- A reader moves if what comes after it does, wherever it has moved before. -/
instance (priority := low) {first : Reader β} {next : β → Reader α} [keeps : Keeps first]
    [ends : ∀ value, Takes (next value)] : Takes (first >>= next) where
  keeps := inferInstance
  moves token second rest := by
    have begins : Leads (·.tokens = token :: second :: rest) first (fun _ => True)
        (Among (token :: second :: rest)) :=
      (keeps.leads _).from_state fun _ => .of_tokens (List.cons_ne_nil _ _)
    exact .bind begins fun value _ => (ends value).among token second rest

theorem Takes.bind {first : Reader β} {next : β → Reader α} [Takes first]
    (ends : ∀ value, Keeps (next value)) : Takes (first >>= next) :=
  inferInstance

theorem Takes.after {first : Reader β} {next : β → Reader α} [Keeps first]
    (ends : ∀ value, Takes (next value)) : Takes (first >>= next) :=
  inferInstance

theorem Keeps.bind {first : Reader β} {next : β → Reader α} [Keeps first]
    (ends : ∀ value, Keeps (next value)) : Keeps (first >>= next) :=
  inferInstance

instance {condition : Prop} [Decidable condition] {first second : Reader α}
    [whenTrue : Takes first] [whenFalse : Takes second] :
    Takes (if condition then first else second) := by
  split <;> assumption

instance {failure : ParseFailure} : Takes (throw failure : Reader α) where
  keeps := inferInstance
  moves _ _ _ := .of_throw

instance {cause : ParseError} {token : Token} : Takes (failAt cause token : Reader α) :=
  inferInstanceAs (Takes (throw _))

theorem advance_moves (first second : Token) (rest : List Token) :
    Leads (·.tokens = first :: second :: rest) advance (fun _ => True)
      (Beyond (first :: second :: rest)) := by
  intro state value after isTokens ran
  refine ⟨trivial, 1, Nat.one_pos, Nat.succ_lt_succ (Nat.succ_pos _), ?_⟩
  cases ran
  rw [isTokens]
  rfl

instance : Takes advance where
  keeps := inferInstance
  moves := advance_moves

instance {type : TokenType} {cause : Token → ParseError} : Takes (expectOr type cause) := by
  unfold expectOr
  infer_instance

instance {type : TokenType} : Takes (expect type) :=
  inferInstanceAs (Takes (expectOr type _))

/-- An optional token either is read, or something else is. -/
instance {type : TokenType} {found other : Reader α} [Keeps found] [takes : Takes other] :
    Takes (do if ← accept type then found else other) where
  keeps := inferInstance
  moves token second rest := by
    unfold accept
    rw [bind_assoc]
    refine .still fun token => ?_
    split
    · rw [bind_assoc]
      refine .bind (advance_moves _ second rest) fun _ _ => ?_
      have goesOn : Keeps found := inferInstance
      exact goesOn.leads _
    · exact takes.moves _ second rest

theorem finishWith_still (flags : Flags) (kind : Kind) (children : List Node) (start : Token) :
    Still (finishWith flags kind children start) := by
  unfold finishWith
  infer_instance

instance {flags : Flags} {kind : Kind} {children : List Node} {start : Token} :
    Still (finishWith flags kind children start) :=
  finishWith_still flags kind children start

instance {kind : Kind} {children : List Node} {start : Token} :
    Still (finish kind children start) :=
  finishWith_still {} kind children start

instance {allowed : Bool} {reader : Reader α} [keeps : Keeps reader] :
    Keeps (allowingIn allowed reader) where
  leads invariant _ := (keeps.leads invariant).allowingIn

instance {allowed : Bool} {reader : Reader α} [takes : Takes reader] :
    Takes (allowingIn allowed reader) where
  keeps := inferInstance
  moves first second rest := by
    refine .still fun state => .bind setNoIn_leads fun _ _ => ?_
    refine .bind (takes.moves first second rest) fun _ _ => ?_
    exact .bind setNoIn_leads fun _ _ => .of_pure trivial

/-! ### Lists -/

instance {closer : TokenType} {item : Reader α} [keeps : Keeps item] :
    Keeps (commaList closer item) where
  leads invariant _ := (keeps.leads invariant).commaList.mono fun _ _ => trivial

instance {closer : TokenType} {item : Reader Node} [keeps : Keeps item] :
    Keeps (holedList closer item) where
  leads invariant _ := by
    have leads : Leads invariant item (fun _ => True) invariant := keeps.leads invariant
    exact (leads.holedList trivial).mono fun _ _ => trivial

instance {item : Reader α} [Keeps item] (budget : Nat) : Keeps (commaItems.loop item budget) := by
  induction budget with
  | zero => exact inferInstanceAs (Keeps (throw _))
  | succ budget induction =>
      unfold commaItems.loop
      infer_instance

instance {item : Reader α} [takes : Takes item] (budget : Nat) :
    Takes (commaItems.loop item budget) := by
  cases budget with
  | zero => exact inferInstanceAs (Takes (throw _))
  | succ budget =>
      unfold commaItems.loop
      infer_instance

instance {item : Reader α} [Takes item] : Takes (commaItems item) := by
  unfold commaItems
  infer_instance

/-! ### Rules -/

/-- Rules that take a token. -/
class TakingRules (rules : Rules) : Prop where
  statement : Takes rules.statement
  expression : Takes rules.expression
  assignment : Takes rules.assignment
  binary : ∀ least, Takes (rules.binary least)
  unary : Takes rules.unary
  leftHandSide : Takes rules.leftHandSide
  construction : Takes rules.construction
  target : Takes rules.target

attribute [instance] TakingRules.statement TakingRules.expression TakingRules.assignment
  TakingRules.binary TakingRules.unary TakingRules.leftHandSide TakingRules.construction
  TakingRules.target

section Grammar

-- A reader of many steps needs an instance for each of them.
set_option synthInstance.maxSize 1000

variable {rules : Rules} [TakingRules rules]

instance {token : Token} : Still (bindingOf token) :=
  inferInstanceAs (Still (finish _ _ _))

instance : Takes (propertyKey rules) := by
  unfold propertyKey
  refine .after fun token => ?_
  split
  · infer_instance
  · cases token.type <;> infer_instance

instance {start : Token} : Takes (restElement rules start) := by
  unfold restElement
  infer_instance

instance : Takes (parameter rules) := by
  unfold parameter
  infer_instance

instance : Takes (arrayPattern rules) := by
  unfold arrayPattern
  infer_instance

instance : Takes (patternProperty rules) := by
  unfold patternProperty
  infer_instance

instance : Takes (objectPattern rules) := by
  unfold objectPattern
  infer_instance

instance : Takes (bindingTarget rules) := by
  unfold bindingTarget
  refine .after fun token => ?_
  cases token.type <;> infer_instance

instance : Takes (parameters rules) := by
  unfold parameters
  infer_instance

/-! ### Callables -/

instance : Takes (block rules) := by
  unfold block
  infer_instance

instance : Takes (functionBody rules) := by
  unfold functionBody
  infer_instance

instance {types : List TokenType} {required : Bool} {missing : ParseError} :
    Keeps (definedName types required missing) := by
  unfold definedName
  infer_instance

instance {kind : Kind} {nameRequired : Bool} : Takes (function rules kind nameRequired) := by
  unfold function
  infer_instance

instance {start : Token} {key : Node} {mods : Modifiers} {isStatic : Bool} :
    Takes (methodAfter rules start key mods isStatic) := by
  unfold methodAfter
  infer_instance

instance {start : Token} {key : Node} {isStatic : Bool} :
    Keeps (fieldAfter rules start key isStatic) := by
  unfold fieldAfter
  infer_instance

instance {start : Token} {isStatic : Bool} : Takes (keyedMember rules start isStatic) := by
  unfold keyedMember
  infer_instance

instance : Takes (classMember rules) := by
  unfold classMember
  infer_instance

instance : Takes (classBody rules) := by
  unfold classBody
  infer_instance

instance {kind : Kind} {nameRequired : Bool} : Takes (classDefinition rules kind nameRequired) := by
  unfold classDefinition
  infer_instance

/-! ### Expressions -/

instance : Takes (spreadable rules) := by
  unfold spreadable
  infer_instance

instance : Takes (arguments rules) := by
  unfold arguments
  infer_instance

instance (budget : Nat) : Takes (templateParts rules budget) := by
  induction budget with
  | zero => exact inferInstanceAs (Takes (throw _))
  | succ budget induction =>
      unfold templateParts
      infer_instance

instance : Takes (template rules) := by
  unfold template
  infer_instance

instance {optional : Bool} : Takes (propertyName optional) := by
  unfold propertyName
  infer_instance

instance : Takes (bracketed rules) := by
  unfold bracketed
  infer_instance

instance {allowCall : Bool} {start : Token} {object : Node} :
    Keeps (chainLink? rules allowCall start object) := by
  unfold chainLink?
  refine .bind fun token => ?_
  cases token.type <;> infer_instance

instance {allowCall : Bool} {start : Token} (budget : Nat) {object : Node} :
    Keeps (chainFrom rules allowCall start budget object) := by
  induction budget generalizing object with
  | zero => exact inferInstanceAs (Keeps (throw _))
  | succ budget induction =>
      unfold chainFrom
      refine .bind fun link => ?_
      cases link <;> infer_instance

instance {allowCall : Bool} {start : Token} {object : Node} :
    Keeps (chain rules allowCall start object) := by
  unfold chain
  infer_instance

instance {start : Token} {word : String} : Takes (metaProperty start word) := by
  unfold metaProperty
  infer_instance

instance : Takes (arrayLiteral rules) := by
  unfold arrayLiteral
  infer_instance

instance : Takes (objectMember rules) := by
  unfold objectMember
  have shorthand : ∀ (start : Token) (key : Node), Keeps (match key with
    | .leaf ⟨.name, _, _⟩ => do
        let ident ← finish .ident [key] start
        finish .shorthandProperty [ident] start
    | _ => do failAt .missingColonAfterKey (← current)) := by
    intro start key
    cases key with
    | leaf leaf =>
        obtain ⟨type, _, _⟩ := leaf
        cases type <;> infer_instance
    | _ => infer_instance
  infer_instance

instance : Takes (objectLiteral rules) := by
  unfold objectLiteral
  infer_instance

instance : Takes (importExpression rules) := by
  unfold importExpression
  infer_instance

instance : Takes (parenthesized rules) := by
  unfold parenthesized
  infer_instance

instance : Takes (primary rules) := by
  unfold primary
  refine .after fun token => ?_
  cases token.type <;> infer_instance

instance : Takes (chainHead rules) := by
  unfold chainHead
  infer_instance

instance : Takes (construction rules) := by
  unfold construction
  infer_instance

instance : Takes (leftHandSide rules) := by
  unfold leftHandSide
  infer_instance

instance {kind : Kind} {withOp : Bool} : Takes (prefixed rules kind withOp) := by
  unfold prefixed
  infer_instance

instance : Takes (unary rules) := by
  unfold unary
  infer_instance

instance {least : Nat} {start : Token} (budget : Nat) {left : Node} :
    Keeps (climb rules least start budget left) := by
  induction budget generalizing left with
  | zero => exact inferInstanceAs (Keeps (throw _))
  | succ budget induction =>
      unfold climb
      refine .bind fun operator => ?_
      cases operator <;> infer_instance

instance {least : Nat} : Takes (binary rules least) := by
  unfold binary
  infer_instance

instance {node : Node} : Still (asTarget node) := by
  unfold asTarget
  cases toTarget false node <;> infer_instance

instance : Takes (conditional rules) := by
  unfold conditional
  infer_instance

instance : Takes (yieldExpression rules) := by
  unfold yieldExpression
  infer_instance

instance : Takes (arrowParameters rules) := by
  unfold arrowParameters
  infer_instance

instance : Takes (arrowFunction rules) := by
  unfold arrowFunction
  infer_instance

instance : Takes (assignment rules) := by
  unfold assignment
  infer_instance

instance : Takes (expression rules) := by
  unfold expression
  refine .after fun start => .bind fun items => ?_
  obtain _ | ⟨first, _ | ⟨second, rest⟩⟩ := items <;> infer_instance

/-! ### Statements -/

instance : Takes (declaration rules) := by
  unfold declaration
  infer_instance

instance : Takes (declarationStatement rules) := by
  unfold declarationStatement
  infer_instance

instance : Takes (expressionStatement rules) := by
  unfold expressionStatement
  infer_instance

instance : Takes (parenTest rules) := by
  unfold parenTest
  infer_instance

instance : Takes (ifStatement rules) := by
  unfold ifStatement
  infer_instance

instance : Takes (whileStatement rules) := by
  unfold whileStatement
  infer_instance

instance : Takes (doWhileStatement rules) := by
  unfold doWhileStatement
  infer_instance

instance : Keeps (forInitial rules) := by
  unfold forInitial
  infer_instance

instance {start : Token} {isAwait : Bool} {initial : Node} :
    Takes (forEach rules start isAwait initial) := by
  unfold forEach
  infer_instance

instance {start : Token} {initial : Node} : Takes (forParts rules start initial) := by
  unfold forParts
  infer_instance

instance : Takes (forStatement rules) := by
  unfold forStatement
  infer_instance

instance : Takes (caseTest rules) := by
  unfold caseTest
  infer_instance

instance {switchStart : Token} : Takes (switchCase rules switchStart) := by
  unfold switchCase
  infer_instance

instance : Takes (switchStatement rules) := by
  unfold switchStatement
  infer_instance

instance : Keeps jumpLabel := by
  unfold jumpLabel
  infer_instance

instance : Takes jumpStatement := by
  unfold jumpStatement
  infer_instance

instance : Takes (returnStatement rules) := by
  unfold returnStatement
  infer_instance

instance : Takes (throwStatement rules) := by
  unfold throwStatement
  infer_instance

instance : Takes (catchClause rules) := by
  unfold catchClause
  infer_instance

instance : Takes (tryStatement rules) := by
  unfold tryStatement
  infer_instance

instance {kind : Kind} {start : Token} : Still (rawStatement kind start) := by
  unfold rawStatement
  infer_instance

instance (budget depth : Nat) : Keeps (skipBraces.loop budget depth) :=
  ⟨fun _ _ => skipBraces_loop_leads budget depth⟩

instance : Takes skipBraces := by
  unfold skipBraces
  infer_instance

instance : Takes importDeclaration := by
  unfold importDeclaration
  infer_instance

instance {start : Token} : Keeps (exportDefault rules start) := by
  unfold exportDefault
  infer_instance

instance {start : Token} : Takes (exportList start) := by
  unfold exportList
  infer_instance

instance {start : Token} : Keeps (exportAll start) := by
  unfold exportAll
  infer_instance

instance : Takes (exportStatement rules) := by
  unfold exportStatement
  infer_instance

instance : Takes (withStatement rules) := by
  unfold withStatement
  infer_instance

instance : Takes (labeledStatement rules) := by
  unfold labeledStatement
  infer_instance

instance : Takes (statement rules) := by
  unfold statement
  refine .after fun token => ?_
  cases token.type <;> infer_instance

end Grammar

/-- The rules of every level take a token. -/
instance takingRules_rulesAt (levels : Nat) : TakingRules (rulesAt levels) := by
  induction levels with
  | zero =>
      have refused : Takes (throw .nestingTooDeep : Reader Node) := inferInstance
      exact ⟨refused, refused, refused, fun _ => refused, refused, refused, refused, refused⟩
  | succ levels induction =>
      exact ⟨inferInstanceAs (Takes (statement _)), inferInstanceAs (Takes (expression _)),
        inferInstanceAs (Takes (assignment _)),
        fun least => inferInstanceAs (Takes (binary _ least)),
        inferInstanceAs (Takes (unary _)), inferInstanceAs (Takes (leftHandSide _)),
        inferInstanceAs (Takes (construction _)), inferInstanceAs (Takes (bindingTarget _))⟩

/-! ### Up to the end of input -/

/-- Tokens that end in the only end of input among them. -/
def EndsOnce (tokens : List Token) : Prop :=
  ∃ others last, tokens = others ++ [last] ∧ last.type = .endOfInput ∧
    ∀ token ∈ others, token.type ≠ .endOfInput

theorem EndsOnce.ne_nil (ends : EndsOnce tokens) : tokens ≠ [] := by
  obtain ⟨others, last, rfl, _⟩ := ends
  exact List.append_ne_nil_of_right_ne_nil others (List.cons_ne_nil last [])

theorem EndsOnce.drop (ends : EndsOnce tokens) {count : Nat} (within : count < tokens.length) :
    EndsOnce (tokens.drop count) := by
  obtain ⟨others, last, rfl, isEnd, apart⟩ := ends
  rw [List.length_append, List.length_singleton] at within
  refine ⟨others.drop count, last, ?_, isEnd,
    fun token there => apart token (List.mem_of_mem_drop there)⟩
  rw [List.drop_append_of_le_length (Nat.le_of_lt_succ within)]

/-- Either only the end of input is left, or another token stands before the last one. -/
theorem EndsOnce.cases (ends : EndsOnce tokens) :
    (∃ last, tokens = [last] ∧ last.type = .endOfInput) ∨
      ∃ first second rest, tokens = first :: second :: rest ∧ first.type ≠ .endOfInput := by
  obtain ⟨others, last, rfl, isEnd, apart⟩ := ends
  match others with
  | [] => exact .inl ⟨last, rfl, isEnd⟩
  | [first] => exact .inr ⟨first, last, [], rfl, apart first List.mem_cons_self⟩
  | first :: second :: rest => exact .inr ⟨first, second, _, rfl, apart first List.mem_cons_self⟩

theorem Among.exhausted {last : Token} (isEnd : last.type = .endOfInput)
    (among : Among [last] state) : Exhausted state := by
  obtain ⟨count, within, isRest⟩ := among
  obtain rfl : count = 0 := Nat.lt_one_iff.mp within
  rw [Exhausted, isRest]
  exact isEnd

/-- A reader that has moved whenever it gives something. -/
def Advances (reader : Reader α) : Prop :=
  ∀ tokens, EndsOnce tokens → Leads (Among tokens) reader (fun _ => True) (Beyond tokens)

/-- Whatever takes a token and needs one moves. -/
theorem advances_of_needs {reader : Reader α} [takes : Takes reader] (needs : NeedsToken reader) :
    Advances reader := by
  intro tokens ends
  obtain ⟨last, rfl, isEnd⟩ | ⟨first, second, rest, rfl, _⟩ := ends.cases
  · intro state value after among ran
    exact (needs state value after (among.exhausted isEnd) ran).1.elim
  · exact takes.among first second rest

end Grammar

end ScriptFold
