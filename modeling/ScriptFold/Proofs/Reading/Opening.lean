import ScriptFold.Proofs.Reading.Runs
import ScriptFold.Proofs.Token.Fixed

/-!
# How expressions open

An arrow function is told from other expressions by looking ahead, past a name or past
matching parentheses.  Words of an expression that is no arrow function never look like one.
-/

namespace ScriptFold

namespace Grammar

open Word

/-- Every parenthesis among the words is matched there. -/
def Balanced (words : List Word) : Prop :=
  ∀ depth tokens rest, 0 < depth → Spelled words tokens rest →
    afterMatchingParen depth tokens = afterMatchingParen depth rest

namespace Balanced

theorem nil : Balanced [] := by
  rintro depth tokens rest _ rfl
  rfl

theorem append {first second : List Word} (firstIs : Balanced first) (secondIs : Balanced second) :
    Balanced (first ++ second) := by
  intro depth tokens rest inside spelled
  obtain ⟨middle, firstSpelled, secondSpelled⟩ := Spelled.append_iff.mp spelled
  exact (firstIs depth _ _ inside firstSpelled).trans (secondIs depth _ _ inside secondSpelled)

/-- A word that is no parenthesis. -/
theorem cons {word : Word} {words : List Word}
    (plain : word.type ∉ [.openParen, .closeParen, .endOfInput]) (balanced : Balanced words) :
    Balanced (word :: words) := by
  rintro depth tokens rest inside ⟨token, others, rfl, isWord, spelled⟩
  rw [← isWord.type] at plain
  simp only [List.mem_cons, List.not_mem_nil, or_false, not_or] at plain
  rw [afterMatchingParen]
  split
  case h_1 isOpen => exact absurd isOpen plain.1
  case h_2 isClose => exact absurd isClose plain.2.1
  case h_3 isEnd => exact absurd isEnd plain.2.2
  case h_4 => exact balanced depth others rest inside spelled

/-- What the parenthesis after balanced words closes. -/
theorem closes {inner : List Word} (balanced : Balanced inner) {words : List Word}
    {tokens rest : List Token} (depth : Nat)
    (spelled : Spelled (fixed .openParen false :: (inner ++ fixed .closeParen false :: words))
      tokens rest) :
    ∃ middle, Spelled words middle rest ∧ afterMatchingParen depth tokens =
      if depth = 0 then some middle else afterMatchingParen depth middle := by
  obtain ⟨opener, others, rfl, isOpener, spelled⟩ := spelled
  obtain ⟨between, innerSpelled, closer, middle, rfl, isCloser, spelled⟩ :=
    Spelled.append_iff.mp spelled
  refine ⟨middle, spelled, ?_⟩
  have opens : opener.type = .openParen := isOpener.type
  have closes : closer.type = .closeParen := isCloser.type
  simp only [afterMatchingParen, opens, closes,
    balanced (depth + 1) _ _ (Nat.succ_pos depth) innerSpelled, Nat.add_eq_right,
    Nat.add_sub_cancel]

theorem enclosed {inner words : List Word} (balanced : Balanced inner) (after : Balanced words) :
    Balanced (fixed .openParen false :: (inner ++ fixed .closeParen false :: words)) := by
  intro depth tokens rest inside spelled
  obtain ⟨middle, spelled, closed⟩ := balanced.closes depth spelled
  rw [closed, if_neg (Nat.pos_iff_ne_zero.mp inside)]
  exact after depth middle rest inside spelled

end Balanced

/-- Words after a name or a closing parenthesis that do not make an arrow function of it. -/
inductive Continues : List Word → Prop where
  | nil : Continues []
  | link {word : Word} {words : List Word} :
      word.type ∉ [.arrow, .ident, .openParen, .colon, .kwFunction] → Continues (word :: words)
  | call {inner words : List Word} : Balanced inner → Continues words →
      Continues (fixed .openParen false :: (inner ++ fixed .closeParen false :: words))

/-- Words of an expression that is no arrow function. -/
inductive Opens : List Word → Prop where
  | other {word : Word} {words : List Word} : word.type ≠ .ident → word.type ≠ .openParen →
      Opens (word :: words)
  | name {word : Word} {words : List Word} : word.type = .ident → Continues words →
      Opens (word :: words)
  | group {inner words : List Word} : Balanced inner → Continues words →
      Opens (fixed .openParen false :: (inner ++ fixed .closeParen false :: words))

theorem Continues.append {words more : List Word} (continues : Continues words)
    (goesOn : Continues more) : Continues (words ++ more) := by
  induction continues with
  | nil => exact goesOn
  | link notArrow => exact .link notArrow
  | call balanced _ induction =>
      rw [List.cons_append, List.append_assoc, List.cons_append]
      exact .call balanced induction

theorem Opens.append {words more : List Word} (opens : Opens words) (goesOn : Continues more) :
    Opens (words ++ more) := by
  cases opens with
  | other notName notOpen => exact .other notName notOpen
  | name isName continues => exact .name isName (continues.append goesOn)
  | group balanced continues =>
      rw [List.cons_append, List.append_assoc, List.cons_append]
      exact .group balanced (continues.append goesOn)

/-- The next token does not make an arrow function of what stands before it. -/
def NoArrow (tokens : List Token) : Prop :=
  ∃ token rest, tokens = token :: rest ∧ token.type ∉ [.arrow, .ident, .openParen]

theorem startsWithArrow_of_type {token : Token} (notArrow : token.type ≠ .arrow)
    (rest : List Token) : startsWithArrow (token :: rest) = false := by
  simp [startsWithArrow, notArrow]

theorem Continues.not_arrow {words : List Word} (continues : Continues words)
    {tokens rest : List Token} (spelled : Spelled words tokens rest) (stops : NoArrow rest) :
    ∃ token others, tokens = token :: others ∧ token.type ≠ .ident ∧
      startsWithArrow tokens = false ∧
      (token.type = .openParen → (afterMatchingParen 0 tokens).any startsWithArrow = false) := by
  induction continues generalizing tokens with
  | nil =>
      obtain rfl : tokens = rest := spelled
      obtain ⟨token, others, rfl, notArrow⟩ := stops
      simp only [List.mem_cons, List.not_mem_nil, or_false, not_or] at notArrow
      exact ⟨token, others, rfl, notArrow.2.1, startsWithArrow_of_type notArrow.1 others,
        fun isOpen => absurd isOpen notArrow.2.2⟩
  | link notArrow =>
      obtain ⟨token, others, rfl, isWord, _⟩ := spelled
      rw [← isWord.type] at notArrow
      simp only [List.mem_cons, List.not_mem_nil, or_false, not_or] at notArrow
      exact ⟨token, others, rfl, notArrow.2.1, startsWithArrow_of_type notArrow.1 others,
        fun isOpen => absurd isOpen notArrow.2.2.1⟩
  | call balanced _ induction =>
      obtain ⟨middle, restSpelled, closed⟩ := balanced.closes 0 spelled
      obtain ⟨token, others, rfl, isWord, _⟩ := spelled
      have isOpen : token.type = .openParen := isWord.type
      obtain ⟨_, _, _, _, notArrow, _⟩ := induction restSpelled
      refine ⟨token, others, rfl, by rw [isOpen]; nofun, startsWithArrow_of_type ?_ others, ?_⟩
      · rw [isOpen]
        nofun
      · intro _
        rw [closed, if_pos rfl]
        exact notArrow

/-- Whether a name or parentheses with an arrow after them stand first. -/
def arrowFrom : List Token → Bool
  | token :: rest =>
      match token.type with
      | .ident => startsWithArrow rest
      | .openParen => (afterMatchingParen 0 (token :: rest)).any startsWithArrow
      | _ => false
  | [] => false

theorem arrowFrom_other {token : Token} (notName : token.type ≠ .ident)
    (notOpen : token.type ≠ .openParen) (rest : List Token) : arrowFrom (token :: rest) = false := by
  rw [arrowFrom]
  split
  case h_1 isName => exact absurd isName notName
  case h_2 isOpen => exact absurd isOpen notOpen
  case h_3 => rfl

/-- Whether a word before them makes the first token one of two that begin an arrow function. -/
def asyncAt (tokens : List Token) : Bool :=
  let next := tokens[1]?.getD (tokens.getLastD noToken)
  (tokens.headD noToken).isNamed "async" && !next.newlineBefore
    && (next.type == .ident || next.type == .openParen)

private theorem run_isArrowStart (state : State) :
    isArrowStart.run state = .ok (let next := match state.tokens[1]? with
         | some token => token
         | none => state.tokens.getLastD noToken
       let isAsync := (state.tokens.headD noToken).isNamed "async" && !next.newlineBefore
         && (next.type == .ident || next.type == .openParen)
       arrowFrom (if isAsync then state.tokens.tail else state.tokens), state) := rfl

theorem isArrowStart_steps (tokens : List Token) :
    Steps isArrowStart tokens (arrowFrom (if asyncAt tokens then tokens.tail else tokens))
      tokens := by
  intro state ready
  refine ⟨state, ?_, ready⟩
  rw [← ready.left, run_isArrowStart, asyncAt]
  cases state.tokens[1]? <;> rfl

theorem asyncAt_of_not_name {token : Token} (notName : token.type ≠ .ident) (rest : List Token) :
    asyncAt (token :: rest) = false := by
  simp [asyncAt, Token.isNamed, notName]

/-- An expression that is no arrow function does not look like one. -/
theorem Opens.not_arrow {words : List Word} (opens : Opens words) {tokens rest : List Token}
    (spelled : Spelled words tokens rest) (stops : NoArrow rest) :
    Steps isArrowStart tokens false tokens := by
  have steps := isArrowStart_steps tokens
  suffices arrowFrom (if asyncAt tokens then tokens.tail else tokens) = false by
    rwa [this] at steps
  clear steps
  cases opens with
  | other notName notOpen =>
      obtain ⟨token, others, rfl, isWord, _⟩ := spelled
      rw [← isWord.type] at notName notOpen
      rw [asyncAt_of_not_name notName]
      exact arrowFrom_other notName notOpen others
  | group balanced continues =>
      obtain ⟨middle, restSpelled, closed⟩ := balanced.closes 0 spelled
      obtain ⟨token, others, rfl, isWord, _⟩ := spelled
      have isOpen : token.type = .openParen := isWord.type
      obtain ⟨_, _, _, _, notArrow, _⟩ := continues.not_arrow restSpelled stops
      rw [asyncAt_of_not_name (by rw [isOpen]; nofun)]
      simp only [Bool.false_eq_true, if_false, arrowFrom, isOpen, closed, if_true, Option.any_some,
        notArrow]
  | name isName continues =>
      obtain ⟨token, others, rfl, isWord, spelled⟩ := spelled
      have isIdent : token.type = .ident := isWord.type.trans isName
      obtain ⟨next, others, rfl, notName, notArrow, notCall⟩ := continues.not_arrow spelled stops
      have afterName : arrowFrom (token :: next :: others) = false := by
        rw [arrowFrom, isIdent]
        exact notArrow
      have afterAsync : arrowFrom (next :: others) = false := by
        by_cases isOpen : next.type = .openParen
        · rw [arrowFrom, isOpen]
          exact notCall isOpen
        · exact arrowFrom_other notName isOpen others
      split
      · exact afterAsync
      · exact afterName

/-- Parameters in parentheses before an arrow on the same line. -/
theorem isArrowStart_parameters {inner words : List Word} (balanced : Balanced inner)
    {tokens rest : List Token}
    (spelled : Spelled (fixed .openParen false ::
      (inner ++ fixed .closeParen false :: fixed .arrow true :: words)) tokens rest) :
    Steps isArrowStart tokens true tokens := by
  have steps := isArrowStart_steps tokens
  suffices arrowFrom (if asyncAt tokens then tokens.tail else tokens) = true by
    rwa [this] at steps
  obtain ⟨middle, restSpelled, closed⟩ := balanced.closes 0 spelled
  obtain ⟨arrow, _, rfl, isArrow, _⟩ := restSpelled
  obtain ⟨token, others, rfl, isWord, _⟩ := spelled
  have isOpen : token.type = .openParen := isWord.type
  have arrowType : arrow.type = .arrow := isArrow.type
  have onLine : arrow.newlineBefore = false := isArrow.joined rfl
  rw [asyncAt_of_not_name (by rw [isOpen]; nofun)]
  simp only [Bool.false_eq_true, if_false, arrowFrom, isOpen, closed, if_true, Option.any_some,
    startsWithArrow, arrowType, onLine]
  rfl

/-- No label and no function stand in front of the words. -/
def Unlabeled (words : List Word) : Prop :=
  ∀ first second others, words = first :: second :: others → first.type = .ident →
    second.type ≠ .colon ∧ second.type ≠ .kwFunction

theorem Opens.unlabeled {words : List Word} (opens : Opens words) : Unlabeled words := by
  intro first second others isWords isName
  cases opens with
  | other notName _ =>
      cases isWords
      exact absurd isName notName
  | group =>
      obtain ⟨rfl, _⟩ := List.cons.inj isWords
      cases isName
  | name _ continues =>
      obtain ⟨rfl, isRest⟩ := List.cons.inj isWords
      cases continues with
      | nil => cases isRest
      | link notArrow =>
          obtain ⟨rfl, _⟩ := List.cons.inj isRest
          simp only [List.mem_cons, List.not_mem_nil, or_false, not_or] at notArrow
          exact notArrow.2.2.2
      | call =>
          obtain ⟨rfl, _⟩ := List.cons.inj isRest
          exact ⟨nofun, nofun⟩

theorem Unlabeled.append {words more : List Word} (unlabeled : Unlabeled words)
    (notEmpty : words ≠ []) {word : Word} (isNext : more.head? = some word)
    (plain : word.type ≠ .colon ∧ word.type ≠ .kwFunction) : Unlabeled (words ++ more) := by
  rintro first second others isWords isName
  match words, notEmpty with
  | [only], _ =>
      cases isWords
      cases isNext
      exact plain
  | one :: two :: rest, _ =>
      cases isWords
      exact unlabeled first second rest rfl isName

end Grammar

end ScriptFold
