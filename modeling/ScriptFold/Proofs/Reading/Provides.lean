import ScriptFold.Proofs.Reading.Leads
import ScriptFold.Proofs.Token.Fixed
import ScriptFold.Token.Lexer

/-!
# What readers give for spelled tokens

The operators among the tokens of a text are spelled as the operators they are.  Readers
only ever drop tokens, so this stays true of the tokens that are left, and what a reader
gives may depend on it.
-/

namespace ScriptFold

def Token.IsSpelled (token : Token) : Prop :=
  token.type.isOperator = true → token.text = Text.ofString token.type.spelling

namespace Grammar

def State.IsSpelled (state : State) : Prop :=
  All Token.IsSpelled state.tokens

instance : Lasting State.IsSpelled :=
  .of_drop fun spelled _ drops token there => spelled token (drops token there)

/-- Whatever a reader gives for spelled tokens has a property, and the tokens left are
spelled. -/
abbrev Provides {α : Type} (reader : Reader α) (holds : α → Prop) : Prop :=
  Leads State.IsSpelled reader holds State.IsSpelled

private theorem isSpelled_noToken : noToken.IsSpelled := by
  intro isOperator
  cases isOperator

private theorem isSpelled_headD {tokens : List Token} (spelled : All Token.IsSpelled tokens) :
    (tokens.headD noToken).IsSpelled := by
  cases tokens with
  | nil => exact isSpelled_noToken
  | cons token rest => exact spelled token List.mem_cons_self

theorem current_provides : Provides current Token.IsSpelled := by
  intro state token left spelled ran
  cases ran
  exact ⟨isSpelled_headD spelled, spelled⟩

end Grammar


/-! ### The tokens of a text -/

namespace Lexer

theorem scanOperator_spelled {cursor : Cursor} {opened : List Opener} {result : Scanned}
    (scanned : scanOperator cursor opened = .ok result) :
    result.text = Text.ofString result.type.spelling := by
  simp only [scanOperator] at scanned
  split at scanned
  case h_1 spelling type found =>
    cases scanned
    rw [TokenType.spelling_operators _ (List.mem_of_find?_eq_some found)]
  case h_2 => cases scanned

private theorem not_isOperator_keywords :
    ∀ entry ∈ TokenType.keywords, entry.2.isOperator = false := by
  decide

theorem not_isOperator_wordType (previous : Option TokenType) (word : Text) :
    (wordType previous word).isOperator = false := by
  unfold wordType
  split
  case isTrue => rfl
  case isFalse =>
    unfold TokenType.ofWord
    split
    case h_1 entry found => exact not_isOperator_keywords entry (List.mem_of_find?_eq_some found)
    case h_2 => rfl

/-- Only an operator is spelled in one way. -/
theorem spelled_of_not_operator {type : TokenType} {text : Text}
    (notOperator : type.isOperator = false) (isOperator : type.isOperator = true) :
    text = Text.ofString type.spelling := by
  rw [notOperator] at isOperator
  cases isOperator

/-- An operator is scanned as it is spelled, and no other token is an operator. -/
theorem scanToken_spelled {previous : Option TokenType} {opened : List Opener} {start : Cursor}
    {result : Scanned} (scanned : scanToken previous opened start = .ok result) :
    result.type.isOperator = true → result.text = Text.ofString result.type.spelling := by
  unfold scanToken at scanned
  split at scanned
  case h_1 => cases scanned
  case h_2 point rest _ =>
    split at scanned
    case isTrue =>
      obtain ⟨next, _, scanned⟩ := Calculation.of_bind_eq_ok scanned
      cases scanned
      exact spelled_of_not_operator rfl
    case isFalse =>
      split at scanned
      case isTrue =>
        rcases type_scanPiece scanned with isType | isType <;>
          exact spelled_of_not_operator (by rw [isType]; rfl)
      case isFalse =>
        split at scanned
        case isTrue =>
          obtain ⟨⟨type, next⟩, isNumber, scanned⟩ := Calculation.of_bind_eq_ok scanned
          cases scanned
          rcases scanNumber_type isNumber with rfl | rfl <;> exact spelled_of_not_operator rfl
        case isFalse =>
          split at scanned
          case isTrue =>
            cases scanned
            exact spelled_of_not_operator (not_isOperator_wordType _ _)
          case isFalse =>
            split at scanned
            case isTrue =>
              cases scanned
              exact spelled_of_not_operator rfl
            case isFalse =>
              split at scanned
              case isTrue =>
                obtain ⟨closed, _, scanned⟩ := Calculation.of_bind_eq_ok scanned
                cases scanned
                exact spelled_of_not_operator rfl
              case isFalse =>
                split at scanned
                case isTrue =>
                  rcases type_scanPiece scanned with isType | isType <;>
                    exact spelled_of_not_operator (by rw [isType]; rfl)
                case isFalse => exact fun _ => scanOperator_spelled scanned

theorem tokensFrom_spelled {previous : Option TokenType} {opened : List Opener} {budget : Nat}
    {cursor : Cursor} {tokens : List Token}
    (scanned : tokensFrom previous opened budget cursor = .ok tokens) :
    Grammar.All Token.IsSpelled tokens := by
  induction budget generalizing previous opened cursor tokens with
  | zero =>
      cases scanned
      exact .cons (spelled_of_not_operator rfl) .nil
  | succ budget induction =>
      rw [tokensFrom] at scanned
      obtain ⟨⟨start, newline⟩, _, scanned⟩ := Calculation.of_bind_eq_ok scanned
      simp only at scanned
      split at scanned
      case isTrue =>
        cases scanned
        exact .cons (spelled_of_not_operator rfl) .nil
      case isFalse =>
        obtain ⟨first, isFirst, scanned⟩ := Calculation.of_bind_eq_ok scanned
        obtain ⟨rest, areRest, scanned⟩ := Calculation.of_bind_eq_ok scanned
        cases scanned
        exact .cons (scanToken_spelled isFirst) (induction areRest)

end Lexer

end ScriptFold
