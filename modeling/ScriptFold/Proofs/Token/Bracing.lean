import ScriptFold.Proofs.Token.Whole

/-!
# Braces and substitutions nest

A closing brace is read in two ways, as the end of a block or object and as the end of a
substitution in a template.  The types of the tokens before it say which of the two was opened
last, and it is always that one which it closes.
-/

namespace ScriptFold

open Lexer (Opener)

namespace TokenType

/-- What is open after a token, the innermost first. -/
def leavesOpen (type : TokenType) (opened : List Opener) : List Opener :=
  match type with
  | .openBrace => .brace :: opened
  | .templateHead => .substitution :: opened
  | .templateMiddle => .substitution :: opened.tail
  | .templateTail => opened.tail
  | .closeBrace => opened.tail
  | _ => opened

/-- A token closes what was opened last: a template piece a substitution, and a brace a brace or
nothing at all. -/
structure Closes (type : TokenType) (opened : List Opener) : Prop where
  substitution : type = .templateMiddle ∨ type = .templateTail → opened.head? = some .substitution
  brace : type = .closeBrace → opened.head? = some .brace ∨ opened = []

/-- Whether a token closes or opens something. -/
def isBracing (type : TokenType) : Bool :=
  [.openBrace, .closeBrace, .templateHead, .templateMiddle, .templateTail].contains type

theorem closes_of_not_isBracing {type : TokenType} (plain : type.isBracing = false)
    (opened : List Opener) : type.Closes opened := by
  constructor
  · rintro (rfl | rfl) <;> cases plain
  · rintro rfl
    cases plain

private theorem leavesOpen_of_not_isBracing {type : TokenType} (plain : type.isBracing = false)
    (opened : List Opener) : type.leavesOpen opened = opened := by
  cases type <;> first | rfl | cases plain

private theorem isBracing_ofWord (word : Text) : (ofWord word).isBracing = false := by
  have plain : ∀ entry ∈ keywords, entry.2.isBracing = false := by decide
  rw [ofWord]
  split
  case h_1 entry found => exact plain entry (List.mem_of_find?_eq_some found)
  case h_2 => rfl

/-- Only one operator is the closing brace. -/
theorem operators_closeBrace : ∀ entry ∈ operators, entry.2 = .closeBrace →
    Text.ofString entry.1 = [.char '\x7d'] := by
  decide

theorem operators_not_piece : ∀ entry ∈ operators, entry.2 ≠ .templateHead ∧
    entry.2 ≠ .templateMiddle ∧ entry.2 ≠ .templateTail := by
  decide

end TokenType

/-- What is open after tokens, the innermost first. -/
def openedBy (tokens : List Token) : List Opener :=
  tokens.foldl (fun opened token => token.type.leavesOpen opened) []

namespace Lexer

/-- A scanner keeps track of what its token closes and opens. -/
structure Braces (opened : List Opener) (result : Scanned) : Prop where
  closes : result.type.Closes opened
  openers : result.openers = result.type.leavesOpen opened

theorem braces_of_not_isBracing {type : TokenType} (plain : type.isBracing = false) (text : Text)
    (next : Cursor) (opened : List Opener) : Braces opened ⟨type, text, next, opened⟩ := by
  constructor
  · exact TokenType.closes_of_not_isBracing plain opened
  · exact (TokenType.leavesOpen_of_not_isBracing plain opened).symm

theorem isBracing_wordType (previous : Option TokenType) (word : Text) :
    (wordType previous word).isBracing = false := by
  rw [wordType]
  split
  · rfl
  · exact TokenType.isBracing_ofWord word

/-- The first piece of a template, after its backtick. -/
theorem scanPiece_braces {opened : List Opener} {start : Cursor} {result : Scanned}
    (scanned : scanPiece opened .wholeTemplate .templateHead start = .ok result) :
    Braces opened result := by
  obtain ⟨⟨ending, stop, next⟩, _, scanned⟩ := Calculation.of_bind_eq_ok scanned
  cases ending with
  | closed =>
      cases scanned
      exact braces_of_not_isBracing rfl _ _ _
  | substitution =>
      cases scanned
      exact ⟨⟨nofun, nofun⟩, rfl⟩

/-- A later piece of a template, after the brace that closes a substitution. -/
theorem scanPiece_braces_of_substitution {opened : List Opener} {start : Cursor}
    {result : Scanned} (innermost : opened.head? = some .substitution)
    (scanned : scanPiece opened.tail .templateTail .templateMiddle start = .ok result) :
    Braces opened result := by
  obtain ⟨⟨ending, stop, next⟩, _, scanned⟩ := Calculation.of_bind_eq_ok scanned
  cases ending with
  | closed =>
      cases scanned
      exact ⟨⟨fun _ => innermost, nofun⟩, rfl⟩
  | substitution =>
      cases scanned
      exact ⟨⟨fun _ => innermost, nofun⟩, rfl⟩

/-- An operator closes a brace only where no substitution was opened last. -/
theorem scanOperator_braces {cursor : Cursor} {opened : List Opener} {result : Scanned}
    (notPiece : startsIn (·.is '\x7d') cursor.rest = true → opened.head? ≠ some .substitution)
    (scanned : scanOperator cursor opened = .ok result) : Braces opened result := by
  unfold scanOperator at scanned
  dsimp only at scanned
  split at scanned
  case h_2 => cases scanned
  case h_1 spelling type found =>
    have there := List.mem_of_find?_eq_some found
    have written := List.find?_some found
    obtain ⟨notHead, notMiddle, notTail⟩ := TokenType.operators_not_piece _ there
    cases scanned
    constructor
    · constructor
      · rintro (isMiddle | isTail)
        · exact absurd isMiddle notMiddle
        · exact absurd isTail notTail
      · intro isBrace
        have starts : startsIn (·.is '\x7d') cursor.rest = true := by
          rw [Bool.and_eq_true] at written
          obtain ⟨more, isRest⟩ := List.isPrefixOf_iff_prefix.mp written.1
          rw [← isRest, TokenType.operators_closeBrace _ there isBrace]
          rfl
        cases opened with
        | nil => exact .inr rfl
        | cons opener opened =>
            cases opener with
            | brace => exact .inl rfl
            | substitution => exact absurd rfl (notPiece starts)
    · cases type <;> first | rfl | contradiction

/-- One token closes what was opened last, and leaves open what its type says. -/
theorem scanToken_braces {previous : Option TokenType} {opened : List Opener} {start : Cursor}
    {result : Scanned} (scanned : scanToken previous opened start = .ok result) :
    Braces opened result := by
  unfold scanToken at scanned
  split at scanned
  case h_1 => cases scanned
  case h_2 point rest isRest =>
    split at scanned
    case isTrue =>
      obtain ⟨next, _, scanned⟩ := Calculation.of_bind_eq_ok scanned
      cases scanned
      exact braces_of_not_isBracing rfl _ _ _
    split at scanned
    case isTrue => exact scanPiece_braces scanned
    split at scanned
    case isTrue =>
      obtain ⟨⟨type, next⟩, isNumber, scanned⟩ := Calculation.of_bind_eq_ok scanned
      cases scanned
      have plain : type.isBracing = false := by
        rcases scanNumber_type isNumber with rfl | rfl <;> rfl
      exact braces_of_not_isBracing plain _ _ _
    split at scanned
    case isTrue =>
      cases scanned
      exact braces_of_not_isBracing (isBracing_wordType previous _) _ _ _
    split at scanned
    case isTrue =>
      cases scanned
      exact braces_of_not_isBracing rfl _ _ _
    split at scanned
    case isTrue =>
      obtain ⟨closed, _, scanned⟩ := Calculation.of_bind_eq_ok scanned
      cases scanned
      exact braces_of_not_isBracing rfl _ _ _
    split at scanned
    case isTrue isPiece =>
      have innermost := (Bool.and_eq_true_iff.mp isPiece).2
      exact scanPiece_braces_of_substitution (eq_of_beq innermost) scanned
    case isFalse notPiece =>
      refine scanOperator_braces ?_ scanned
      intro isBrace innermost
      rw [isRest] at isBrace
      have isBrace : point.is '\x7d' = true := isBrace
      exact notPiece (by simp [isBrace, innermost])

/-- Every token from a cursor on closes what was opened last by those before it and by what was
open there. -/
theorem tokensFrom_closes {previous : Option TokenType} {opened : List Opener} {budget : Nat}
    {cursor : Cursor} {tokens before after : List Token} {token : Token}
    (scanned : tokensFrom previous opened budget cursor = .ok tokens)
    (isSplit : tokens = before ++ token :: after) :
    token.type.Closes (before.foldl (fun opened token => token.type.leavesOpen opened) opened) := by
  induction budget generalizing previous opened cursor tokens before with
  | zero =>
      cases scanned
      obtain ⟨rfl, isLast⟩ | ⟨_, rfl, absurd⟩ := List.cons_eq_append_iff.mp isSplit
      · cases isLast
        exact TokenType.closes_of_not_isBracing rfl _
      · simp at absurd
  | succ budget induction =>
      rw [tokensFrom] at scanned
      obtain ⟨⟨start, newline⟩, _, scanned⟩ := Calculation.of_bind_eq_ok scanned
      dsimp only at scanned
      split at scanned
      case isTrue =>
        cases scanned
        obtain ⟨rfl, isLast⟩ | ⟨_, rfl, absurd⟩ := List.cons_eq_append_iff.mp isSplit
        · cases isLast
          exact TokenType.closes_of_not_isBracing rfl _
        · simp at absurd
      case isFalse =>
        obtain ⟨result, isResult, scanned⟩ := Calculation.of_bind_eq_ok scanned
        obtain ⟨rest, isRest, scanned⟩ := Calculation.of_bind_eq_ok scanned
        cases scanned
        have braces := scanToken_braces isResult
        obtain ⟨rfl, isFirst⟩ | ⟨others, rfl, later⟩ := List.cons_eq_append_iff.mp isSplit
        · cases isFirst
          exact braces.closes
        · rw [List.foldl_cons, ← braces.openers]
          exact induction isRest later

end Lexer

/-- Every token of a text closes what the tokens before it opened last. -/
theorem tokenize_closes {text : Text} {tokens before after : List Token} {token : Token}
    (tokenized : tokenize text = .ok tokens) (isSplit : tokens = before ++ token :: after) :
    token.type.Closes (openedBy before) :=
  Lexer.tokensFrom_closes tokenized isSplit

/-- A template in an object in a template, with an object of its own in a substitution. -/
def nestedTemplates : Text :=
  "\x60a$\x7b \x7bb: \x60c$\x7bd\x7de$\x7b \x7b\x7d \x7d\x60\x7d \x7df\x60 \x7d"

theorem nestedTemplates_closes :
    ∃ tokens, tokenize nestedTemplates = .ok tokens ∧
      tokens.map Token.type = [.templateHead, .openBrace, .ident, .colon, .templateHead, .ident,
        .templateMiddle, .openBrace, .closeBrace, .templateTail, .closeBrace, .templateTail,
        .closeBrace, .endOfInput] ∧
      ∀ before token after, tokens = before ++ token :: after →
        token.type.Closes (openedBy before) := by
  obtain ⟨tokens, tokenized, isRead⟩ : ∃ tokens, tokenize nestedTemplates = .ok tokens ∧
      tokens.map Token.type = [.templateHead, .openBrace, .ident, .colon, .templateHead, .ident,
        .templateMiddle, .openBrace, .closeBrace, .templateTail, .closeBrace, .templateTail,
        .closeBrace, .endOfInput] := ⟨_, rfl, rfl⟩
  exact ⟨tokens, tokenized, isRead, fun _ _ _ => tokenize_closes tokenized⟩

end ScriptFold
