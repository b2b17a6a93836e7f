import ScriptFold.Console.Entry
import ScriptFold.Proofs.Token.Bracing

/-!
# What a submitted entry leaves open

Enter submits an entry whose brackets are all closed.  The count of open brackets does not know
the substitutions of templates, which open and close something too: the entries that are
submitted leave nothing open but them.
-/

namespace ScriptFold

open Lexer (Opener)

namespace Entry

/-- The brackets and substitutions that are open after a token, the innermost first.  A closing
token closes the innermost; one too many is ignored. -/
def openAfter (opened : List Token) (token : Token) : List Token :=
  match token.type with
  | .openParen | .openBracket | .openBrace | .templateHead => token :: opened
  | .templateMiddle => token :: opened.tail
  | .closeParen | .closeBracket | .closeBrace | .templateTail => opened.tail
  | _ => opened

/-- What tokens leave open, the innermost first. -/
def leftOpen (tokens : List Token) : List Token :=
  tokens.foldl openAfter []

/-- One token leaves open no more than the depth and the open substitutions account for. -/
theorem length_openAfter_le {opened : List Token} {depth : Nat} {openers : List Opener}
    {token : Token} (closes : token.type.Closes openers)
    (accounted : opened.length ≤ depth + openers.count .substitution) :
    (openAfter opened token).length ≤
      depthAfter depth token + (token.type.leavesOpen openers).count .substitution := by
  have ofSubstitution (innermost : openers.head? = some .substitution) :
      openers.count .substitution = openers.tail.count .substitution + 1 := by
    obtain ⟨outer, rfl⟩ := List.head?_eq_some_iff.mp innermost
    exact List.count_cons_self
  have ofBrace (innermost : openers.head? = some .brace ∨ openers = []) :
      openers.count .substitution = openers.tail.count .substitution := by
    obtain innermost | rfl := innermost
    · obtain ⟨outer, rfl⟩ := List.head?_eq_some_iff.mp innermost
      exact List.count_cons_of_ne (by decide)
    · rfl
  have isShorter : opened.tail.length = opened.length - 1 := List.length_tail
  obtain ⟨type, text, mark, stop, newlineBefore⟩ := token
  cases type
  case openParen | openBracket =>
    show opened.length + 1 ≤ depth + 1 + openers.count .substitution
    omega
  case openBrace =>
    show opened.length + 1 ≤ depth + 1 + (Opener.brace :: openers).count .substitution
    rw [List.count_cons_of_ne (by decide)]
    omega
  case closeParen | closeBracket =>
    show opened.tail.length ≤ depth - 1 + openers.count .substitution
    omega
  case closeBrace =>
    have same := ofBrace (closes.brace rfl)
    show opened.tail.length ≤ depth - 1 + openers.tail.count .substitution
    omega
  case templateHead =>
    show opened.length + 1 ≤ depth + (Opener.substitution :: openers).count .substitution
    rw [List.count_cons_self]
    omega
  -- A piece closes a substitution, so there is one to account for the one it may open.
  case templateMiddle =>
    have closed := ofSubstitution (closes.substitution (.inl rfl))
    show opened.tail.length + 1 ≤
      depth + (Opener.substitution :: openers.tail).count .substitution
    rw [List.count_cons_self]
    omega
  case templateTail =>
    have closed := ofSubstitution (closes.substitution (.inr rfl))
    show opened.tail.length ≤ depth + openers.tail.count .substitution
    omega
  all_goals exact accounted

/-- Tokens that close what was opened last leave open no more than their depth and the open
substitutions account for. -/
theorem length_leftOpen_le {tokens : List Token}
    (closes : ∀ before token after, tokens = before ++ token :: after →
      token.type.Closes (openedBy before)) :
    (leftOpen tokens).length ≤
      tokens.foldl depthAfter 0 + (openedBy tokens).count .substitution := by
  induction tokens using List.reverseRecOn with
  | nil => exact Nat.le_refl 0
  | append_singleton tokens last induction =>
      have lastCloses := closes tokens last [] rfl
      have accounted := induction fun before token after isSplit =>
        closes before token (after ++ [last]) (by rw [isSplit, List.append_assoc]; rfl)
      have step := length_openAfter_le lastCloses accounted
      simpa only [leftOpen, openedBy, List.foldl_append, List.foldl_cons, List.foldl_nil] using step

/-- An entry that Enter submits is divided into tokens, and these leave open no more than as many
substitutions of templates. -/
theorem leftOpen_of_openDepth_eq_zero {text : Text} (submitted : openDepth text = 0) :
    ∃ tokens, tokenize text = .ok tokens ∧
      (leftOpen tokens).length ≤ (openedBy tokens).count .substitution := by
  unfold openDepth at submitted
  cases tokenized : tokenize text with
  | error failure =>
      rw [tokenized] at submitted
      cases submitted
  | ok tokens =>
      rw [tokenized] at submitted
      have accounted := length_leftOpen_le fun _ _ _ => Lexer.tokensFrom_closes tokenized
      rw [show tokens.foldl depthAfter 0 = 0 from submitted, Nat.zero_add] at accounted
      exact ⟨tokens, rfl, accounted⟩

/-- Templates in templates, with every bracket and substitution closed. -/
def closedTemplates : Text :=
  "f(`a$\x7b [`$\x7bb\x7d`, \x7b\x7d] \x7d c$\x7bd\x7d`))"

theorem closedTemplates_leftOpen :
    openDepth closedTemplates = 0 ∧ ∃ tokens, tokenize closedTemplates = .ok tokens ∧
      (leftOpen tokens).length ≤ (openedBy tokens).count .substitution := by
  have submitted : openDepth closedTemplates = 0 := by decide +kernel
  exact ⟨submitted, leftOpen_of_openDepth_eq_zero submitted⟩

/-- A template that is not ended: a substitution has been opened, and nothing follows. -/
def unendedTemplate : Text := "`a$\x7b"

/-- An unterminated literal may be submitted, with its substitution left open. -/
theorem unendedTemplate_leftOpen :
    openDepth unendedTemplate = 0 ∧
      ¬ ∃ tokens, tokenize unendedTemplate = .ok tokens ∧ leftOpen tokens = [] := by
  refine ⟨by decide +kernel, ?_⟩
  rintro ⟨tokens, tokenized, isClosed⟩
  cases tokenized
  cases isClosed

end Entry

end ScriptFold
