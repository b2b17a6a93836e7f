import Mathlib.Data.List.Forall2
import ScriptFold.Fault
import ScriptFold.Token.Lexer

/-!
# Words

A word is what a token is to say: its type and its text.  A text is laid out in words if
each of them is scanned where it stands and only blanks stand between them.  Such a text
is divided into just these words.
-/

namespace ScriptFold

/-- What a token is to say, and whether it has to stand on the line of the token before. -/
structure Word where
  type : TokenType
  text : Text
  joined : Bool := false

namespace Word

/-- A token says a word. -/
structure Matches (word : Word) (token : Token) : Prop where
  type : token.type = word.type
  text : token.text = word.text
  joined : word.joined → token.newlineBefore = false

/-- A word is told apart after a token of some type: reserved words are names after a dot,
and a slash divides only after a value. -/
structure Follows (word : Word) (previous : Option TokenType) : Prop where
  afterDot : word.type.isKeyword → previous ≠ some .dot ∧ previous ≠ some .optionalDot
  afterValue : word.type = .slash ∨ word.type = .slashAssign → previous.any TokenType.endsValue

/-- No template substitution is open. -/
def Plain (opened : List Lexer.Opener) : Prop :=
  ∀ opener, opener ∈ opened → opener = .brace

/-- A word is scanned as a whole before the rest of a text. -/
structure Scans (word : Word) (rest : Text) : Prop where
  starts : ∀ mark newline, Lexer.skipTrivia .between (word.text ++ rest) mark newline =
    .ok (⟨word.text ++ rest, mark⟩, newline)
  scanned : ∀ previous opened mark, word.Follows previous → Plain opened →
    ∃ opened' stop, Plain opened' ∧ (word.joined → stop.line = mark.line) ∧
      Lexer.scanToken previous opened ⟨word.text ++ rest, mark⟩ =
        .ok ⟨word.type, word.text, ⟨rest, stop⟩, opened'⟩

/-- Blanks that are written between words. -/
def isGap (point : CodePoint) : Bool :=
  point.isOneOf [' ', '\t', '\n']

/-- A word that is scanned before a blank and at the end of a text. -/
structure Sound (word : Word) : Prop where
  notEmpty : word.text ≠ []
  beforeGap : ∀ blank rest, isGap blank → word.Scans (blank :: rest)
  atEnd : word.Scans []

end Word

/-- The tokens say the words, in order. -/
def Holds (words : List Word) (tokens : List Token) : Prop :=
  List.Forall₂ Word.Matches words tokens

namespace Lexer

open Word

/-- Blanks before a token are skipped; a line that ends among them is noticed. -/
theorem skipTrivia_gap {gap : Text} (blank : ∀ point, point ∈ gap → isGap point)
    {text : Text} (starts : ∀ mark newline, skipTrivia .between text mark newline =
      .ok (⟨text, mark⟩, newline)) (mark : Mark) (newline : Bool) :
    ∃ start ended, skipTrivia .between (gap ++ text) mark newline = .ok (⟨text, start⟩, ended) ∧
      ((∀ point, point ∈ gap → point.is '\n' = false) → ended = newline) := by
  induction gap generalizing mark newline with
  | nil => exact ⟨mark, newline, starts mark newline, fun _ => rfl⟩
  | cons point rest induction =>
      have later := induction fun other there => blank other (List.mem_cons_of_mem _ there)
      have isBlank := blank point List.mem_cons_self
      simp only [isGap, CodePoint.isOneOf, List.any_cons, List.any_nil, Bool.or_false,
        Bool.or_eq_true, CodePoint.is, beq_iff_eq] at isBlank
      rcases isBlank with rfl | rfl | rfl
      · obtain ⟨start, ended, skipped, same⟩ := later (mark.advance 1) newline
        refine ⟨start, ended, ?_, fun noFeed => ?_⟩
        · rw [List.cons_append, skipTrivia.eq_def]
          exact skipped
        · exact same fun other there => noFeed other (List.mem_cons_of_mem _ there)
      · obtain ⟨start, ended, skipped, same⟩ := later (mark.advance 1) newline
        refine ⟨start, ended, ?_, fun noFeed => ?_⟩
        · rw [List.cons_append, skipTrivia.eq_def]
          exact skipped
        · exact same fun other there => noFeed other (List.mem_cons_of_mem _ there)
      · obtain ⟨start, ended, skipped, _⟩ := later (mark.newline 1) true
        refine ⟨start, ended, ?_, fun noFeed => ?_⟩
        · rw [List.cons_append, skipTrivia.eq_def]
          exact skipped
        · cases noFeed _ List.mem_cons_self

/-- One word after some blanks is read as one token. -/
theorem tokensFrom_word {word : Word} {gap rest : Text} {previous : Option TokenType}
    {opened : List Opener} (blank : ∀ point, point ∈ gap → isGap point)
    (onLine : word.joined → ∀ point, point ∈ gap → point.is '\n' = false)
    (notEmpty : word.text ≠ []) (scans : word.Scans rest) (follows : word.Follows previous)
    (plain : Plain opened) (budget : Nat) (mark : Mark) :
    ∃ token opened' stop, word.Matches token ∧ Plain opened' ∧
      tokensFrom previous opened (budget + 1) ⟨gap ++ (word.text ++ rest), mark⟩ =
        (token :: ·) <$> tokensFrom (some word.type) opened' budget ⟨rest, stop⟩ := by
  obtain ⟨start, ended, skipped, sameLine⟩ := skipTrivia_gap blank scans.starts mark false
  obtain ⟨opened', stop, stillPlain, stopLine, scanned⟩ :=
    scans.scanned previous opened start follows plain
  have present : (word.text ++ rest).isEmpty = false := by
    simp [notEmpty]
  refine ⟨⟨word.type, word.text, start, stop.offset, ended || start.line < stop.line⟩, opened',
    stop, ⟨rfl, rfl, fun joined => ?_⟩, stillPlain, ?_⟩
  · simp [sameLine (onLine joined), stopLine joined]
  · rw [tokensFrom]
    simp only [skipped, Calculation.ok_bind, present, Bool.false_eq_true, if_false, scanned]
    cases tokensFrom (some word.type) opened' budget ⟨rest, stop⟩ <;> rfl

end Lexer

/-- The end of a text: its last word, if there is one, and the blanks after that. -/
structure Edge where
  last : Option Word
  gap : Text

namespace Edge

/-- A word can be written at an edge without anything in between. -/
structure Meets (edge : Edge) (word : Word) : Prop where
  follows : word.Follows (edge.last.map Word.type)
  onLine : word.joined → ∀ point, point ∈ edge.gap → point.is '\n' = false
  apart : ∀ last, edge.last = some last → edge.gap = [] →
    ∀ more, last.Scans (word.text ++ more)

end Edge

open Word in
/-- A text is laid out in words up to an edge: whatever is written there, the tokens of the
words come first. -/
structure LaidOut (text : Text) (words : List Word) (edge : Edge) : Prop where
  last : words.getLast? = edge.last
  blank : ∀ point, point ∈ edge.gap → isGap point
  ends : ∃ front, text = front ++ edge.last.elim [] Word.text ++ edge.gap
  sound : ∀ last, edge.last = some last → last.Sound
  size : words.length ≤ text.length
  reads : ∀ more, (∀ last, edge.last = some last → last.Scans (edge.gap ++ more)) →
    ∀ budget, ∃ tokens opened mark, Holds words tokens ∧ Plain opened ∧
      Lexer.tokensFrom none [] (words.length + budget) ⟨text ++ more, .start⟩ =
        (tokens ++ ·) <$>
          Lexer.tokensFrom (edge.last.map Word.type) opened budget ⟨edge.gap ++ more, mark⟩

namespace LaidOut

open Word

variable {text : Text} {words : List Word} {edge : Edge}

theorem empty : LaidOut [] [] ⟨none, []⟩ := by
  refine ⟨rfl, nofun, ⟨[], rfl⟩, nofun, Nat.le_refl 0, ?_⟩
  intro more _ budget
  refine ⟨[], [], .start, .nil, nofun, ?_⟩
  simp only [List.length_nil, Nat.zero_add, Option.map_none, List.nil_append]
  cases Lexer.tokensFrom none [] budget ⟨more, .start⟩ <;> rfl

theorem addGap (laid : LaidOut text words edge) {gap : Text}
    (blank : ∀ point, point ∈ gap → isGap point) :
    LaidOut (text ++ gap) words ⟨edge.last, edge.gap ++ gap⟩ := by
  obtain ⟨front, isText⟩ := laid.ends
  refine ⟨laid.last, ?_, ⟨front, ?_⟩, laid.sound, ?_, ?_⟩
  · intro point there
    rcases List.mem_append.mp there with there | there
    · exact laid.blank point there
    · exact blank point there
  · rw [isText, List.append_assoc]
  · rw [List.length_append]
    exact Nat.le_add_right_of_le laid.size
  · intro more scans budget
    have read := laid.reads (gap ++ more) (by simpa only [List.append_assoc] using scans) budget
    simpa only [List.append_assoc] using read

/-- The last word is scanned before a word that can be written there. -/
theorem last_scans (laid : LaidOut text words edge) {word : Word} (meets : edge.Meets word)
    (more : Text) {last : Word} (isLast : edge.last = some last) :
    last.Scans (edge.gap ++ (word.text ++ more)) := by
  cases isGap : edge.gap with
  | nil => exact meets.apart last isLast isGap more
  | cons point rest =>
      have blank := laid.blank point (isGap ▸ List.mem_cons_self)
      exact (laid.sound last isLast).beforeGap point _ blank

theorem addWord (laid : LaidOut text words edge) {word : Word} (sound : word.Sound)
    (meets : edge.Meets word) : LaidOut (text ++ word.text) (words ++ [word]) ⟨some word, []⟩ := by
  refine ⟨List.getLast?_concat, nofun, ⟨text, (List.append_nil _).symm⟩, ?_, ?_, ?_⟩
  · intro last isLast
    cases isLast
    exact sound
  · have positive := List.length_pos_iff.mpr sound.notEmpty
    have size := laid.size
    simp only [List.length_append, List.length_singleton]
    omega
  · intro more scans budget
    have scans : word.Scans more := scans word rfl
    obtain ⟨tokens, opened, mark, holds, plain, read⟩ :=
      laid.reads (word.text ++ more) (fun last isLast => laid.last_scans meets more isLast)
        (budget + 1)
    obtain ⟨token, opened', stop, isWord, stillPlain, next⟩ :=
      Lexer.tokensFrom_word laid.blank meets.onLine sound.notEmpty scans meets.follows plain
        budget mark
    have count : (words ++ [word]).length + budget = words.length + (budget + 1) := by
      rw [List.length_append, List.length_singleton, Nat.add_assoc, Nat.add_comm 1]
    refine ⟨tokens ++ [token], opened', stop, List.rel_append holds (.cons isWord .nil),
      stillPlain, ?_⟩
    rw [count, List.append_assoc, read, next, Functor.map_map]
    simp only [List.append_assoc, List.singleton_append]
    rfl

/-- A text that is laid out in words is divided into them. -/
theorem tokenize (laid : LaidOut text words edge) :
    ∃ tokens last, ScriptFold.tokenize text = .ok (tokens ++ [last]) ∧ Holds words tokens ∧
      last.type = .endOfInput := by
  have scans : ∀ last, edge.last = some last → last.Scans (edge.gap ++ []) := by
    intro last isLast
    rw [List.append_nil]
    cases isGap : edge.gap with
    | nil => exact (laid.sound last isLast).atEnd
    | cons point rest =>
        exact (laid.sound last isLast).beforeGap point _
          (laid.blank point (isGap ▸ List.mem_cons_self))
  obtain ⟨extra, isExtra⟩ := Nat.exists_eq_add_of_le laid.size
  obtain ⟨tokens, opened, mark, holds, _, read⟩ := laid.reads [] scans (extra + 1)
  have ended : ∀ mark newline, Lexer.skipTrivia .between [] mark newline =
      .ok (⟨[], mark⟩, newline) := fun _ _ => rfl
  obtain ⟨start, newline, skipped, _⟩ := Lexer.skipTrivia_gap laid.blank ended mark false
  refine ⟨tokens, ⟨.endOfInput, [], start, start.offset, newline⟩, ?_, holds, rfl⟩
  rw [ScriptFold.tokenize, isExtra, Nat.add_assoc, ← List.append_nil text, read, List.append_nil,
    Lexer.tokensFrom]
  rw [List.append_nil] at skipped
  simp only [skipped, Calculation.ok_bind]
  rfl

end LaidOut

end ScriptFold
