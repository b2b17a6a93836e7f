import Mathlib.Algebra.GroupWithZero.Nat
import ScriptFold.Proofs.Token.Crossing
import ScriptFold.Proofs.Token.Whole

/-!
# How tokens tile a text

The tokens of a text stand one after another, each over a stretch of its own, and only what may
be skipped stands between them.  Where a token begins, its line and column count the line ends in
front of it, and it notices those since the token before.
-/

namespace ScriptFold

open Text Lexer Cursor

namespace Lexer

/-- A token stands in front of a cursor: it begins after a gap and goes on to the next cursor. -/
structure Stands (cursor : Cursor) (gap : Text) (start : Cursor) (token : Token) (next : Cursor) :
    Prop where
  crosses : cursor.Crosses gap 0 start
  skippable : Skippable start.rest gap
  mark : token.mark = start.mark
  written : start.Crosses token.written token.missed next
  stop : token.stop = next.mark.offset
  noticed : token.newlineBefore =
    (gap.any CodePoint.isLineEnd || decide (start.mark.line < next.mark.line))

/-- Tokens divide what is left at a cursor, up to a last one that marks the end of input. -/
inductive Divides : Cursor → List Token → Prop
  | last {cursor start next : Cursor} {gap : Text} {token : Token}
      (stands : Stands cursor gap start token next) (ended : start.rest = [])
      (type : token.type = .endOfInput) (text : token.text = []) : Divides cursor [token]
  | cons {cursor start next : Cursor} {gap : Text} {token : Token} {rest : List Token}
      (stands : Stands cursor gap start token next) (whole : Whole token.written)
      (type : token.type ≠ .endOfInput) (later : Divides next rest) : Divides cursor (token :: rest)

theorem Divides.stands {cursor : Cursor} {token : Token} {after : List Token}
    (divides : Divides cursor (token :: after)) :
    ∃ gap start next, Stands cursor gap start token next := by
  cases divides with
  | last stands => exact ⟨_, _, _, stands⟩
  | cons stands => exact ⟨_, _, _, stands⟩

private theorem divides_endOfInput {cursor start : Cursor} {gap : Text} {newline : Bool}
    (skips : Skips .between cursor false gap start newline) (ended : start.rest = []) :
    Divides cursor [⟨.endOfInput, [], start.mark, start.mark.offset, newline⟩] := by
  refine .last ⟨skips.crosses, skips.leaves, rfl, .refl start, rfl, ?_⟩ ended rfl rfl
  rw [skips.noticed]
  simp

/-- Scanning with enough budget divides all of the text. -/
theorem tokensFrom_divides {previous : Option TokenType} {opened : List Opener} {budget : Nat}
    {cursor : Cursor} {tokens : List Token} (enough : cursor.rest.length < budget)
    (scanned : tokensFrom previous opened budget cursor = .ok tokens) : Divides cursor tokens := by
  induction budget generalizing previous opened cursor tokens with
  | zero => exact absurd enough (Nat.not_lt_zero _)
  | succ budget induction =>
      rw [tokensFrom] at scanned
      obtain ⟨⟨start, newline⟩, skipped, scanned⟩ := Calculation.of_bind_eq_ok scanned
      obtain ⟨gap, skips⟩ := skipTrivia_skips skipped
      dsimp only at scanned
      obtain ⟨startRest, startMark⟩ := start
      cases startRest with
      | nil =>
          cases scanned
          exact divides_endOfInput skips rfl
      | cons point others =>
          obtain ⟨first, isFirst, scanned⟩ := Calculation.of_bind_eq_ok scanned
          obtain ⟨rest, areRest, scanned⟩ := Calculation.of_bind_eq_ok scanned
          cases scanned
          have reads := scanToken_reads (skips.solid point rfl) isFirst
          have fewer : first.next.rest.length < budget := by
            have gapped := congrArg List.length skips.crosses.rest
            have left := congrArg List.length reads.crosses.rest
            have some := List.length_pos_iff.mpr reads.whole.notEmpty
            simp only [List.length_append] at gapped left
            omega
          refine .cons ⟨skips.crosses, skips.leaves, rfl, reads.crosses, rfl, ?_⟩ reads.whole
            reads.type (induction fewer areRest)
          rw [skips.noticed]
          rfl

/-- The offset where the last of some tokens stops, or else the offset in front of them. -/
def stopFrom (offset : Nat) (tokens : List Token) : Nat :=
  (tokens.getLast?.map Token.stop).getD offset

private theorem stopFrom_cons (offset : Nat) (token : Token) (tokens : List Token) :
    stopFrom offset (token :: tokens) = stopFrom token.stop tokens := by
  rw [stopFrom, stopFrom, List.getLast?_cons]
  cases tokens.getLast? <;> rfl

/-- Tokens lead to a cursor that those after them divide. -/
theorem Divides.reaches {cursor : Cursor} {before after : List Token} (further : after ≠ [])
    (divides : Divides cursor (before ++ after)) :
    ∃ lead middle, cursor.Crosses lead (before.map Token.missed).sum middle ∧
      middle.mark.offset = stopFrom cursor.mark.offset before ∧
      (∀ point, lead.getLast? = some point → point.isLineEnd = false) ∧ Divides middle after := by
  induction before generalizing cursor with
  | nil => exact ⟨[], cursor, .refl cursor, rfl, nofun, divides⟩
  | cons token before induction =>
      rw [List.cons_append] at divides
      generalize isRest : before ++ after = rest at divides
      cases divides with
      | last => exact absurd (List.append_eq_nil_iff.mp isRest).2 further
      | @cons _ start next gap _ _ stands whole _ later =>
          rw [← isRest] at later
          obtain ⟨lead, middle, crosses, isOffset, ends, divides⟩ := induction later
          have uncutWritten : Uncut token.written lead := by
            refine .of_last fun isReturn => ?_
            cases whole.last _ isReturn
          have uncutGap : Uncut gap (token.written ++ lead) := by
            refine .of_head fun isFeed => ?_
            rw [List.head?_append_of_ne_nil _ whole.notEmpty] at isFeed
            cases whole.first _ isFeed
          have all := stands.crosses.trans (stands.written.trans crosses uncutWritten) uncutGap
          rw [Nat.zero_add] at all
          refine ⟨gap ++ (token.written ++ lead), middle, all, ?_, ?_, divides⟩
          · rw [isOffset, stopFrom_cons, stands.stop]
          · rw [List.getLast?_append_of_ne_nil _
              (List.append_ne_nil_of_left_ne_nil whole.notEmpty lead)]
            exact ends_append whole.last ends

/-- A token is found in the tokens of a text after those before it. -/
structure Found (text : Text) (before : List Token) (token : Token) (lead gap : Text)
    (start next : Cursor) : Prop where
  crosses : Crosses ⟨text, .start⟩ (lead ++ gap) (before.map Token.missed).sum start
  length : lead.length = stopFrom 0 before
  stands : ∃ middle, Stands middle gap start token next

theorem found_of_tokenize {text : Text} {tokens before after : List Token} {token : Token}
    (tokenized : tokenize text = .ok tokens) (isSplit : tokens = before ++ token :: after) :
    ∃ lead gap start next, Found text before token lead gap start next := by
  have divides : Divides ⟨text, .start⟩ tokens := tokensFrom_divides (Nat.lt_succ_self _) tokenized
  rw [isSplit] at divides
  obtain ⟨lead, middle, crosses, isOffset, ends, divides⟩ := divides.reaches (List.cons_ne_nil _ _)
  obtain ⟨gap, start, next, stands⟩ := divides.stands
  have uncut : Uncut lead gap := by
    refine .of_last fun isReturn => ?_
    cases ends _ isReturn
  refine ⟨lead, gap, start, next, crosses.trans stands.crosses uncut, ?_, middle, stands⟩
  have length := crosses.offset
  rw [isOffset] at length
  exact (length.trans (Nat.zero_add _)).symm

namespace Found

variable {text : Text} {before : List Token} {token : Token} {lead gap : Text} {start next : Cursor}

theorem start_eq (found : Found text before token lead gap start next) :
    token.start = (lead ++ gap).length := by
  obtain ⟨_, stands⟩ := found.stands
  rw [Token.start, stands.mark, found.crosses.offset]
  exact Nat.zero_add _

theorem text_eq (found : Found text before token lead gap start next) :
    text = lead ++ gap ++ (token.written ++ next.rest) := by
  obtain ⟨_, stands⟩ := found.stands
  rw [← stands.written.rest]
  exact found.crosses.rest

theorem stop_eq (found : Found text before token lead gap start next) :
    token.stop = token.start + token.written.length := by
  obtain ⟨_, stands⟩ := found.stands
  rw [stands.stop, stands.written.offset, Token.start, stands.mark]

theorem take_start (found : Found text before token lead gap start next) :
    text.take token.start = lead ++ gap := by
  rw [found.start_eq, found.text_eq, List.take_left]

theorem drop_start (found : Found text before token lead gap start next) :
    text.drop token.start = start.rest := by
  obtain ⟨_, stands⟩ := found.stands
  rw [found.start_eq, found.text_eq, List.drop_left, stands.written.rest]

/-- What stands between a token and the one before it. -/
theorem gap_eq (found : Found text before token lead gap start next) :
    text.slice (stopFrom 0 before) token.start = gap := by
  have isGap : token.start - lead.length = gap.length := by
    rw [found.start_eq, List.length_append, Nat.add_sub_cancel_left]
  rw [← found.length, slice, isGap, found.text_eq, List.append_assoc, List.drop_left,
    List.take_left]

theorem written_eq (found : Found text before token lead gap start next) :
    text.slice token.start token.stop = token.written := by
  rw [slice, found.stop_eq, Nat.add_sub_cancel_left, found.drop_start]
  obtain ⟨_, stands⟩ := found.stands
  rw [stands.written.rest, List.take_left]

theorem stop_le (found : Found text before token lead gap start next) :
    token.stop ≤ text.length := by
  have length := congrArg List.length found.text_eq
  rw [List.length_append, ← found.start_eq, List.length_append] at length
  rw [found.stop_eq]
  omega

end Found

end Lexer

/-- Tokens tile a text.  The last one marks its end and each other one is written on a stretch of
it, in order.  In front of each, up to the one before it, stands only what may be skipped. -/
structure Tiles (text : Text) (tokens : List Token) : Prop where
  ended : ∃ front last, tokens = front ++ [last] ∧ last.type = .endOfInput ∧ last.text = [] ∧
    last.start = text.length ∧ last.stop = text.length ∧
    ∀ token ∈ front, token.type ≠ .endOfInput ∧ token.start < token.stop
  within : ∀ token ∈ tokens, token.stop ≤ text.length
  ordered : tokens.Pairwise fun first second => first.stop ≤ second.start
  written : ∀ token ∈ tokens, text.slice token.start token.stop = token.written
  gaps : ∀ before token after, tokens = before ++ token :: after →
    Skippable (text.drop token.start) (text.slice (stopFrom 0 before) token.start)

theorem Lexer.Divides.ordered {cursor : Cursor} {tokens : List Token}
    (divides : Divides cursor tokens) :
    (∀ token ∈ tokens, cursor.mark.offset ≤ token.start) ∧
      tokens.Pairwise fun first second => first.stop ≤ second.start := by
  induction divides with
  | last stands =>
      refine ⟨?_, List.pairwise_singleton _ _⟩
      rw [List.forall_mem_singleton, Token.start, stands.mark, stands.crosses.offset]
      exact Nat.le_add_right _ _
  | cons stands _ _ _ induction =>
      have begins := stands.crosses.offset
      have ends := stands.written.offset
      rw [← stands.mark] at begins ends
      refine ⟨List.forall_mem_cons.mpr ⟨?_, fun token there => ?_⟩, List.pairwise_cons.mpr
        ⟨fun token there => ?_, induction.2⟩⟩
      · rw [Token.start, begins]
        exact Nat.le_add_right _ _
      · have further := induction.1 token there
        omega
      · rw [stands.stop]
        exact induction.1 token there

theorem Lexer.Divides.ended {cursor : Cursor} {tokens : List Token}
    (divides : Divides cursor tokens) :
    ∃ front last, tokens = front ++ [last] ∧ last.type = .endOfInput ∧ last.text = [] ∧
      last.start = cursor.mark.offset + cursor.rest.length ∧ last.stop = last.start ∧
      ∀ token ∈ front, token.type ≠ .endOfInput ∧ token.start < token.stop := by
  induction divides with
  | @last cursor start next gap token stands ended type text =>
      refine ⟨[], token, rfl, type, text, ?_, ?_, nofun⟩
      · rw [Token.start, stands.mark, stands.crosses.offset, stands.crosses.rest, ended,
          List.append_nil]
      · have isWritten : token.written = [] := by rw [Token.written, type, text]; rfl
        rw [stands.stop, stands.written.offset, isWritten, Token.start, stands.mark]
        rfl
  | @cons cursor start next gap token rest stands whole type later induction =>
      obtain ⟨front, last, rfl, isType, isText, isStart, isStop, proper⟩ := induction
      refine ⟨token :: front, last, rfl, isType, isText, ?_, isStop,
        List.forall_mem_cons.mpr ⟨⟨type, ?_⟩, proper⟩⟩
      · rw [isStart, stands.written.offset, stands.crosses.offset, stands.crosses.rest,
          stands.written.rest]
        simp only [List.length_append]
        omega
      · rw [stands.stop, stands.written.offset, Token.start, stands.mark]
        exact Nat.lt_add_of_pos_right (List.length_pos_iff.mpr whole.notEmpty)

/-- The tokens of a text tile it. -/
theorem tiles_of_tokenize {text : Text} {tokens : List Token}
    (tokenized : tokenize text = .ok tokens) : Tiles text tokens := by
  have divides : Divides ⟨text, .start⟩ tokens := tokensFrom_divides (Nat.lt_succ_self _) tokenized
  refine ⟨?_, fun token there => ?_, divides.ordered.2, fun token there => ?_,
    fun before token after isSplit => ?_⟩
  · obtain ⟨front, last, isTokens, isType, isText, isStart, isStop, proper⟩ := divides.ended
    have isStart : last.start = text.length := isStart.trans (Nat.zero_add _)
    exact ⟨front, last, isTokens, isType, isText, isStart, isStop.trans isStart, proper⟩
  · obtain ⟨before, after, isSplit⟩ := List.append_of_mem there
    obtain ⟨_, _, _, _, found⟩ := found_of_tokenize tokenized isSplit
    exact found.stop_le
  · obtain ⟨before, after, isSplit⟩ := List.append_of_mem there
    obtain ⟨_, _, _, _, found⟩ := found_of_tokenize tokenized isSplit
    exact found.written_eq
  · obtain ⟨_, _, _, _, found⟩ := found_of_tokenize tokenized isSplit
    rw [found.gap_eq, found.drop_start]
    obtain ⟨_, stands⟩ := found.stands
    exact stands.skippable

/-- A token that begins inside of a text, or marks its end. -/
def Token.Inside (text : Text) (token : Token) : Prop :=
  token.type ≠ .endOfInput → token.start < text.length

/-- The tokens of a text begin inside of it. -/
theorem tokenize_inside {text : Text} {tokens : List Token} (tokenized : tokenize text = .ok tokens) :
    ∀ token, token ∈ tokens → token.Inside text := by
  have tiles := tiles_of_tokenize tokenized
  obtain ⟨front, last, rfl, isType, _, _, _, proper⟩ := tiles.ended
  intro token there isProper
  rcases List.mem_append.mp there with inFront | isLast
  · exact Nat.lt_of_lt_of_le (proper token inFront).2 (tiles.within token there)
  · rw [List.mem_singleton.mp isLast] at isProper
    exact absurd isType isProper

/-- A call with a template piece by piece, an escaped quote and comments in between. -/
def commentedCall : Text :=
  "f( // two\n\x60a$\x7bx/* one */\x7d b\x60, '\\'') "

theorem commentedCall_tiles :
    ∃ tokens, tokenize commentedCall = .ok tokens ∧ Tiles commentedCall tokens := by
  obtain ⟨tokens, tokenized⟩ : ∃ tokens, tokenize commentedCall = .ok tokens := ⟨_, rfl⟩
  exact ⟨tokens, tokenized, tiles_of_tokenize tokenized⟩

/-- A token notices a line end in front of it, and also one inside of it that counts. -/
theorem newlineBefore_iff {text : Text} {tokens before after : List Token} {token : Token}
    (tokenized : tokenize text = .ok tokens) (isSplit : tokens = before ++ token :: after) :
    token.newlineBefore = true ↔
      (∃ point ∈ text.slice (stopFrom 0 before) token.start, point.isLineEnd = true) ∨
        token.missed < token.written.lineEnds := by
  obtain ⟨_, gap, start, next, found⟩ := found_of_tokenize tokenized isSplit
  obtain ⟨_, stands⟩ := found.stands
  have isLine := stands.written.line
  have further : start.mark.line < next.mark.line ↔ token.missed < token.written.lineEnds := by
    omega
  rw [found.gap_eq, stands.noticed, Bool.or_eq_true, List.any_eq_true, decide_eq_true_iff, further]

/-- A statement that returns a template of two lines. -/
def returnsTwoLines : Text :=
  "return \x60a\nb\x60"

def returnToken : Token :=
  ⟨.kwReturn, "return", .start, 6, false⟩

def twoLinesToken : Token :=
  ⟨.wholeTemplate, "a\nb", ⟨7, 1, 8⟩, 12, true⟩

theorem returnsTwoLines_tokens :
    tokenize returnsTwoLines =
      .ok ([returnToken] ++ twoLinesToken :: [⟨.endOfInput, [], ⟨12, 2, 3⟩, 12, false⟩]) := by
  rfl

theorem twoLinesToken_noticed :
    twoLinesToken.newlineBefore = true ↔
      (∃ point ∈ returnsTwoLines.slice (stopFrom 0 [returnToken]) twoLinesToken.start,
        point.isLineEnd = true) ∨ twoLinesToken.missed < lineEnds twoLinesToken.written :=
  newlineBefore_iff returnsTwoLines_tokens rfl

/-- A token notices a line end though none is in front of it. -/
theorem newlineBefore_of_inside :
    ¬ ∀ (text : Text) (before after : List Token) (token : Token),
      tokenize text = .ok (before ++ token :: after) →
        (token.newlineBefore = true ↔
          ∃ point ∈ text.slice (stopFrom 0 before) token.start, point.isLineEnd = true) := by
  intro inFront
  have noticed := (inFront _ _ _ _ returnsTwoLines_tokens).mp rfl
  exact absurd noticed (by decide)

/-- The line of a token counts the line ends in front of it but those that the tokens before it
missed.  If they missed none, the column counts from the last line end. -/
theorem line_and_column {text : Text} {tokens before after : List Token} {token : Token}
    (tokenized : tokenize text = .ok tokens) (isSplit : tokens = before ++ token :: after) :
    token.line + (before.map Token.missed).sum = 1 + lineEnds (text.take token.start) ∧
      ((∀ earlier ∈ before, earlier.missed = 0) →
        token.column = 1 + (lastLine (text.take token.start)).length) := by
  obtain ⟨_, gap, start, next, found⟩ := found_of_tokenize tokenized isSplit
  obtain ⟨_, stands⟩ := found.stands
  rw [found.take_start, Token.line, Token.column, stands.mark]
  refine ⟨found.crosses.line, fun none => ?_⟩
  have noneMissed : (before.map Token.missed).sum = 0 := by
    rw [List.sum_eq_zero_iff_forall_eq_nat]
    simpa using none
  rw [found.crosses.mark noneMissed]
  exact Mark.across_start_column _

/-- A regular expression with a line feed behind a backslash, and a name. -/
def brokenRegex : Text :=
  "/\\\n/ x"

def brokenRegexToken : Token :=
  ⟨.regex, "/\\\n/", .start, 4, false⟩

def afterRegexToken : Token :=
  ⟨.ident, "x", ⟨5, 1, 6⟩, 6, false⟩

theorem brokenRegex_tokens :
    tokenize brokenRegex =
      .ok ([brokenRegexToken] ++ afterRegexToken :: [⟨.endOfInput, [], ⟨6, 1, 7⟩, 6, false⟩]) := by
  rfl

theorem afterRegexToken_line :
    afterRegexToken.line + ([brokenRegexToken].map Token.missed).sum =
      1 + lineEnds (brokenRegex.take afterRegexToken.start) :=
  (line_and_column brokenRegex_tokens rfl).1

/-- The line of a token does not count the line ends that a token before it missed. -/
theorem line_of_missed :
    ¬ ∀ (text : Text) (tokens : List Token) (token : Token), tokenize text = .ok tokens →
      token ∈ tokens → token.line = 1 + lineEnds (text.take token.start) ∧
        token.column = 1 + (lastLine (text.take token.start)).length := by
  intro counts
  have isLine := (counts _ _ afterRegexToken brokenRegex_tokens (by simp)).1
  exact absurd isLine (by decide)

end ScriptFold
