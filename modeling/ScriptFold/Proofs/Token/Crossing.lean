import ScriptFold.Proofs.Text.Line
import ScriptFold.Proofs.Token.Scanning

/-!
# What cursors go over

A cursor goes over a stretch of its text to another cursor.  Its mark moves along: the offset by
every code point, the line by every line end that counts.  Those that do not count are missed.
-/

namespace ScriptFold

open Text

namespace Text

/-- The line and paragraph separators of a string literal that have no backslash in front. -/
def bareSeparators : Text → Nat
  | .char '\\' :: _ :: rest => bareSeparators rest
  | point :: rest =>
      if point.isOneOf ['\u2028', '\u2029'] then bareSeparators rest + 1 else bareSeparators rest
  | [] => 0

theorem bareSeparators_cons {point : CodePoint} (notEscape : point ≠ .char '\\') (rest : Text) :
    bareSeparators (point :: rest) =
      if point.isOneOf ['\u2028', '\u2029'] then bareSeparators rest + 1 else bareSeparators rest := by
  rw [bareSeparators.eq_def]
  split
  case h_1 isText =>
    cases isText
    exact absurd rfl notEscape
  case h_2 isText =>
    cases isText
    rfl
  case h_3 isText => cases isText

end Text

namespace TokenType

/-- A token text as it is written: the text of a template piece stands between delimiters. -/
def written (type : TokenType) (text : Text) : Text :=
  match type with
  | .wholeTemplate => .char '\x60' :: text ++ [.char '\x60']
  | .templateHead => .char '\x60' :: text ++ [.char '$', .char '\x7b']
  | .templateMiddle => .char '\x7d' :: text ++ [.char '$', .char '\x7b']
  | .templateTail => .char '\x7d' :: text ++ [.char '\x60']
  | _ => text

/-- The line ends inside of a token that do not count. -/
def missed (type : TokenType) (text : Text) : Nat :=
  match type with
  | .regex => text.lineEnds
  | .string => text.bareSeparators
  | _ => 0

end TokenType

namespace Token

def written (token : Token) : Text :=
  token.type.written token.text

/-- The line ends inside of a token that do not count. -/
def missed (token : Token) : Nat :=
  token.type.missed token.text

end Token

namespace Cursor

/-- A cursor has gone over a stretch of its text and come to another, with some of the line
ends on the way not counted. -/
structure Crosses (start : Cursor) (stretch : Text) (missed : Nat) (next : Cursor) : Prop where
  rest : start.rest = stretch ++ next.rest
  offset : next.mark.offset = start.mark.offset + stretch.length
  line : next.mark.line + missed = start.mark.line + lineEnds stretch
  mark : missed = 0 → next.mark = start.mark.across stretch

/-- A code point does not take a return and a line feed apart. -/
def Apart (point : CodePoint) (rest : Text) : Prop :=
  ∀ others, point = .char '\r' → rest = .char '\n' :: others → False

theorem Apart.of_ne {point : CodePoint} (noReturn : point ≠ .char '\r') (rest : Text) :
    Apart point rest :=
  fun _ isReturn _ => noReturn isReturn

theorem Apart.of_within {point : CodePoint} (within : ¬ point.isLineEnd = true) (rest : Text) :
    Apart point rest := by
  refine of_ne ?_ rest
  rintro rfl
  exact within rfl

theorem Apart.endsLine {point : CodePoint} {stretch rest : Text}
    (apart : Apart point (stretch ++ rest)) (ends : point.isLineEnd = true) :
    endsLine point stretch = true := by
  rw [Text.endsLine, ends, Bool.true_and, Bool.not_eq_true', Bool.and_eq_false_iff]
  by_cases isReturn : point = .char '\r'
  · right
    rw [beq_eq_false_iff_ne]
    intro isFeed
    cases stretch with
    | nil => cases isFeed
    | cons next stretch =>
        cases isFeed
        exact apart _ isReturn rfl
  · left
    simpa [CodePoint.is] using isReturn

namespace Crosses

variable {point : CodePoint} {rest stretch : Text} {mark : Mark} {missed : Nat} {next : Cursor}

theorem refl (cursor : Cursor) : cursor.Crosses [] 0 cursor :=
  ⟨rfl, rfl, rfl, fun _ => rfl⟩

theorem past (within : point.isLineEnd = false)
    (later : Crosses ⟨rest, mark.advance 1⟩ stretch missed next) :
    Crosses ⟨point :: rest, mark⟩ (point :: stretch) missed next := by
  have unended := endsLine_of_not within stretch
  refine ⟨congrArg (point :: ·) later.rest, ?_, ?_, fun none => ?_⟩
  · rw [later.offset, Mark.offset_advance, List.length_cons, Nat.add_assoc, Nat.add_comm 1]
  · rw [later.line, lineEnds, unended]
    rfl
  · rw [later.mark none, Mark.across, unended]
    rfl

/-- A line end that counts. -/
theorem ended (ends : point.isLineEnd = true) (apart : Apart point rest)
    (later : Crosses ⟨rest, mark.newline 1⟩ stretch missed next) :
    Crosses ⟨point :: rest, mark⟩ (point :: stretch) missed next := by
  have isRest : rest = stretch ++ next.rest := later.rest
  rw [isRest] at apart
  have endsHere := apart.endsLine ends
  refine ⟨congrArg (point :: ·) later.rest, ?_, ?_, fun none => ?_⟩
  · rw [later.offset, Mark.offset_newline, List.length_cons, Nat.add_assoc, Nat.add_comm 1]
  · rw [later.line, lineEnds, endsHere, if_pos rfl]
    exact Nat.add_right_comm _ _ _
  · rw [later.mark none, Mark.across, endsHere]
    rfl

/-- A return and a line feed, which count as one line end. -/
theorem broken (later : Crosses ⟨rest, mark.newline 2⟩ stretch missed next) :
    Crosses ⟨.char '\r' :: .char '\n' :: rest, mark⟩ (.char '\r' :: .char '\n' :: stretch)
      missed next := by
  refine ⟨congrArg (.char '\r' :: .char '\n' :: ·) later.rest, ?_, ?_, later.mark⟩
  · rw [later.offset, Mark.offset_newline, List.length_cons, List.length_cons, Nat.add_assoc,
      Nat.add_comm 2]
  · rw [later.line]
    exact Nat.add_right_comm _ _ _

/-- A line end that does not count. -/
theorem unended (ends : point.isLineEnd = true) (apart : Apart point rest)
    (later : Crosses ⟨rest, mark.advance 1⟩ stretch missed next) :
    Crosses ⟨point :: rest, mark⟩ (point :: stretch) (missed + 1) next := by
  have isRest : rest = stretch ++ next.rest := later.rest
  rw [isRest] at apart
  refine ⟨congrArg (point :: ·) later.rest, ?_, ?_, fun none => absurd none (Nat.succ_ne_zero _)⟩
  · rw [later.offset, Mark.offset_advance, List.length_cons, Nat.add_assoc, Nat.add_comm 1]
  · rw [← Nat.add_assoc, later.line, lineEnds, apart.endsLine ends, if_pos rfl]
    rfl

/-- A code point whose line end, if it is one, does not count. -/
theorem unmarked (apart : Apart point rest)
    (later : Crosses ⟨rest, mark.advance 1⟩ stretch (lineEnds stretch) next) :
    Crosses ⟨point :: rest, mark⟩ (point :: stretch) (lineEnds (point :: stretch)) next := by
  cases ends : point.isLineEnd with
  | true =>
      have isRest : rest = stretch ++ next.rest := later.rest
      have endsHere : endsLine point stretch = true := by
        rw [isRest] at apart
        exact apart.endsLine ends
      rw [lineEnds, endsHere, if_pos rfl]
      exact unended ends apart later
  | false =>
      rw [lineEnds, endsLine_of_not ends, if_neg Bool.false_ne_true]
      exact past ends later

theorem trans {start middle last : Cursor} {first second : Text} {firstMissed secondMissed : Nat}
    (crosses : start.Crosses first firstMissed middle)
    (further : middle.Crosses second secondMissed last) (uncut : Uncut first second) :
    start.Crosses (first ++ second) (firstMissed + secondMissed) last := by
  refine ⟨?_, ?_, ?_, fun none => ?_⟩
  · rw [crosses.rest, further.rest, List.append_assoc]
  · rw [further.offset, crosses.offset, List.length_append, Nat.add_assoc]
  · have firstLine := crosses.line
    have secondLine := further.line
    rw [lineEnds_append uncut]
    omega
  · obtain ⟨noneFirst, noneSecond⟩ := Nat.add_eq_zero_iff.mp none
    rw [further.mark noneSecond, crosses.mark noneFirst, Mark.across_append uncut]

/-- The code points between two cursors are those of the stretch. -/
theorem textBetween {start : Cursor} (crosses : start.Crosses stretch missed next) :
    Lexer.textBetween start next = stretch := by
  rw [Lexer.textBetween, crosses.offset, Nat.add_sub_cancel_left, crosses.rest, List.take_left]

end Crosses

/-- A cursor has moved on without a line end on the way. -/
def StaysOnLine (start next : Cursor) : Prop :=
  ∃ stretch, (∀ point ∈ stretch, point.isLineEnd = false) ∧ start.rest = stretch ++ next.rest ∧
    next.mark = start.mark.advance stretch.length

namespace StaysOnLine

variable {start middle next : Cursor}

theorem refl (cursor : Cursor) : StaysOnLine cursor cursor :=
  ⟨[], nofun, rfl, rfl⟩

theorem trans (first : StaysOnLine start middle) (second : StaysOnLine middle next) :
    StaysOnLine start next := by
  obtain ⟨stretch, within, isRest, isMark⟩ := first
  obtain ⟨further, furtherWithin, isFurther, isNext⟩ := second
  refine ⟨stretch ++ further, ?_, ?_, ?_⟩
  · exact List.forall_mem_append.mpr ⟨within, furtherWithin⟩
  · rw [isRest, isFurther, List.append_assoc]
  · rw [isNext, isMark, Mark.advance_advance, List.length_append]

theorem skip {count : Nat} (within : ∀ point ∈ start.rest.take count, point.isLineEnd = false)
    (bounded : count ≤ start.rest.length) : StaysOnLine start (Lexer.skip count start) := by
  refine ⟨start.rest.take count, within, (List.take_append_drop count start.rest).symm, ?_⟩
  rw [List.length_take_of_le bounded]
  rfl

theorem skipWhile {inClass : CodePoint → Bool}
    (without : ∀ point, inClass point = true → point.isLineEnd = false) (start : Cursor) :
    StaysOnLine start (Lexer.skipWhile inClass start) := by
  have isTake : start.rest.take (start.rest.takeWhile inClass).length = start.rest.takeWhile inClass :=
    (List.prefix_iff_eq_take.mp (List.takeWhile_prefix inClass)).symm
  refine skip (fun point there => ?_) (List.takeWhile_prefix inClass).length_le
  rw [isTake] at there
  exact without point (List.mem_takeWhile_imp there)

theorem past {point : CodePoint} {rest : Text} {mark : Mark} (within : point.isLineEnd = false)
    (stays : StaysOnLine ⟨rest, mark.advance 1⟩ next) : StaysOnLine ⟨point :: rest, mark⟩ next :=
  trans (skip (by simpa using within) (Nat.le_add_left 1 _)) stays

theorem length_le (stays : StaysOnLine start next) : next.rest.length ≤ start.rest.length := by
  obtain ⟨stretch, _, isRest, _⟩ := stays
  rw [isRest, List.length_append]
  exact Nat.le_add_left _ _

theorem crosses (stays : StaysOnLine start next) :
    ∃ stretch, (∀ point ∈ stretch, point.isLineEnd = false) ∧ start.Crosses stretch 0 next := by
  obtain ⟨stretch, within, isRest, isMark⟩ := stays
  refine ⟨stretch, within, isRest, ?_, ?_, fun _ => ?_⟩
  · rw [isMark, Mark.offset_advance]
  · rw [isMark, lineEnds_of_forall within]
    rfl
  · rw [isMark, Mark.across_of_forall within]

end StaysOnLine

end Cursor

end ScriptFold

/-!
## What stands between tokens

Blanks, line ends and comments are skipped.  A cursor goes over all of them and comes to a code
point that is neither a blank nor a line end.
-/

namespace ScriptFold

namespace Lexer

open Cursor

/-- Texts that may stand in front of a rest without a token in them: blanks, line ends, line
comments up to the end of their line or of the text, and block comments up to their end. -/
inductive Skippable (rest : Text) : Text → Prop
  | nil : Skippable rest []
  | blank {point : CodePoint} {gap : Text} (skipped : isSkipped point = true)
      (later : Skippable rest gap) : Skippable rest (point :: gap)
  | lineComment {body gap : Text} (within : ∀ point ∈ body, point.isLineEnd = false)
      (ended : ∀ point, (gap ++ rest).head? = some point → point.isLineEnd = true)
      (later : Skippable rest gap) : Skippable rest (.char '/' :: .char '/' :: (body ++ gap))
  | blockComment {body gap : Text} (unclosed : ¬ [.char '*', .char '/'] <:+: body)
      (later : Skippable rest gap) :
      Skippable rest (.char '/' :: .char '*' :: (body ++ .char '*' :: .char '/' :: gap))

/-- What is skipped in front of a rest, from between tokens or from within a comment on. -/
def Trivia.Leaves (rest : Text) : Trivia → Text → Prop
  | .between, stretch => Skippable rest stretch
  | .lineComment, stretch =>
      ∃ body gap, stretch = body ++ gap ∧ (∀ point ∈ body, point.isLineEnd = false) ∧
        (∀ point, (gap ++ rest).head? = some point → point.isLineEnd = true) ∧ Skippable rest gap
  | .blockComment _, stretch =>
      ∃ body gap, stretch = body ++ .char '*' :: .char '/' :: gap ∧
        ¬ [.char '*', .char '/'] <:+: body ∧ Skippable rest gap

theorem Skippable.lineEnd {rest stretch : Text} {point : CodePoint} (ends : point.isLineEnd = true)
    (later : Skippable rest stretch) : Skippable rest (point :: stretch) :=
  .blank (by rw [isSkipped, ends, Bool.true_or]) later

namespace Trivia.Leaves

variable {rest stretch : Text} {point : CodePoint}

/-- A line comment is over at a line end. -/
theorem afterLineComment (ends : point.isLineEnd = true) (leaves : Skippable rest (point :: stretch)) :
    Trivia.lineComment.Leaves rest (point :: stretch) := by
  refine ⟨[], point :: stretch, rfl, nofun, fun first isFirst => ?_, leaves⟩
  cases isFirst
  exact ends

theorem inLineComment (within : point.isLineEnd = false)
    (leaves : Trivia.lineComment.Leaves rest stretch) :
    Trivia.lineComment.Leaves rest (point :: stretch) := by
  obtain ⟨body, gap, rfl, bodyWithin, ended, later⟩ := leaves
  exact ⟨point :: body, gap, rfl, List.forall_mem_cons.mpr ⟨within, bodyWithin⟩, ended, later⟩

/-- A block comment goes on unless this is the first half of its closing delimiter. -/
theorem inBlockComment {opened : Mark}
    (unclosed : ∀ others, point = .char '*' → stretch ++ rest = .char '/' :: others → False)
    (leaves : (Trivia.blockComment opened).Leaves rest stretch) :
    (Trivia.blockComment opened).Leaves rest (point :: stretch) := by
  obtain ⟨body, gap, rfl, bodyUnclosed, later⟩ := leaves
  refine ⟨point :: body, gap, rfl, fun closed => ?_, later⟩
  rcases List.infix_cons_iff.mp closed with starts | inside
  · obtain ⟨others, isText⟩ := starts
    cases isText
    exact unclosed _ rfl rfl
  · exact bodyUnclosed inside

end Trivia.Leaves

/-- A cursor skips what does not belong to a token and notices the line ends in it. -/
structure Skips (trivia : Trivia) (start : Cursor) (newline : Bool) (stretch : Text)
    (next : Cursor) (ended : Bool) : Prop where
  crosses : start.Crosses stretch 0 next
  leaves : trivia.Leaves next.rest stretch
  noticed : ended = (newline || stretch.any CodePoint.isLineEnd)
  solid : ∀ point, next.rest.head? = some point → isSkipped point = false

namespace Skips

variable {trivia other : Trivia} {point : CodePoint} {rest stretch : Text} {mark : Mark}
  {newline ended : Bool} {next : Cursor}

theorem past (within : point.isLineEnd = false) (leaves : trivia.Leaves next.rest (point :: stretch))
    (later : Skips other ⟨rest, mark.advance 1⟩ newline stretch next ended) :
    Skips trivia ⟨point :: rest, mark⟩ newline (point :: stretch) next ended := by
  refine ⟨later.crosses.past within, leaves, ?_, later.solid⟩
  rw [List.any_cons, within, Bool.false_or]
  exact later.noticed

theorem delimiter {second : CodePoint} (within : point.isLineEnd = false)
    (secondWithin : second.isLineEnd = false)
    (leaves : trivia.Leaves next.rest (point :: second :: stretch))
    (later : Skips other ⟨rest, mark.advance 2⟩ newline stretch next ended) :
    Skips trivia ⟨point :: second :: rest, mark⟩ newline (point :: second :: stretch) next ended := by
  refine ⟨.past within (.past secondWithin later.crosses), leaves, ?_, later.solid⟩
  rw [List.any_cons, List.any_cons, within, secondWithin, Bool.false_or, Bool.false_or]
  exact later.noticed

theorem lineEnd (ends : point.isLineEnd = true) (apart : Apart point rest)
    (leaves : trivia.Leaves next.rest (point :: stretch))
    (later : Skips other ⟨rest, mark.newline 1⟩ true stretch next ended) :
    Skips trivia ⟨point :: rest, mark⟩ newline (point :: stretch) next ended := by
  refine ⟨later.crosses.ended ends apart, leaves, ?_, later.solid⟩
  rw [List.any_cons, ends, later.noticed]
  simp

theorem lineBreak (leaves : trivia.Leaves next.rest (.char '\r' :: .char '\n' :: stretch))
    (later : Skips other ⟨rest, mark.newline 2⟩ true stretch next ended) :
    Skips trivia ⟨.char '\r' :: .char '\n' :: rest, mark⟩ newline
      (.char '\r' :: .char '\n' :: stretch) next ended := by
  refine ⟨.broken later.crosses, leaves, ?_, later.solid⟩
  have isEnd : (CodePoint.char '\r').isLineEnd = true := by decide
  rw [List.any_cons, isEnd, later.noticed]
  simp

end Skips

theorem skipTrivia_skips {trivia : Trivia} {text : Text} {mark : Mark} {newline ended : Bool}
    {next : Cursor} (skipped : skipTrivia trivia text mark newline = .ok (next, ended)) :
    ∃ stretch, Skips trivia ⟨text, mark⟩ newline stretch next ended := by
  fun_induction skipTrivia trivia text mark newline with
  | case1 => cases skipped
  | case2 trivia mark newline noBlock =>
      cases skipped
      refine ⟨[], .refl _, ?_, by simp, by simp⟩
      cases trivia with
      | between => exact .nil
      | lineComment => exact ⟨[], [], rfl, List.forall_mem_nil _, by simp, .nil⟩
      | blockComment opened => exact (noBlock opened rfl).elim
  | case3 rest mark newline induction =>
      obtain ⟨stretch, skips⟩ := induction skipped
      obtain ⟨body, gap, rfl, within, isEnded, later⟩ := skips.leaves
      exact ⟨_, .delimiter rfl rfl (Skippable.lineComment within isEnded later) skips⟩
  | case4 rest mark newline induction =>
      obtain ⟨stretch, skips⟩ := induction skipped
      obtain ⟨body, gap, rfl, unclosed, later⟩ := skips.leaves
      exact ⟨_, .delimiter rfl rfl (Skippable.blockComment unclosed later) skips⟩
  | case5 opened rest mark newline induction =>
      obtain ⟨stretch, skips⟩ := induction skipped
      exact ⟨_, .delimiter rfl rfl ⟨[], stretch, rfl, by decide, skips.leaves⟩ skips⟩
  | case6 rest mark newline induction =>
      obtain ⟨stretch, skips⟩ := induction skipped
      exact ⟨_, .lineBreak (Skippable.blank rfl (.blank rfl skips.leaves)) skips⟩
  | case7 rest mark newline induction =>
      obtain ⟨stretch, skips⟩ := induction skipped
      exact ⟨_, .lineBreak (.afterLineComment rfl (.blank rfl (.blank rfl skips.leaves))) skips⟩
  | case8 opened rest mark newline induction =>
      obtain ⟨stretch, skips⟩ := induction skipped
      exact ⟨_, .lineBreak (.inBlockComment (by simp) (.inBlockComment (by simp) skips.leaves))
        skips⟩
  | case9 point rest mark newline _ _ apart ends induction =>
      obtain ⟨stretch, skips⟩ := induction skipped
      exact ⟨_, .lineEnd ends apart (Skippable.lineEnd ends skips.leaves) skips⟩
  | case10 point rest mark newline _ _ _ within space induction =>
      obtain ⟨stretch, skips⟩ := induction skipped
      refine ⟨_, .past (by simpa using within) (Skippable.blank ?_ skips.leaves) skips⟩
      rw [isSkipped, space, Bool.or_true]
  | case11 point rest mark newline _ _ _ within noSpace =>
      cases skipped
      refine ⟨[], .refl _, .nil, by simp, fun first isFirst => ?_⟩
      cases isFirst
      rw [isSkipped, Bool.or_eq_false_iff]
      exact ⟨Bool.eq_false_iff.mpr within, Bool.eq_false_iff.mpr noSpace⟩
  | case12 point rest mark newline apart ends induction =>
      obtain ⟨stretch, skips⟩ := induction skipped
      exact ⟨_, .lineEnd ends apart (.afterLineComment ends (.lineEnd ends skips.leaves)) skips⟩
  | case13 point rest mark newline _ within induction =>
      obtain ⟨stretch, skips⟩ := induction skipped
      have within : point.isLineEnd = false := by simpa using within
      exact ⟨_, .past within (.inLineComment within skips.leaves) skips⟩
  | case14 opened point rest mark newline unclosed apart ends induction =>
      obtain ⟨stretch, skips⟩ := induction skipped
      have isRest : rest = stretch ++ next.rest := skips.crosses.rest
      exact ⟨_, .lineEnd ends apart (.inBlockComment (isRest ▸ unclosed) skips.leaves) skips⟩
  | case15 opened point rest mark newline unclosed _ within induction =>
      obtain ⟨stretch, skips⟩ := induction skipped
      have isRest : rest = stretch ++ next.rest := skips.crosses.rest
      exact ⟨_, .past (by simpa using within)
        (.inBlockComment (isRest ▸ unclosed) skips.leaves) skips⟩

end Lexer

end ScriptFold
