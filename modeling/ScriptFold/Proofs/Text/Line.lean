import Mathlib.Data.List.DropRight
import ScriptFold.Token.Lexer

/-!
# Lines of a text

A line ends at a line feed, a return or one of the two separators, and a return right in front
of a line feed ends no line of its own.  Marks move over a text with its lines.  Lines of two
texts are the lines of both together, as long as no return and line feed are taken apart.
-/

namespace ScriptFold

namespace Text

/-- A line ends at a code point that some text comes after. -/
def endsLine (point : CodePoint) (rest : Text) : Bool :=
  point.isLineEnd && !(point.is '\r' && rest.head? == some (.char '\n'))

/-- How many lines end in a text. -/
def lineEnds : Text → Nat
  | [] => 0
  | point :: rest => if endsLine point rest then lineEnds rest + 1 else lineEnds rest

/-- What comes after the last line end of a text. -/
def lastLine (text : Text) : Text :=
  text.rtakeWhile fun point => !point.isLineEnd

/-- Two texts do not take a return and a line feed apart. -/
def Uncut (first second : Text) : Prop :=
  first.getLast? = some (.char '\r') → second.head? ≠ some (.char '\n')

theorem Uncut.of_head {first second : Text} (noFeed : second.head? ≠ some (.char '\n')) :
    Uncut first second :=
  fun _ => noFeed

theorem Uncut.of_last {first second : Text} (noReturn : first.getLast? ≠ some (.char '\r')) :
    Uncut first second :=
  fun isReturn => absurd isReturn noReturn

theorem Uncut.tail {point : CodePoint} {first second : Text} (uncut : Uncut (point :: first) second) :
    Uncut first second := by
  intro isReturn
  refine uncut ?_
  rw [List.getLast?_cons, isReturn]
  rfl

theorem endsLine_of_not {point : CodePoint} (within : point.isLineEnd = false) (rest : Text) :
    endsLine point rest = false := by
  rw [endsLine, within, Bool.false_and]

theorem endsLine_append {point : CodePoint} {first second : Text}
    (uncut : Uncut (point :: first) second) :
    endsLine point (first ++ second) = endsLine point first := by
  cases first with
  | cons next first => rfl
  | nil =>
      by_cases isReturn : point = .char '\r'
      · subst isReturn
        have noFeed : (second.head? == some (.char '\n')) = false := by
          rw [beq_eq_false_iff_ne]
          exact uncut rfl
        simp [endsLine, noFeed]
      · have noReturn : point.is '\r' = false := by simpa [CodePoint.is] using isReturn
        simp [endsLine, noReturn]

theorem lineEnds_append {first second : Text} (uncut : Uncut first second) :
    lineEnds (first ++ second) = lineEnds first + lineEnds second := by
  induction first with
  | nil => rw [List.nil_append, lineEnds, Nat.zero_add]
  | cons point first induction =>
      rw [List.cons_append, lineEnds, lineEnds, endsLine_append uncut, induction uncut.tail]
      split
      · exact Nat.add_right_comm _ _ _
      · rfl

theorem lineEnds_of_forall {text : Text} (within : ∀ point ∈ text, point.isLineEnd = false) :
    lineEnds text = 0 := by
  induction text with
  | nil => rfl
  | cons point rest induction =>
      obtain ⟨here, later⟩ := List.forall_mem_cons.mp within
      rw [lineEnds, endsLine_of_not here, if_neg Bool.false_ne_true]
      exact induction later

theorem lastLine_of_forall {text : Text} (within : ∀ point ∈ text, point.isLineEnd = false) :
    lastLine text = text := by
  rw [lastLine, List.rtakeWhile_eq_self_iff]
  exact fun point there => by rw [within point there]; rfl

theorem lastLine_cons_of_exists (point : CodePoint) {rest : Text}
    (ended : ∃ other ∈ rest, other.isLineEnd = true) : lastLine (point :: rest) = lastLine rest := by
  obtain ⟨other, there, ends⟩ := ended
  have stops : ¬ ∀ point ∈ rest.reverse, (!point.isLineEnd) = true := by
    intro within
    have none := within other (List.mem_reverse.mpr there)
    rw [ends] at none
    cases none
  rw [lastLine, lastLine, List.rtakeWhile, List.rtakeWhile, List.reverse_cons,
    List.takeWhile_append, if_neg]
  rw [← List.takeWhile_eq_self_iff] at stops
  exact fun whole => stops ((List.takeWhile_prefix _).eq_of_length whole)

theorem lastLine_cons_of_forall {point : CodePoint} (ends : point.isLineEnd = true) {rest : Text}
    (within : ∀ other ∈ rest, other.isLineEnd = false) : lastLine (point :: rest) = rest := by
  have taken : rest.reverse.takeWhile (fun point => !point.isLineEnd) = rest.reverse := by
    rw [List.takeWhile_eq_self_iff]
    intro other there
    rw [within other (List.mem_reverse.mp there)]
    rfl
  rw [lastLine, List.rtakeWhile, List.reverse_cons, List.takeWhile_append, taken, if_pos rfl]
  simp [ends]

end Text

namespace Mark

open Text

/-- The mark after a text that begins at a mark. -/
def across (mark : Mark) : Text → Mark
  | [] => mark
  | point :: rest => (if endsLine point rest then mark.newline 1 else mark.advance 1).across rest

theorem across_append {first second : Text} (uncut : Uncut first second) (mark : Mark) :
    mark.across (first ++ second) = (mark.across first).across second := by
  induction first generalizing mark with
  | nil => rfl
  | cons point first induction =>
      rw [List.cons_append, across, across, endsLine_append uncut, induction uncut.tail]

theorem across_of_forall {text : Text} (within : ∀ point ∈ text, point.isLineEnd = false)
    (mark : Mark) : mark.across text = mark.advance text.length := by
  induction text generalizing mark with
  | nil => rfl
  | cons point rest induction =>
      obtain ⟨here, later⟩ := List.forall_mem_cons.mp within
      rw [across, endsLine_of_not here, if_neg Bool.false_ne_true, induction later, List.length_cons]
      simp only [advance, Mark.mk.injEq, true_and]
      omega

/-- After a line end, the column counts from there. -/
theorem across_column_of_exists {text : Text} (ended : ∃ point ∈ text, point.isLineEnd = true)
    (mark : Mark) : (mark.across text).column = 1 + (lastLine text).length := by
  induction text generalizing mark with
  | nil => simp at ended
  | cons point rest induction =>
      rw [across]
      by_cases further : ∃ other ∈ rest, other.isLineEnd = true
      · rw [induction further, lastLine_cons_of_exists point further]
      · have within : ∀ other ∈ rest, other.isLineEnd = false := by simpa using further
        have ends : point.isLineEnd = true := by simpa [within, further] using ended
        have endsHere : endsLine point rest = true := by
          have noFeed : (rest.head? == some (.char '\n')) = false := by
            cases rest with
            | nil => rfl
            | cons next rest =>
                rw [beq_eq_false_iff_ne]
                intro isFeed
                cases isFeed
                cases within _ List.mem_cons_self
          rw [endsLine, ends, noFeed, Bool.and_false]
          rfl
        rw [endsHere, if_pos rfl, across_of_forall within, lastLine_cons_of_forall ends within]
        rfl

/-- The column that a text leads to from its start counts from its last line end. -/
theorem across_start_column (text : Text) :
    (Mark.start.across text).column = 1 + (lastLine text).length := by
  by_cases ended : ∃ point ∈ text, point.isLineEnd = true
  · exact across_column_of_exists ended .start
  · have within : ∀ point ∈ text, point.isLineEnd = false := by simpa using ended
    rw [across_of_forall within, lastLine_of_forall within]
    rfl

end Mark

end ScriptFold
