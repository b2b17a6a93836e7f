import ScriptFold.Proofs.Printer.Locality
import ScriptFold.Proofs.Printer.Tracking
import ScriptFold.Proofs.SourceMap.Positions

/-!
# Mappings and the copied text

When a stretch of the script is copied, a mapping is recorded for the first character of every
line of it.  Whether the mapping points at that character is compared on the two texts, by line
and column.  The mapping is recorded before the character is written, and writing may put a
blank in front of it, so the first mapping of a stretch points at the blank where the page has
to keep the stretch apart from the text before.  All later lines begin after a line feed, where
no blank is put.
-/

namespace ScriptFold

namespace Text

/-- The code point on a line and in a column of a text, both counted from zero. -/
def pointAt? (text : Text) (line column : Nat) : Option CodePoint :=
  (text.splitAt '\n')[line]?.bind (·[column]?)

/-- The code point after a beginning is found where the beginning ends, counted from the line
and column where the text begins. -/
theorem pointAt?_foldl {point : CodePoint} (noFeed : point.is '\n' = false) (lead rest : Text)
    (line column : Nat) :
    ∃ later further, (lead.foldl stepOver (line, column)).1 = line + later ∧
      (lead.foldl stepOver (line, column)).2 = (if later = 0 then column else 0) + further ∧
      (lead ++ point :: rest).pointAt? later further = some point := by
  induction lead generalizing line column with
  | nil =>
      obtain ⟨piece, pieces, isSplit⟩ := List.exists_cons_of_ne_nil (splitAt_ne_nil '\n' rest)
      have split : splitAt '\n' ([point] ++ rest) = ([point] ++ piece) :: pieces :=
        splitAt_append (by simpa using noFeed) isSplit
      refine ⟨0, 0, rfl, rfl, ?_⟩
      rw [pointAt?, List.nil_append, ← List.singleton_append, split]
      rfl
  | cons other others induction =>
      rw [List.foldl_cons, List.cons_append]
      by_cases feeds : other.is '\n' = true
      · obtain ⟨later, further, isLine, isColumn, found⟩ := induction (line + 1) 0
        have isFeed : other = .char '\n' := by simpa [CodePoint.is] using feeds
        rw [stepOver, if_pos feeds]
        refine ⟨later + 1, further, ?_, ?_, ?_⟩
        · rw [isLine]
          omega
        · rw [isColumn, if_neg (Nat.succ_ne_zero later)]
          simp
        · rw [pointAt?, isFeed, splitAt_mark]
          exact found
      · obtain ⟨later, further, isLine, isColumn, found⟩ := induction line (column + 1)
        obtain ⟨head, pieces, isSplit⟩ :=
          List.exists_cons_of_ne_nil (splitAt_ne_nil '\n' (others ++ point :: rest))
        have joined : splitAt '\n' ([other] ++ (others ++ point :: rest)) =
            ([other] ++ head) :: pieces := splitAt_append (by simpa using feeds) isSplit
        rw [stepOver, if_neg feeds]
        rw [pointAt?, isSplit] at found
        cases later with
        | zero =>
            refine ⟨0, further + 1, isLine, ?_, ?_⟩
            · rw [isColumn, if_pos rfl, if_pos rfl]
              omega
            · rw [pointAt?, ← List.singleton_append, joined]
              exact found
        | succ later =>
            refine ⟨later + 1, further, isLine, isColumn, ?_⟩
            rw [pointAt?, ← List.singleton_append, joined]
            exact found

/-- The code point after a beginning of a text is found where the beginning ends. -/
theorem pointAt?_reached {lead text : Text} {point : CodePoint}
    (begins : lead ++ [point] <+: text) (noFeed : point.is '\n' = false) :
    text.pointAt? lead.reached.1 lead.reached.2 = some point := by
  obtain ⟨rest, rfl⟩ := begins
  obtain ⟨later, further, isLine, isColumn, found⟩ := pointAt?_foldl noFeed lead rest 0 0
  rw [reached, isLine, isColumn, ite_self, Nat.zero_add, Nat.zero_add, List.append_assoc]
  exact found

end Text

namespace Mapping

/-- The characters at the two positions of a mapping are the same. -/
def PointsAt (source code : Text) (mapping : Mapping) : Prop :=
  ∃ (line column sourceLine sourceColumn : Nat) (point : CodePoint),
    mapping = ⟨line, column, sourceLine, sourceColumn⟩ ∧
      code.pointAt? line column = some point ∧
      source.pointAt? sourceLine sourceColumn = some point

/-- A mapping from a character `shown` of the code to a character `point` of the source. -/
def Links (source code : Text) (shown point : CodePoint) (mapping : Mapping) : Prop :=
  ∃ lead front : Text, lead ++ [shown] <+: code ∧ front ++ [point] <+: source ∧
    mapping = ⟨lead.reached.1, lead.reached.2, front.reached.1, front.reached.2⟩

variable {source code more : Text} {shown point : CodePoint} {mapping : Mapping}

theorem Links.mono (links : mapping.Links source code shown point) (longer : code <+: more) :
    mapping.Links source more shown point := by
  obtain ⟨lead, front, inCode, inSource, rfl⟩ := links
  exact ⟨lead, front, inCode.trans longer, inSource, rfl⟩

theorem Links.pointsAt_iff (links : mapping.Links source code shown point)
    (shownFree : shown.is '\n' = false) (pointFree : point.is '\n' = false) :
    mapping.PointsAt source code ↔ shown = point := by
  obtain ⟨lead, front, inCode, inSource, rfl⟩ := links
  have isShown := Text.pointAt?_reached inCode shownFree
  have isPoint := Text.pointAt?_reached inSource pointFree
  constructor
  · rintro ⟨line, column, sourceLine, sourceColumn, other, same, inCode, inSource⟩
    simp only [Mapping.mk.injEq, Int.natCast_inj] at same
    obtain ⟨rfl, rfl, rfl, rfl⟩ := same
    rw [isShown] at inCode
    rw [isPoint, ← inCode] at inSource
    cases inSource
    rfl
  · rintro rfl
    exact ⟨_, _, _, _, shown, rfl, isShown, isPoint⟩

end Mapping

namespace Page

variable {page : Page} {text : Text}

/-- A blank is put between the text of a page and a text that is written. -/
def Separates (page : Page) (text : Text) : Prop :=
  ∃ last first, page.text.getLast? = some last ∧ text.head? = some first ∧
    fuses last first = true

theorem not_separates_nil : ¬ page.Separates [] := by
  rintro ⟨last, first, _, isFirst, _⟩
  cases isFirst

theorem not_separates_of_blank {first : CodePoint} {rest : Text}
    (blank : first.isOneOf [' ', '\t', '\n']) : ¬ page.Separates (first :: rest) := by
  rintro ⟨last, other, _, isFirst, fused⟩
  cases isFirst
  rw [fuses_comm, not_fuses_of_blank blank] at fused
  cases fused

theorem not_separates_of_isOpen (isOpen : page.IsOpen) : ¬ page.Separates text := by
  rintro ⟨last, first, isLast, _, fused⟩
  rw [Page.text, List.getLast?_reverse] at isLast
  rw [not_fuses_of_blank (isOpen last isLast)] at fused
  cases fused

/-- A text that is not kept apart is written as it is. -/
theorem text_write_of_not_separates (apart : ¬ page.Separates text) :
    (page.write text).text = page.text ++ text := by
  rcases page.text_write text with ⟨last, first, isLast, isFirst, fused, _⟩ | ⟨_, isText⟩
  · exact absurd ⟨last, first, isLast, isFirst, fused⟩ apart
  · exact isText

/-- A text that is kept apart is written after a blank. -/
theorem text_write_of_separates (separates : page.Separates text) :
    (page.write text).text = page.text ++ .char ' ' :: text := by
  obtain ⟨last, first, isLast, isFirst, fused⟩ := separates
  rcases page.text_write text with ⟨_, _, _, _, _, isText⟩ | ⟨apart, _⟩
  · exact isText
  · rw [apart last first isLast isFirst] at fused
    cases fused

end Page

namespace Printer

variable {source : Source}

/-- A mapping from the first character that is copied of a line: from the character itself, or
from the blank in front of it. -/
def LinksLine (source : Source) (code : Text) (separated : Prop) (mapping : Mapping) : Prop :=
  ∃ point : CodePoint, point.is '\n' = false ∧ Page.isIndent point = false ∧
    ((¬ separated ∧ mapping.Links source.text code point point) ∨
      (separated ∧ mapping.Links source.text code (.char ' ') point))

theorem not_separates_lead {page : Page} {lead rest : Text}
    (apart : ¬ page.Separates (lead ++ rest)) : ¬ page.Separates lead := by
  rintro ⟨last, first, isLast, isFirst, fused⟩
  refine apart ⟨last, first, isLast, ?_, fused⟩
  rw [List.head?_append, isFirst]
  rfl

theorem text_write_map (page : Page) (line column : Nat) (text : Text) :
    ((page.map line column).write text).text = (page.write text).text := by
  have same : ((page.map line column).write text).forget = (page.write text).forget := by
    rw [Page.forget_write, Page.forget_map, Page.forget_write]
  have sameText := congrArg Page.text same
  exact sameText

/-- What follows the indentation of a line. -/
theorem exists_cons_of_lead {line : Text}
    (within : (line.takeWhile Page.isIndent).length < line.length) :
    ∃ point more, line.drop (line.takeWhile Page.isIndent).length = point :: more ∧
      Page.isIndent point = false := by
  have isRest : line.drop (line.takeWhile Page.isIndent).length = line.dropWhile Page.isIndent :=
    List.append_cancel_left ((lead_append_drop line).trans List.takeWhile_append_dropWhile.symm)
  have notEmpty : line.dropWhile Page.isIndent ≠ [] := by
    rw [← isRest]
    exact List.ne_nil_of_length_pos (by rw [List.length_drop]; omega)
  obtain ⟨point, more, isCons⟩ := List.exists_cons_of_ne_nil notEmpty
  have notIndent := List.head_dropWhile_not Page.isIndent notEmpty
  simp only [isCons, List.head_cons] at notIndent
  exact ⟨point, more, isRest.trans isCons, notIndent⟩

/-- Where the first character of a line after its indentation is mapped: to itself, unless the
line has no indentation and is kept apart. -/
theorem linksLine_of_lead {page : Page} {front lead more back : Text} {point : CodePoint}
    (isSource : source.text = (front ++ lead) ++ (point :: more ++ back)) (located : page.Located)
    (areIndents : ∀ point, point ∈ lead → Page.isIndent point)
    (noFeed : point.is '\n' = false) (notIndent : Page.isIndent point = false) :
    LinksLine source (page.write (lead ++ point :: more)).text
      (page.Separates (lead ++ point :: more))
      ⟨(page.write lead).line, (page.write lead).column, (front ++ lead).reached.1,
        (front ++ lead).reached.2⟩ := by
  have isPosition := located.write lead
  have inSource : front ++ lead ++ [point] <+: source.text := ⟨more ++ back, by simp [isSource]⟩
  have links : ∀ shown code, (page.write lead).text ++ [shown] <+: code →
      Mapping.Links source.text code shown point
        ⟨(page.write lead).line, (page.write lead).column, (front ++ lead).reached.1,
          (front ++ lead).reached.2⟩ := by
    intro shown code inCode
    exact ⟨_, _, inCode, inSource, by rw [← isPosition]⟩
  refine ⟨point, noFeed, notIndent, ?_⟩
  by_cases separates : page.Separates (lead ++ point :: more)
  · cases lead with
    | nil =>
        refine .inr ⟨separates, links _ _ ?_⟩
        rw [List.nil_append] at separates ⊢
        rw [Page.write_nil, Page.text_write_of_separates separates]
        exact ⟨point :: more, by simp⟩
    | cons first others =>
        have blank := Page.isOneOf_of_isIndent (areIndents first List.mem_cons_self)
        exact absurd separates (Page.not_separates_of_blank blank)
  · refine .inl ⟨separates, links _ _ ?_⟩
    have leadApart := Page.text_write_of_not_separates (not_separates_lead separates)
    rw [Page.text_write_of_not_separates separates, leadApart]
    exact ⟨more, by simp⟩

/-- A line is written in full, and its first character after the indentation is mapped. -/
theorem writeLine_links {page : Page} {line back : Text} (isScript : source.role = .script)
    (located : page.Located) (noFeed : ∀ point, point ∈ line → point.is '\n' = false)
    (front : Text) (stands : source.text = front ++ (line ++ back)) :
    ∃ after recorded, Turns (some (source.text.lineStarts 0))
        (writeLine source front.length line) page after ∧
      after.text = (page.write line).text ∧ after.Located ∧
      after.mappings = recorded ++ page.mappings ∧ recorded.length ≤ 1 ∧
      (page.Separates line → recorded ≠ []) ∧
      ∀ mapping, mapping ∈ recorded →
        LinksLine source after.text (page.Separates line) mapping := by
  unfold writeLine
  dsimp only
  by_cases within : (line.takeWhile Page.isIndent).length < line.length
  case neg =>
    have apart : ¬ page.Separates line := by
      cases line with
      | nil => exact Page.not_separates_nil
      | cons first more =>
          cases isIndent : Page.isIndent first with
          | true => exact Page.not_separates_of_blank (Page.isOneOf_of_isIndent isIndent)
          | false => simp [isIndent] at within
    rw [if_neg within]
    refine ⟨_, [], .write line, rfl, located.write line, mappings_write page line rfl,
      Nat.zero_le 1, fun separates => absurd separates apart, by simp⟩
  case pos =>
    rw [if_pos within]
    have twice := page.write_lead line
    have areIndents : ∀ point, point ∈ line.takeWhile Page.isIndent → Page.isIndent point :=
      List.all_eq_true.mp List.all_takeWhile
    have parts := lead_append_drop line
    obtain ⟨point, more, isRest, notIndent⟩ := exists_cons_of_lead within
    generalize line.takeWhile Page.isIndent = lead at *
    rw [isRest] at parts twice ⊢
    subst parts
    have isSource : source.text = (front ++ lead) ++ (point :: more ++ back) := by
      simp only [stands, List.append_assoc]
    have mapped := linksLine_of_lead isSource located areIndents
      (noFeed point (List.mem_append_right lead List.mem_cons_self)) notIndent
    have position : Text.positionFrom (front.length + lead.length) 0 0
        (source.text.lineStarts 0) = (front ++ lead).reached := by
      have begins : front ++ lead <+: source.text := ⟨_, isSource.symm⟩
      rw [← List.length_append, Text.positionFrom_eq_reached begins.length_le, isSource,
        List.take_left]
    generalize (front ++ lead).reached = reached at mapped position
    have isText : (((page.write lead).map reached.1 reached.2).write (point :: more)).text =
        (page.write (lead ++ point :: more)).text := by
      rw [text_write_map, ← twice]
    refine ⟨_, [⟨(page.write lead).line, (page.write lead).column, reached.1, reached.2⟩],
      .andThen (.write lead) (.andThen (.record isScript _ position) (.write _)), isText,
      Page.Located.write (located.write lead).map _, ?_, Nat.le_refl 1,
      fun _ => List.cons_ne_nil _ _, ?_⟩
    · rw [mappings_write _ _ rfl, Page.map, mappings_write page lead rfl]
      rfl
    · intro mapping there
      rw [List.mem_singleton] at there
      rw [isText, there]
      exact mapped

theorem LinksLine.mono {code more : Text} {separated : Prop} {mapping : Mapping}
    (links : LinksLine source code separated mapping) (longer : code <+: more) :
    LinksLine source more separated mapping := by
  obtain ⟨point, noFeed, notIndent, ⟨apart, links⟩ | ⟨apart, links⟩⟩ := links
  · exact ⟨point, noFeed, notIndent, .inl ⟨apart, links.mono longer⟩⟩
  · exact ⟨point, noFeed, notIndent, .inr ⟨apart, links.mono longer⟩⟩

/-- The mapping points at the copied character unless a blank was put in front of it. -/
theorem LinksLine.pointsAt_iff {code : Text} {separated : Prop} {mapping : Mapping}
    (links : LinksLine source code separated mapping) :
    mapping.PointsAt source.text code ↔ ¬ separated := by
  obtain ⟨point, noFeed, notIndent, ⟨apart, links⟩ | ⟨apart, links⟩⟩ := links
  · exact iff_of_true ((links.pointsAt_iff noFeed noFeed).mpr rfl) apart
  · refine iff_of_false ?_ (not_not_intro apart)
    rw [links.pointsAt_iff rfl noFeed]
    rintro rfl
    cases notIndent

/-- Lines after the first one are written in full, each after a line feed, and the first
characters are mapped to themselves. -/
theorem writeLines_links {page : Page} {lines : List Text} {back : Text}
    (isScript : source.role = .script) (located : page.Located)
    (noFeed : ∀ line, line ∈ lines → ∀ point, point ∈ line → point.is '\n' = false)
    (front : Text) (stands : source.text = front ++ (lines.flatMap (.char '\n' :: ·) ++ back)) :
    ∃ after recorded, Turns (some (source.text.lineStarts 0))
        (writeLines source false (front.length + 1) lines) page after ∧
      after.text = page.text ++ lines.flatMap (.char '\n' :: ·) ∧
      after.mappings = recorded ++ page.mappings ∧
      ∀ mapping, mapping ∈ recorded → LinksLine source after.text False mapping := by
  induction lines generalizing page front with
  | nil => exact ⟨page, [], rfl, (List.append_nil _).symm, rfl, by simp⟩
  | cons line rest induction =>
      have feeds := page.write_lineFeed
      have fed : page.feed.Located := by
        rw [← feeds]
        exact located.write _
      have apart : ¬ page.feed.Separates line := Page.not_separates_of_isOpen page.feed_isOpen
      have isFirstLine : source.text = (front ++ [.char '\n']) ++
          (line ++ (rest.flatMap (.char '\n' :: ·) ++ back)) := by
        simp [stands]
      obtain ⟨middle, first, turns, isMiddle, located, isFirst, _, _, links⟩ :=
        writeLine_links isScript fed (noFeed line List.mem_cons_self) (front ++ [.char '\n'])
          isFirstLine
      rw [Page.text_write_of_not_separates apart] at isMiddle
      obtain ⟨after, later, goes, isAfter, isLater, linksLater⟩ :=
        induction located (fun other there => noFeed other (.tail _ there))
          (front ++ .char '\n' :: line) (by simp [stands])
      have isText : after.text = page.text ++ (line :: rest).flatMap (.char '\n' :: ·) := by
        have fedText : page.feed.text = page.text ++ [.char '\n'] := List.reverse_cons
        rw [isAfter, isMiddle, fedText, List.flatMap_cons]
        simp
      refine ⟨after, later ++ first, .andThen (.write _) ?_, isText, ?_, ?_⟩
      · rw [feeds]
        have begins : (front ++ [CodePoint.char '\n']).length = front.length + 1 :=
          List.length_append
        have ends : (front ++ (CodePoint.char '\n' :: line)).length =
            front.length + 1 + line.length := by
          simp only [List.length_append, List.length_cons]
          omega
        rw [begins] at turns
        rw [ends] at goes
        exact .andThen turns goes
      · rw [isLater, isFirst, List.append_assoc]
        rfl
      · intro mapping there
        rcases List.mem_append.mp there with there | there
        · exact linksLater mapping there
        · have longer : middle.text <+: after.text := ⟨_, isAfter.symm⟩
          have here := (links mapping there).mono longer
          rwa [eq_false apart] at here

/-- Lines are kept apart from a page just as their first line is. -/
theorem separates_lines_iff {page : Page} {line : Text} {rest : List Text} :
    page.Separates (line ++ rest.flatMap (.char '\n' :: ·)) ↔ page.Separates line := by
  cases line with
  | nil =>
      refine iff_of_false ?_ Page.not_separates_nil
      cases rest with
      | nil => exact Page.not_separates_nil
      | cons second others => exact Page.not_separates_of_blank rfl
  | cons first more => rfl

/-- An empty stretch leaves the page as it is. -/
theorem copy_nothing {page : Page} {start stop : Nat} {starts : Option (List Nat)}
    (nothing : source.text.slice start stop = []) :
    Turns starts (copy source start stop) page page := by
  unfold copy
  split
  case isTrue => rfl
  case isFalse =>
    show Turns starts (if (starts.isSome && decide (source.role = .script)) = true
      then writeLines source true start ((source.text.slice start stop).splitAt '\n')
      else write (source.text.slice start stop)) page page
    rw [nothing]
    split <;> rfl

/-- What is recorded when a stretch of the script is copied.  The mappings point at the copied
characters if no blank is put in front of the stretch; if one is, just the first of them does
not. -/
theorem copy_points_iff {page : Page} (isScript : source.role = .script) (located : page.Located)
    (start stop : Nat) :
    ∃ after recorded, Turns (some (source.text.lineStarts 0)) (copy source start stop) page after ∧
      after.mappings = recorded ++ page.mappings ∧
      ∀ code, after.text <+: code →
        ((∀ mapping, mapping ∈ recorded → mapping.PointsAt source.text code) ↔
          ¬ page.Separates (source.text.slice start stop)) ∧
        ∀ mapping, mapping ∈ recorded.dropLast → mapping.PointsAt source.text code := by
  by_cases outside : stop ≤ start ∨ source.text.length ≤ start
  case pos =>
    have nothing : source.text.slice start stop = [] := by
      rcases outside with empty | beyond
      · exact slice_empty source.text empty
      · rw [Text.slice, List.drop_eq_nil_of_le beyond, List.take_nil]
    refine ⟨page, [], copy_nothing nothing, rfl, fun code _ => ⟨?_, by simp⟩⟩
    rw [nothing]
    exact iff_of_true (by simp) Page.not_separates_nil
  case neg =>
    obtain ⟨line, rest, isSplit⟩ :=
      List.exists_cons_of_ne_nil (Text.splitAt_ne_nil '\n' (source.text.slice start stop))
    have joined := Text.join_splitAt '\n' (source.text.slice start stop)
    have noFeed := Text.splitAt_no_mark '\n' (source.text.slice start stop)
    rw [isSplit] at joined noFeed
    rw [join_lineFeeds] at joined
    have isFront : (source.text.take start).length = start := by
      rw [List.length_take]
      omega
    have isSource : source.text = source.text.take start ++
        (source.text.slice start stop ++ source.text.drop (start + (stop - start))) := by
      rw [Text.slice, ← List.drop_drop, List.take_append_drop, List.take_append_drop]
    rw [← joined] at isSource
    obtain ⟨middle, first, turns, isMiddle, located, isFirst, atMost, mapsFirst, links⟩ :=
      writeLine_links isScript located (noFeed line List.mem_cons_self) (source.text.take start)
        (isSource.trans (by rw [List.append_assoc line]))
    obtain ⟨after, later, goes, isAfter, isLater, linksLater⟩ :=
      writeLines_links isScript located (fun other there => noFeed other (.tail _ there))
        (source.text.take start ++ line) (isSource.trans (by simp only [List.append_assoc]; rfl))
    have copied : Turns (some (source.text.lineStarts 0)) (copy source start stop) page after := by
      unfold copy
      rw [if_neg (by omega)]
      simp only [isSplit, isScript]
      show Turns _ (writeLines source true start (line :: rest)) _ _
      rw [isFront] at turns
      rw [List.length_append, isFront] at goes
      exact .andThen turns goes
    have longer : middle.text <+: after.text := ⟨_, isAfter.symm⟩
    have separatesAlike : page.Separates (source.text.slice start stop) ↔ page.Separates line := by
      rw [← joined]
      exact separates_lines_iff
    refine ⟨after, later ++ first, copied, by rw [isLater, isFirst, List.append_assoc], ?_⟩
    intro code kept
    have laterPoint : ∀ mapping, mapping ∈ later → mapping.PointsAt source.text code := by
      intro mapping there
      exact ((linksLater mapping there).mono kept).pointsAt_iff.mpr not_false
    have firstPoint : ∀ mapping, mapping ∈ first →
        (mapping.PointsAt source.text code ↔ ¬ page.Separates line) := by
      intro mapping there
      exact ((links mapping there).mono (longer.trans kept)).pointsAt_iff
    rw [separatesAlike]
    refine ⟨⟨?_, ?_⟩, ?_⟩
    · intro all separates
      obtain ⟨mapping, others, isCons⟩ := List.exists_cons_of_ne_nil (mapsFirst separates)
      have there : mapping ∈ first := by simp [isCons]
      have pointed := all mapping (List.mem_append_right later there)
      exact (firstPoint mapping there).mp pointed separates
    · intro apart mapping there
      rcases List.mem_append.mp there with there | there
      · exact laterPoint mapping there
      · exact (firstPoint mapping there).mpr apart
    · intro mapping there
      apply laterPoint mapping
      cases first with
      | nil =>
          rw [List.append_nil] at there
          exact List.dropLast_subset later there
      | cons only others =>
          rw [List.length_cons] at atMost
          rw [List.eq_nil_of_length_eq_zero (by omega : others.length = 0),
            List.dropLast_concat] at there
          exact there

/-- The mappings that are recorded while a stretch is copied, last one first. -/
def Stretch.recorded (stretch : Stretch) : List Mapping :=
  stretch.after.mappings.take (stretch.after.mappings.length - stretch.page.mappings.length)

/-- The mappings of a stretch that is copied on the way point at the copied characters of the
text that is reached, unless the stretch is kept apart from the text before. -/
theorem Copies.points_iff {α : Type} {step : Print α} {page after : Page} {value : α}
    {stretches : List Stretch} (isScript : source.role = .script)
    (copies : Copies (some (source.text.lineStarts 0)) step page value after stretches)
    (located : page.Located) {stretch : Stretch} (there : stretch ∈ stretches)
    (sameSource : stretch.source = source) :
    stretch.recorded ++ stretch.page.mappings <:+ after.mappings ∧
      ((∀ mapping, mapping ∈ stretch.recorded → mapping.PointsAt source.text after.text) ↔
        ¬ stretch.page.Separates (source.text.slice stretch.start stretch.stop)) ∧
      ∀ mapping, mapping ∈ stretch.recorded.dropLast →
        mapping.PointsAt source.text after.text := by
  obtain ⟨located, stays, copied⟩ := (copies.goes located).2 stretch there
  obtain ⟨copiedTo, recorded, turns, isAfter, points⟩ :=
    copy_points_iff isScript located stretch.start stretch.stop
  rw [sameSource, Turns] at copied
  rw [Turns, copied] at turns
  cases turns
  have isRecorded : stretch.recorded = recorded := by
    rw [Stretch.recorded, isAfter, List.length_append, Nat.add_sub_cancel, List.take_left]
  rw [isRecorded, ← isAfter]
  exact ⟨stays.mappings, points after.text stays.text⟩

/-- When a tree is printed with a source map, the mappings that are recorded while a stretch of
its source is copied point at the copied characters if and only if the stretch is not kept apart
from the text before by a blank.  If it is, just the first of them does not. -/
theorem printTree_copies_point_iff {tree : Node} {name : Text} {mapName : Option Text}
    {printed : Printed} (isScript : source.role = .script)
    (isSource : tree.place?.map Place.source = some source)
    (done : printTree tree (some name) mapName = .ok printed) :
    ∃ page,
      printed = ⟨page.text, some (SourceMap.mk name (some source.text) mapName
        page.mappings.reverse).toJson⟩ ∧
      (∃ stretches, Copies (some (source.text.lineStarts 0))
        ((emitter tree).emit .absent none 0) {} () page stretches) ∧
      ∀ stretches, Copies (some (source.text.lineStarts 0))
          ((emitter tree).emit .absent none 0) {} () page stretches →
        ∀ stretch, stretch ∈ stretches → stretch.source = source →
          stretch.recorded ++ stretch.page.mappings <:+ page.mappings ∧
          ((∀ mapping, mapping ∈ stretch.recorded →
              mapping.PointsAt source.text printed.code) ↔
            ¬ stretch.page.Separates (source.text.slice stretch.start stretch.stop)) ∧
          ∀ mapping, mapping ∈ stretch.recorded.dropLast →
            mapping.PointsAt source.text printed.code := by
  obtain ⟨page, turns, rfl⟩ := page_of_printTree isSource done
  have obeyed : copying.holds ((emitter tree).emit .absent none 0) :=
    (copying.emitter_obeyed tree.placed_anywhere).emit .absent none 0
  refine ⟨page, rfl, obeyed _ _ _ _ turns, ?_⟩
  intro stretches copies stretch there sameSource
  exact copies.points_iff isScript rfl there sameSource

/-- The script `-(-y)`. -/
def twoMinus : Source :=
  ⟨"-(-y)", some "a.js", .script⟩

/-- The operand of `-(-y)`, as it was read. -/
def innerMinus : Node :=
  .read .unary {} twoMinus ⟨2, 4, 1, 2, 1, 4⟩
    [.leaf ⟨.op, "-", none⟩, .read .ident {} twoMinus ⟨3, 4, 1, 3, 1, 4⟩ [.leaf ⟨.name, "y", none⟩]]

/-- The tree of `-(-y)` after the parentheses are taken away. -/
def outerMinus : Node :=
  .tree .unary {} (some ⟨twoMinus, ⟨0, 5, 1, 0, 1, 5⟩,
      [.present (some 0) (some 1), .present (some 1) (some 5)]⟩)
    [⟨some 0, .leaf ⟨.op, "-", none⟩⟩, ⟨none, innerMinus⟩]

/-- The page on which the operand is copied. -/
def afterMinus : Page :=
  (({} : Page).map 0 0).write "-"

private theorem innerMinus_copies (page : Page) : ∃ after,
    Copies (some (twoMinus.text.lineStarts 0))
      ((emitter innerMinus).emit outerMinus (some 1) Precedence.unary) page () after
      [⟨twoMinus, 2, 4, page, after⟩] := by
  obtain ⟨after, turns, _⟩ := copy_forget twoMinus (some (twoMinus.text.lineStarts 0)) 2 4 page
  exact ⟨after, .andThen (.pure false page) (.andNothing (.copy turns) (.pure () after))⟩

theorem outerMinus_copies : ∃ after,
    Copies (some (twoMinus.text.lineStarts 0)) ((emitter outerMinus).emit .absent none 0) {} ()
      after [⟨twoMinus, 2, 4, afterMinus, after⟩] := by
  obtain ⟨after, copies⟩ := innerMinus_copies afterMinus
  have recorded : Turns (some (twoMinus.text.lineStarts 0)) (record twoMinus 0) {}
      (({} : Page).map 0 0) := .record rfl 0 rfl
  have body : Copies (some (twoMinus.text.lineStarts 0)) (renew outerMinus .unary {}
      outerMinus.place? (partsOf outerMinus.seated)) {} () after
      [⟨twoMinus, 2, 4, afterMinus, after⟩] := by
    refine .andThen (.record recorded) ?_
    refine .andThen (.pure _ _) ?_
    refine .andThen (.write _ _) ?_
    exact .andThen (.pure _ _) copies
  exact ⟨after, .andThen (.pure false {}) (.andNothing body (.pure () after))⟩

/-- The tree is printed as `- -y`, with a blank in front of its operand. -/
theorem outerMinus_printed : ∃ printed, printTree outerMinus (some "a.js") none = .ok printed ∧
    printed.code = Text.ofString "- -y" := by
  cases done : printTree outerMinus (some "a.js") none with
  | error failure =>
      have succeeds : (printTree outerMinus (some "a.js") none).toOption.isSome := by decide +kernel
      rw [done] at succeeds
      cases succeeds
  | ok printed =>
      have isCode : (printTree outerMinus (some "a.js") none).toOption.map Printed.code =
          some (Text.ofString "- -y") := by decide +kernel
      rw [done] at isCode
      exact ⟨printed, rfl, Option.some.inj isCode⟩

/-- The operand is kept apart from the sign before it. -/
theorem afterMinus_separates : afterMinus.Separates (twoMinus.text.slice 2 4) :=
  ⟨.char '-', .char '-', rfl, rfl, rfl⟩

/-- The mappings that are recorded for the operand of `-(-y)` do not all point at it. -/
theorem outerMinus_copies_point_iff : twoMinus.role = .script ∧
    outerMinus.place?.map Place.source = some twoMinus ∧
    ∃ printed page stretch, printTree outerMinus (some "a.js") none = .ok printed ∧
      Copies (some (twoMinus.text.lineStarts 0)) ((emitter outerMinus).emit .absent none 0) {} ()
        page [stretch] ∧
      ((∀ mapping, mapping ∈ stretch.recorded →
          mapping.PointsAt twoMinus.text printed.code) ↔
        ¬ stretch.page.Separates (twoMinus.text.slice stretch.start stretch.stop)) := by
  obtain ⟨printed, done, _⟩ := outerMinus_printed
  have isScript : twoMinus.role = .script := rfl
  have isSource : outerMinus.place?.map Place.source = some twoMinus := rfl
  obtain ⟨page, rfl, ⟨stretches, copies⟩, points⟩ :=
    printTree_copies_point_iff isScript isSource done
  obtain ⟨after, known⟩ := outerMinus_copies
  have same : after = page := by
    have turns := known.runs
    rw [copies.runs] at turns
    cases turns
    rfl
  subst same
  exact ⟨isScript, isSource, _, after, _, done, known,
    (points _ known _ (List.mem_singleton.mpr rfl) rfl).2.1⟩

/-- Not every mapping of a stretch that is copied points at the copied text: the operand of
`-(-y)` is mapped from the blank in front of it. -/
theorem separatedStretch_not_pointed : ¬ ∀ (tree : Node) (source : Source) (name : Text)
    (mapName : Option Text) (printed : Printed), source.role = .script →
    tree.place?.map Place.source = some source →
    printTree tree (some name) mapName = .ok printed →
    ∀ page stretches, Copies (some (source.text.lineStarts 0))
        ((emitter tree).emit .absent none 0) {} () page stretches →
      ∀ stretch, stretch ∈ stretches → stretch.source = source → stretch.start < stretch.stop →
        ∀ mapping, mapping ∈ stretch.recorded → mapping.PointsAt source.text printed.code := by
  intro points
  obtain ⟨printed, done, _⟩ := outerMinus_printed
  have isSource : outerMinus.place?.map Place.source = some twoMinus := rfl
  obtain ⟨page, turns, rfl⟩ := page_of_printTree isSource done
  obtain ⟨after, copies⟩ := outerMinus_copies
  have same : after = page := by
    rw [Turns, copies.runs] at turns
    cases turns
    rfl
  subst same
  have there : (⟨twoMinus, 2, 4, afterMinus, after⟩ : Stretch) ∈
      [(⟨twoMinus, 2, 4, afterMinus, after⟩ : Stretch)] := List.mem_singleton.mpr rfl
  have pointed := points _ _ _ _ _ rfl isSource done _ _ copies _ there rfl (show 2 < 4 by decide)
  exact (copies.points_iff rfl rfl there rfl).2.1.mp pointed afterMinus_separates

end Printer

end ScriptFold
