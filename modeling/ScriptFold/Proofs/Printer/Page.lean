import ScriptFold.Fault
import ScriptFold.Printer.Page
import ScriptFold.Text.Basic

/-!
# Copying a whole source

What a page holds after a source text is copied onto it line by line.  No blank is
written in between: a line feed and an indentation keep tokens apart by themselves.
The position of an offset is the number of line feeds before it and its distance from
the last one, which is where the copy stands on the page as well.
-/

namespace ScriptFold

namespace Page

theorem text_put (page : Page) (point : CodePoint) :
    (page.put point).text = page.text ++ [point] := by
  unfold put text
  split <;> exact List.reverse_cons

theorem reversed_foldl_put (text : Text) (page : Page) :
    (text.foldl put page).reversed = text.reverse ++ page.reversed := by
  induction text generalizing page with
  | nil => rfl
  | cons point rest induction =>
      rw [List.foldl_cons, induction, List.reverse_cons, List.append_assoc]
      congr 1
      unfold put
      split <;> rfl

/-- Text of one line only moves the column. -/
theorem foldl_put_line {text : Text} (noFeed : ∀ point, point ∈ text → point.is '\n' = false)
    (page : Page) :
    text.foldl put page =
      { page with
        reversed := text.reverse ++ page.reversed
        column := page.column + text.length } := by
  induction text generalizing page with
  | nil => rfl
  | cons point rest induction =>
      have onLine : page.put point =
          { page with reversed := point :: page.reversed, column := page.column + 1 } := by
        rw [put, if_neg (by simp [noFeed point List.mem_cons_self])]
      rw [List.foldl_cons, induction (fun other there => noFeed other (.tail _ there)), onLine]
      simp only [List.reverse_cons, List.append_assoc, List.length_cons, List.singleton_append,
        Nat.add_assoc, Nat.add_comm 1]

/-- A page whose text does not end in the middle of a token. -/
def IsOpen (page : Page) : Prop :=
  ∀ last, page.reversed.head? = some last → last.isOneOf [' ', '\t', '\n']

theorem isOneOf_of_isIndent {point : CodePoint} (isIndent : Page.isIndent point) :
    point.isOneOf [' ', '\t', '\n'] := by
  simp only [Page.isIndent, CodePoint.isOneOf, List.any_cons, List.any_nil, Bool.or_false,
    Bool.or_eq_true] at isIndent ⊢
  exact isIndent.imp_right .inl

/-- Indentation keeps a page open. -/
theorem IsOpen.indent {page : Page} (isOpen : page.IsOpen) {lead : Text}
    (areIndents : ∀ point, point ∈ lead → isIndent point) (column : Nat)
    (mappings : List Mapping) :
    IsOpen ⟨lead.reverse ++ page.reversed, page.line, column, mappings⟩ := by
  intro last isLast
  rw [List.head?_append] at isLast
  rcases Option.or_eq_some_iff.mp isLast with inLead | ⟨_, onPage⟩
  · exact isOneOf_of_isIndent (areIndents last (List.mem_reverse.mp (List.mem_of_head? inLead)))
  · exact isOpen last onPage

theorem not_fuses_of_blank {last : CodePoint} (blank : last.isOneOf [' ', '\t', '\n'])
    (first : CodePoint) : fuses last first = false := by
  simp only [CodePoint.isOneOf, List.any_cons, List.any_nil, Bool.or_false, Bool.or_eq_true,
    CodePoint.is, beq_iff_eq] at blank
  rcases blank with rfl | rfl | rfl <;> rfl

theorem not_fuses_lineFeed (last : CodePoint) : fuses last (.char '\n') = false := by
  have notWord : isWordChar (.char '\n') = false := rfl
  rw [fuses, notWord, Bool.and_false, Bool.or_false]
  by_cases same : CodePoint.char '\n' = last
  · subst same
    rfl
  · rw [beq_false_of_ne same, Bool.and_false]

/-- Text that does not fuse with the last character is written as it is. -/
theorem write_of_not_fuses {page : Page} {text : Text}
    (apart : ∀ last first, page.reversed.head? = some last → text.head? = some first →
      fuses last first = false) :
    page.write text = text.foldl put page := by
  unfold write
  split
  case h_1 first _ last _ isPage =>
    rw [apart last first (by rw [isPage]; rfl) rfl, Bool.and_false]
    rfl
  case h_2 => rfl

theorem write_of_isOpen {page : Page} (isOpen : page.IsOpen) (text : Text) :
    page.write text = text.foldl put page :=
  write_of_not_fuses fun last first isLast _ => not_fuses_of_blank (isOpen last isLast) first

/-- A page that goes on with a new line. -/
def feed (page : Page) : Page :=
  { page with reversed := .char '\n' :: page.reversed, line := page.line + 1, column := 0 }

theorem feed_isOpen (page : Page) : page.feed.IsOpen := by
  intro last isLast
  cases isLast
  rfl

theorem write_lineFeed (page : Page) : page.write (Text.ofString "\n") = page.feed := by
  have apart : ∀ last first, page.reversed.head? = some last →
      (Text.ofString "\n").head? = some first → fuses last first = false := by
    intro last first _ isFirst
    cases isFirst
    exact not_fuses_lineFeed last
  rw [write_of_not_fuses apart]
  rfl

/-- The mapping of the first character of a line after its indentation, if there is one. -/
def lineMapping? (line : Text) (index : Nat) : Option Mapping :=
  (line.findIdx? fun point => !isIndent point).map fun (column : Nat) =>
    ⟨index, column, index, column⟩

/-- A page at the start of a line that gets the line and the mapping of its first character. -/
def copyLine (page : Page) (line : Text) : Page :=
  { page with
    reversed := line.reverse ++ page.reversed
    column := page.column + line.length
    mappings := (lineMapping? line page.line).toList ++ page.mappings }

/-- A page that gets more lines. -/
def copyLines (page : Page) (lines : List Text) : Page :=
  lines.foldl (fun page line => page.feed.copyLine line) page

/-- The mappings of the first characters of lines, the first line being line `index`. -/
def lineMappings (index : Nat) (lines : List Text) : List Mapping :=
  (lines.zipIdx index).filterMap fun (line, index) => lineMapping? line index

theorem copyLines_text (page : Page) (lines : List Text) :
    (page.copyLines lines).text = page.text ++ lines.flatMap (.char '\n' :: ·) := by
  induction lines generalizing page with
  | nil => exact (List.append_nil _).symm
  | cons line rest induction =>
      refine (induction _).trans ?_
      simp [text, copyLine, feed]

theorem copyLines_mappings (page : Page) (lines : List Text) :
    (page.copyLines lines).mappings.reverse =
      page.mappings.reverse ++ lineMappings (page.line + 1) lines := by
  induction lines generalizing page with
  | nil => exact (List.append_nil _).symm
  | cons line rest induction =>
      refine (induction _).trans ?_
      simp only [lineMappings, List.zipIdx_cons, List.filterMap_cons, copyLine, feed,
        List.reverse_append, List.append_assoc]
      cases lineMapping? line (page.line + 1) <;> rfl

end Page

namespace Text

/-- Line starts of a text that ends its first line. -/
theorem lineStarts_lineFeed {line : Text} (noFeed : ∀ point, point ∈ line → point.is '\n' = false)
    (offset : Nat) (rest : Text) :
    lineStarts offset (line ++ .char '\n' :: rest) =
      (offset + line.length + 1) :: lineStarts (offset + line.length + 1) rest := by
  induction line generalizing offset with
  | nil => rfl
  | cons point others induction =>
      have later := induction (fun other there => noFeed other (.tail _ there)) (offset + 1)
      have notFeed := noFeed point List.mem_cons_self
      rw [Nat.add_right_comm offset 1] at later
      simp only [lineStarts] at later
      simp only [lineStarts, List.cons_append, List.zipIdx_cons, List.filterMap_cons, notFeed,
        List.length_cons]
      exact later

private theorem lineStarts_line {line : Text} (noFeed
    : ∀ point, point ∈ line → point.is '\n' = false)
    (offset : Nat) : lineStarts offset line = [] := by
  rw [lineStarts, List.filterMap_eq_nil_iff]
  rintro ⟨point, next⟩ there
  simp [noFeed point (List.fst_mem_of_mem_zipIdx there)]

/-- The lines from line `index` on, the first of which starts at `offset`, have their
positions as `position` gives them. -/
def LinesAt (position : Nat → Nat × Nat) : (index offset : Nat) → List Text → Prop
  | _, _, [] => True
  | index, offset, line :: rest =>
      (∀ column, column ≤ line.length → position (offset + column) = (index, column)) ∧
        LinesAt position (index + 1) (offset + line.length + 1) rest

private theorem linesAt_positionFrom {position : Nat → Nat × Nat} {lines : List Text}
    (noFeed : ∀ line, line ∈ lines → ∀ point, point ∈ line → point.is '\n' = false)
    (index offset : Nat)
    (agrees : ∀ other, offset ≤ other → position other =
      positionFrom other index offset (lineStarts offset (join [.char '\n'] lines))) :
    LinesAt position index offset lines := by
  induction lines generalizing index offset with
  | nil => trivial
  | cons line rest induction =>
      have lineFree := noFeed line List.mem_cons_self
      cases rest with
      | nil =>
          refine ⟨fun column _ => ?_, trivial⟩
          rw [agrees _ (Nat.le_add_right _ _)]
          simp only [join, lineStarts_line lineFree, positionFrom, Nat.add_sub_cancel_left]
      | cons second others =>
          simp only [join_cons (List.cons_ne_nil second others), List.append_assoc,
            List.singleton_append, lineStarts_lineFeed lineFree, positionFrom] at agrees
          refine ⟨fun column within => ?_, ?_⟩
          · rw [agrees _ (Nat.le_add_right _ _), if_neg (by omega), Nat.add_sub_cancel_left]
          · refine induction (fun other there => noFeed other (.tail _ there)) _ _ ?_
            intro other after
            rw [agrees other (by omega), if_pos after]

/-- The lines of a text have the positions that its line starts give. -/
theorem linesAt_lineStarts (text : Text) :
    LinesAt (fun offset => positionFrom offset 0 0 (text.lineStarts 0)) 0 0
      (text.splitAt '\n') := by
  refine linesAt_positionFrom (splitAt_no_mark '\n' text) 0 0 fun other _ => ?_
  rw [join_splitAt]

end Text

namespace Printer

/-- Printing turns a page into another. -/
def Turns (starts : Option (List Nat)) (action : Print Unit) (page after : Page) : Prop :=
  (action.run starts).run page = .ok ((), after)

namespace Turns

variable {starts : Option (List Nat)} {page middle after : Page}

theorem andThen {first : Print Unit} {second : Unit → Print Unit}
    (begins : Turns starts first page middle) (ends : Turns starts (second ()) middle after) :
    Turns starts (first >>= second) page after := by
  have runs : ((first >>= second).run starts).run page =
      ((first.run starts).run page >>= fun result =>
        ((second result.1).run starts).run result.2) := rfl
  rw [Turns, runs, begins]
  exact ends

theorem write (text : Text) : Turns starts (Printer.write text) page (page.write text) :=
  rfl

theorem record {source : Source} {starts : List Nat} (isScript : source.role = .script)
    (offset : Nat) {line column : Nat}
    (position : Text.positionFrom offset 0 0 starts = (line, column)) :
    Turns (some starts) (Printer.record source offset) page (page.map line column) := by
  have runs : ((Printer.record source offset).run (some starts)).run page =
      .ok ((), page.map (Text.positionFrom offset 0 0 starts).1
        (Text.positionFrom offset 0 0 starts).2) := by
    unfold Printer.record
    simp only [isScript]
    rfl
  rw [Turns, runs, position]

end Turns

theorem length_lead (line : Text) :
    (line.takeWhile Page.isIndent).length = line.findIdx fun point => !Page.isIndent point := by
  rw [List.takeWhile_eq_take_findIdx_not, List.length_take]
  exact Nat.min_eq_left List.findIdx_le_length

theorem lead_append_drop (line : Text) :
    line.takeWhile Page.isIndent ++ line.drop (line.takeWhile Page.isIndent).length = line := by
  rw [length_lead, List.takeWhile_eq_take_findIdx_not, List.take_append_drop]

/-- A line is written in full and maps its first character after the indentation. -/
theorem writeLine_turns {source : Source} {starts : List Nat} {page : Page} {line : Text}
    (isScript : source.role = .script) (isOpen : page.IsOpen) (atStart : page.column = 0)
    (noFeed : ∀ point, point ∈ line → point.is '\n' = false) (offset : Nat)
    (position : ∀ column, column ≤ line.length →
      Text.positionFrom (offset + column) 0 0 starts = (page.line, column)) :
    Turns (some starts) (writeLine source offset line) page
      (page.copyLine line) := by
  have parts := lead_append_drop line
  have index := length_lead line
  unfold writeLine Page.copyLine Page.lineMapping?
  generalize isLead : line.takeWhile Page.isIndent = lead at parts index ⊢
  have areIndents : ∀ point, point ∈ lead → Page.isIndent point := by
    rw [← isLead]
    exact List.all_eq_true.mp List.all_takeWhile
  simp only
  split
  case isTrue within =>
    generalize isRest : line.drop lead.length = rest at parts ⊢
    have found : line.findIdx? (fun point => !Page.isIndent point) = some lead.length :=
      List.findIdx?_eq_some_iff_findIdx_eq.mpr ⟨within, index.symm⟩
    have leadFree : ∀ point, point ∈ lead → point.is '\n' = false := by
      intro point there
      exact noFeed point (parts ▸ List.mem_append_left rest there)
    have restFree : ∀ point, point ∈ rest → point.is '\n' = false := by
      intro point there
      exact noFeed point (parts ▸ List.mem_append_right lead there)
    refine .andThen (.write lead) ?_
    rw [Page.write_of_isOpen isOpen, Page.foldl_put_line leadFree]
    refine .andThen (.record isScript _ (position _ (Nat.le_of_lt within))) ?_
    refine Eq.trans (Turns.write rest) ?_
    rw [Page.map, Page.write_of_isOpen (isOpen.indent areIndents _ _),
      Page.foldl_put_line restFree, found, ← parts]
    simp only [atStart, Nat.zero_add, List.reverse_append, List.append_assoc, List.length_append]
    rfl
  case isFalse short =>
    have none : line.findIdx? (fun point => !Page.isIndent point) = none := by
      have atMost : line.findIdx (fun point => !Page.isIndent point) ≤ line.length :=
        List.findIdx_le_length
      rw [List.findIdx?_eq_none_iff_findIdx_eq, ← index]
      omega
    refine Eq.trans (Turns.write line) ?_
    rw [Page.write_of_isOpen isOpen, Page.foldl_put_line noFeed, none, atStart, Nat.zero_add]
    rfl

/-- Lines after the first are written in full, each after a line feed. -/
theorem writeLines_turns {source : Source} {starts : List Nat} {lines : List Text}
    (isScript : source.role = .script)
    (noFeed : ∀ line, line ∈ lines → ∀ point, point ∈ line → point.is '\n' = false)
    (page : Page) (offset : Nat)
    (located : Text.LinesAt (fun offset => Text.positionFrom offset 0 0 starts) (page.line + 1)
      offset lines) :
    Turns (some starts) (writeLines source false offset lines) page (page.copyLines lines) := by
  induction lines generalizing page offset with
  | nil => rfl
  | cons line rest induction =>
      refine .andThen (.write _) ?_
      rw [Page.write_lineFeed]
      refine .andThen (writeLine_turns isScript page.feed_isOpen rfl
        (noFeed line List.mem_cons_self) offset located.1) ?_
      exact induction (fun other there => noFeed other (.tail _ there)) (page.feed.copyLine line)
        _ located.2

theorem slice_all (text : Text) : text.slice 0 text.length = text :=
  List.take_length

theorem join_lineFeeds (line : Text) (rest : List Text) :
    Text.join [.char '\n'] (line :: rest) = line ++ rest.flatMap (.char '\n' :: ·) := by
  induction rest generalizing line with
  | nil => exact (List.append_nil line).symm
  | cons second others induction =>
      rw [Text.join_cons (List.cons_ne_nil _ _), induction]
      simp

theorem slice_empty (text : Text) {start stop : Nat} (empty : stop ≤ start) :
    text.slice start stop = [] := by
  rw [Text.slice, Nat.sub_eq_zero_of_le empty, List.take_zero]

/-- Copying without recording writes the text of the stretch. -/
theorem copy_turns_write (source : Source) (start stop : Nat) (page : Page) :
    Turns none (copy source start stop) page (page.write (source.text.slice start stop)) := by
  unfold copy
  split
  case isTrue empty =>
    rw [slice_empty source.text empty]
    rfl
  case isFalse => rfl

/-- Copying a whole source without recording writes its text. -/
theorem copy_turns (source : Source) :
    ∃ page, Turns none (copy source 0 source.text.length) {} page ∧ page.text = source.text := by
  have isOpen : ({} : Page).IsOpen := nofun
  refine ⟨_, copy_turns_write source 0 source.text.length {}, ?_⟩
  rw [slice_all, Page.write_of_isOpen isOpen, Page.text, Page.reversed_foldl_put, List.append_nil,
    List.reverse_reverse]

/-- Copying a whole script with recording writes its text and maps the first character of
every line after the indentation. -/
theorem copy_turns_recording {source : Source} (isScript : source.role = .script) :
    ∃ page,
      Turns (some (source.text.lineStarts 0)) (copy source 0 source.text.length) {} page ∧
      page.text = source.text ∧
      page.mappings.reverse = Page.lineMappings 0 (source.text.splitAt '\n') := by
  have isOpen : ({} : Page).IsOpen := nofun
  have located := Text.linesAt_lineStarts source.text
  have noFeed := Text.splitAt_no_mark '\n' source.text
  have joined := Text.join_splitAt '\n' source.text
  obtain ⟨line, rest, isSplit⟩ :=
    List.exists_cons_of_ne_nil (Text.splitAt_ne_nil '\n' source.text)
  rw [isSplit] at located noFeed joined ⊢
  rw [join_lineFeeds] at joined
  refine ⟨(({} : Page).copyLine line).copyLines rest, ?_, ?_, ?_⟩
  · unfold copy
    split
    case isTrue empty =>
      rw [List.eq_nil_of_length_eq_zero (Nat.le_zero.mp empty)] at isSplit
      cases isSplit
      rfl
    case isFalse =>
      simp only [slice_all, isSplit, isScript]
      show Turns _ (writeLines source true 0 (line :: rest)) _ _
      refine .andThen (writeLine_turns isScript isOpen rfl (noFeed line List.mem_cons_self) 0
        located.1) ?_
      exact writeLines_turns isScript (fun other there => noFeed other (.tail _ there)) _ _
        located.2
  · rw [Page.copyLines_text, ← joined]
    simp [Page.text, Page.copyLine]
  · rw [Page.copyLines_mappings]
    simp only [Page.lineMappings, List.zipIdx_cons, List.filterMap_cons, Page.copyLine,
      List.append_nil]
    cases Page.lineMapping? line 0 <;> rfl

end Printer

end ScriptFold
