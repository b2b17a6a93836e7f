import ScriptFold.Proofs.Printer.Laying
import ScriptFold.Proofs.Printer.Recording

/-!
# Printing behind other text

What a node is printed as depends on the text before it only in two ways: a blank may be put in
front of it, and the indentation of its first line is the one of the text before.  So a node has
a printed text of its own behind some text, which is what it adds to the text after a blank that
keeps tokens apart, and any page with the same text gets it too, after a blank only if the
characters that meet would be read as one token.
-/

namespace ScriptFold

namespace Page

theorem fuses_comm (last first : CodePoint) : fuses last first = fuses first last := by
  by_cases same : first = last
  · rw [same]
  · rw [fuses, fuses, beq_false_of_ne same, beq_false_of_ne (Ne.symm same), Bool.and_false,
      Bool.and_false, Bool.and_comm]

end Page

namespace Text

/-- A text behind another one, after a blank if the characters that meet would be read as one
token. -/
def beside (lead rest : Text) : Text :=
  match lead.getLast?, rest.head? with
  | some last, some first =>
      if Page.fuses last first then lead ++ .char ' ' :: rest else lead ++ rest
  | _, _ => lead ++ rest

/-- Whether a character may be read as one token with the next one. -/
def isTight (point : CodePoint) : Bool :=
  Page.isWordChar point || point.isOneOf ['+', '-']

/-- A text with a blank at its end if it would not be kept apart from some word or sign. -/
def spaced (lead : Text) : Text :=
  if lead.getLast?.any isTight then lead ++ [.char ' '] else lead

variable {lead middle rest more : Text}

@[simp]
theorem beside_nil (lead : Text) : lead.beside [] = lead := by
  cases isLast : lead.getLast? with
  | none => simp [beside, isLast]
  | some last => simp [beside, isLast]

@[simp]
theorem nil_beside (rest : Text) : beside [] rest = rest :=
  rfl

/-- Two texts side by side have at most a blank between them. -/
theorem beside_eq (lead rest : Text) :
    ∃ gap : Text, (∀ point, point ∈ gap → point = .char ' ') ∧
      lead.beside rest = lead ++ gap ++ rest := by
  unfold beside
  split
  · split
    · exact ⟨[.char ' '], by simp, by simp⟩
    · exact ⟨[], by simp, by simp⟩
  · exact ⟨[], by simp, by simp⟩

theorem beside_of_not_tight (loose : lead.getLast?.any isTight = false) (rest : Text) :
    lead.beside rest = lead ++ rest := by
  unfold beside
  split
  case h_1 last first isLast isFirst =>
    rw [isLast, Option.any_some, isTight, Bool.or_eq_false_iff] at loose
    rw [if_neg (by simp [Page.fuses, loose.1, loose.2])]
  case h_2 => rfl

theorem beside_of_loose {first : CodePoint} (loose : isTight first = false) :
    lead.beside (first :: rest) = lead ++ first :: rest := by
  rw [isTight, Bool.or_eq_false_iff] at loose
  cases isLast : lead.getLast? with
  | none => simp [beside, isLast]
  | some last =>
      have apart : Page.fuses last first = false := by
        rw [Page.fuses_comm, Page.fuses, loose.1, loose.2]
        rfl
      simp [beside, isLast, apart]

/-- Only the beginning of the second text matters. -/
theorem beside_append (notEmpty : rest ≠ []) (more : Text) :
    lead.beside (rest ++ more) = lead.beside rest ++ more := by
  obtain ⟨first, others, rfl⟩ := List.exists_cons_of_ne_nil notEmpty
  cases isLast : lead.getLast? with
  | none => simp [beside, isLast]
  | some last =>
      by_cases fused : Page.fuses last first
      · simp [beside, isLast, fused]
      · simp [beside, isLast, fused]

/-- Only the end of the first text matters. -/
theorem append_beside (notEmpty : rest ≠ []) (more : Text) :
    (lead ++ rest).beside more = lead ++ rest.beside more := by
  have sameLast : (lead ++ rest).getLast? = rest.getLast? := by
    rw [List.getLast?_append, List.getLast?_eq_some_getLast notEmpty]
    rfl
  unfold beside
  rw [sameLast]
  split
  · split <;> simp
  · simp

theorem beside_assoc (lead middle rest : Text) :
    lead.beside (middle.beside rest) = (lead.beside middle).beside rest := by
  by_cases empty : middle = []
  · rw [empty, nil_beside, beside_nil]
  · obtain ⟨gap, _, isApart⟩ := beside_eq lead middle
    obtain ⟨inner, _, isInner⟩ := beside_eq middle rest
    calc lead.beside (middle.beside rest)
        = lead.beside middle ++ (inner ++ rest) := by
          rw [isInner, List.append_assoc, beside_append empty]
      _ = lead ++ gap ++ middle.beside rest := by
          rw [isApart, isInner]
          simp only [List.append_assoc]
      _ = (lead.beside middle).beside rest := by
          rw [isApart, append_beside empty]

private theorem spaced_loose (lead : Text) : lead.spaced.getLast?.any isTight = false := by
  unfold spaced
  split
  case isTrue =>
      rw [List.getLast?_concat]
      rfl
  case isFalse loose => simpa using loose

theorem spaced_beside (lead rest : Text) : lead.spaced.beside rest = lead.spaced ++ rest :=
  beside_of_not_tight lead.spaced_loose rest

theorem spaced_append_beside (lead middle rest : Text) :
    (lead.spaced ++ middle).beside rest = lead.spaced ++ middle.beside rest := by
  rw [← spaced_beside, ← spaced_beside, beside_assoc]

/-- The indentation of the last line of a text. -/
def indentation (text : Text) : Text :=
  (text.reverse.takeWhile fun point => !point.is '\n').reverse.takeWhile Page.isIndent

theorem takeWhile_append_of_stop {holds : CodePoint → Bool} {first : Text}
    (stops : ∃ point ∈ first, holds point = false) (second : Text) :
    (first ++ second).takeWhile holds = first.takeWhile holds := by
  induction first with
  | nil =>
      obtain ⟨point, there, _⟩ := stops
      cases there
  | cons point others induction =>
      cases goes : holds point with
      | false => simp [goes]
      | true =>
          have later : ∃ other ∈ others, holds other = false := by
            obtain ⟨other, there, stopsHere⟩ := stops
            rcases List.mem_cons.mp there with rfl | there
            · rw [goes] at stopsHere
              cases stopsHere
            · exact ⟨other, there, stopsHere⟩
          simp [goes, induction later]

/-- A text with a line feed has a last line of its own. -/
theorem indentation_of_feed (feeds : ∃ point ∈ rest, point.is '\n' = true) (lead : Text) :
    (lead ++ rest).indentation = rest.indentation := by
  have stops : ∃ point ∈ rest.reverse, (!point.is '\n') = false := by
    obtain ⟨point, there, isFeed⟩ := feeds
    exact ⟨point, List.mem_reverse.mpr there, by rw [isFeed]; rfl⟩
  rw [indentation, List.reverse_append, takeWhile_append_of_stop stops]
  rfl

private theorem not_isTight_of_blank {point : CodePoint} (blank : point.isOneOf [' ', '\t', '\n']) :
    isTight point = false := by
  simp only [CodePoint.isOneOf, List.any_cons, List.any_nil, Bool.or_false, Bool.or_eq_true,
    CodePoint.is, beq_iff_eq] at blank
  rcases blank with rfl | rfl | rfl <;> rfl

private theorem solid_of_isTight {point : CodePoint} (tight : isTight point = true) :
    point.is '\n' = false ∧ Page.isIndent point = false := by
  have notBlank : point.isOneOf [' ', '\t', '\n'] = false := by
    cases blank : point.isOneOf [' ', '\t', '\n'] with
    | false => rfl
    | true =>
        rw [not_isTight_of_blank blank] at tight
        cases tight
  constructor
  · cases feeds : point.is '\n' with
    | false => rfl
    | true => simp [CodePoint.isOneOf, feeds] at notBlank
  · cases isIndent : Page.isIndent point with
    | false => rfl
    | true =>
        rw [Page.isOneOf_of_isIndent isIndent] at notBlank
        cases notBlank

/-- On a line that has begun, further text does not change the indentation. -/
theorem indentation_of_line (tight : lead.getLast?.any isTight = true)
    (noFeed : ∀ point, point ∈ rest → point.is '\n' = false) :
    (lead ++ rest).indentation = lead.indentation := by
  cases isLast : lead.getLast? with
  | none =>
      rw [isLast] at tight
      cases tight
  | some last =>
      rw [isLast, Option.any_some] at tight
      have solid := solid_of_isTight tight
      have staysOnLine : ∀ point, point ∈ rest.reverse → (!point.is '\n') = true := by
        intro point there
        rw [noFeed point (List.mem_reverse.mp there)]
        rfl
      obtain ⟨others, isLead⟩ := List.getLast?_eq_some_iff.mp isLast
      have inLine : last ∈ (lead.reverse.takeWhile fun point => !point.is '\n').reverse := by
        rw [isLead, List.reverse_concat, List.takeWhile_cons_of_pos (by rw [solid.1]; rfl)]
        simp
      rw [indentation, List.reverse_append, List.takeWhile_append_of_pos staysOnLine,
        List.reverse_append, List.reverse_reverse, takeWhile_append_of_stop ⟨last, inLine, solid.2⟩]
      rfl

theorem indentation_beside (lead rest : Text) :
    (lead.beside rest).indentation = (lead.spaced ++ rest).indentation := by
  cases tight : lead.getLast?.any isTight with
  | false => rw [beside_of_not_tight tight, spaced, tight, if_neg Bool.false_ne_true]
  | true =>
      obtain ⟨gap, blanks, isApart⟩ := beside_eq lead rest
      rw [isApart, spaced, tight, if_pos rfl]
      by_cases feeds : ∃ point ∈ rest, point.is '\n' = true
      · rw [indentation_of_feed feeds, indentation_of_feed feeds]
      · have noFeed : ∀ point, point ∈ rest → point.is '\n' = false := by
          intro point there
          cases isFeed : point.is '\n' with
          | false => rfl
          | true => exact absurd ⟨point, there, isFeed⟩ feeds
        have onLine : ∀ gap : Text, (∀ point, point ∈ gap → point = .char ' ') →
            (lead ++ gap ++ rest).indentation = lead.indentation := by
          intro gap blanks
          rw [List.append_assoc]
          apply indentation_of_line tight
          intro point there
          rcases List.mem_append.mp there with there | there
          · rw [blanks point there]
            rfl
          · exact noFeed point there
        rw [onLine gap blanks, onLine [.char ' '] (by simp)]

end Text

namespace Page

theorem text_write_beside (page : Page) (written : Text) :
    (page.write written).text = page.text.beside written := by
  unfold Text.beside
  rcases page.text_write written with
    ⟨last, first, isLast, isFirst, fused, isText⟩ | ⟨apart, isText⟩
  · rw [isText, isLast, isFirst]
    simp only [fused, if_true]
  · rw [isText]
    split
    case h_1 last first isLast isFirst =>
      rw [apart last first isLast isFirst, if_neg Bool.false_ne_true]
    case h_2 => rfl

theorem indent_eq (page : Page) : page.indent = page.text.indentation := by
  rw [indent, lineText, Text.indentation, text, List.reverse_reverse]

def holding (text : Text) : Page :=
  text.foldl put {}

theorem text_holding (text : Text) : (holding text).text = text := by
  rw [holding, text_foldl_put]
  rfl

end Page

namespace Printer

/-- Two runs that fail alike, or give the same and add the same text, one of them behind a text
and the other one where that text is kept apart. -/
inductive Alike {α : Type} (lead : Text) :
    Except Failure (α × Page) → Except Failure (α × Page) → Prop
  | failed (failure : Failure) : Alike lead (.error failure) (.error failure)
  | done (value : α) {text : Text} {page plain : Page} (isText : page.text = lead.beside text)
      (isPlain : plain.text = lead.spaced ++ text) :
      Alike lead (.ok (value, page)) (.ok (value, plain))

/-- A step prints the same whatever it stands behind. -/
def Local {α : Type} (step : Print α) : Prop :=
  ∀ lead text starts page plain, page.text = lead.beside text → plain.text = lead.spaced ++ text →
    Alike lead ((step.run starts).run page) ((step.run none).run plain)

theorem Local.bind {α β : Type} {step : Print β} {next : β → Print α} (begins : Local step)
    (ends : ∀ value, Local (next value)) : Local (step >>= next) := by
  intro lead text starts page plain isText isPlain
  have alike := begins lead text starts page plain isText isPlain
  simp only [ReaderT.run_bind, StateT.run_bind]
  generalize (step.run starts).run page = ran at alike ⊢
  generalize (step.run none).run plain = other at alike ⊢
  cases alike with
  | failed failure => exact .failed failure
  | done value isText isPlain => exact ends value lead _ starts _ _ isText isPlain

/-- A step that always adds a certain text. -/
theorem Local.of_turns {step : Print Unit} (written : Text)
    (turns : ∀ starts page, ∃ after, Turns starts step page after ∧
      after.forget = page.forget.write written) : Local step := by
  intro lead text starts page plain isText isPlain
  have adds : ∀ page after : Page, after.forget = page.forget.write written →
      after.text = page.text.beside written := by
    intro page after same
    have sameText := congrArg Page.text same
    rw [Page.text_write_beside] at sameText
    exact sameText
  obtain ⟨after, runs, same⟩ := turns starts page
  obtain ⟨plainAfter, plainRuns, plainSame⟩ := turns none plain
  rw [Turns] at runs plainRuns
  rw [runs, plainRuns]
  have isAfter : after.text = lead.beside (text.beside written) := by
    rw [adds page after same, isText, Text.beside_assoc]
  have isPlainAfter : plainAfter.text = lead.spaced ++ text.beside written := by
    rw [adds plain plainAfter plainSame, isPlain, Text.spaced_append_beside]
  exact .done () isAfter isPlainAfter

/-- Every step prints the same whatever it stands behind. -/
def locality : Discipline where
  holds := Local
  fits _ := True
  pure value := fun _ _ _ _ _ isText isPlain => .done value isText isPlain
  throw failure := fun _ _ _ _ _ _ _ => .failed failure
  bind := .bind
  write text := .of_turns text fun _ page => ⟨_, .write text, Page.forget_write page text⟩
  currentIndent := by
    intro lead text starts page plain isText isPlain
    have same : page.indent = plain.indent := by
      rw [page.indent_eq, plain.indent_eq, isText, isPlain, Text.indentation_beside]
    have runs : (currentIndent.run starts).run page = .ok (page.indent, page) := rfl
    have plainRuns : (currentIndent.run none).run plain = .ok (plain.indent, plain) := rfl
    rw [runs, plainRuns, same]
    exact .done _ isText isPlain
  record _ _ := .of_turns [] fun starts => record_forget _ starts _
  copy _ start stop _ := .of_turns _ fun starts => copy_forget _ starts start stop

/-- A node is printed as a text behind another one, which is kept apart from it. -/
def OwnText (node : Node) (lead text : Text) : Prop :=
  ∃ after, Turns none ((emitter node).emit .absent none 0) (Page.holding lead.spaced) after ∧
    after.text = lead.spaced ++ text

/-- A step takes a page to one that holds a text. -/
def Reaches (starts : Option (List Nat)) (step : Print Unit) (page : Page) (text : Text) : Prop :=
  ∃ after, Turns starts step page after ∧ after.text = text

variable {starts : Option (List Nat)} {page : Page} {text : Text}

theorem turns_bind_iff {after : Page} {first : Print Unit} {second : Unit → Print Unit} :
    Turns starts (first >>= second) page after ↔
      ∃ middle, Turns starts first page middle ∧ Turns starts (second ()) middle after := by
  constructor
  · intro turns
    simp only [Turns, ReaderT.run_bind, StateT.run_bind] at turns
    obtain ⟨⟨_, middle⟩, begins, ends⟩ := Calculation.of_bind_eq_ok turns
    exact ⟨middle, begins, ends⟩
  · rintro ⟨middle, begins, ends⟩
    exact .andThen begins ends

theorem reaches_bind_iff {first : Print Unit} {second : Unit → Print Unit} :
    Reaches starts (first >>= second) page text ↔
      ∃ middle, Turns starts first page middle ∧ Reaches starts (second ()) middle text := by
  constructor
  · rintro ⟨after, turns, isText⟩
    obtain ⟨middle, begins, ends⟩ := turns_bind_iff.mp turns
    exact ⟨middle, begins, after, ends, isText⟩
  · rintro ⟨middle, begins, after, ends, isText⟩
    exact ⟨after, turns_bind_iff.mpr ⟨middle, begins, ends⟩, isText⟩

/-- A page gets the text of a node behind its own. -/
theorem emit_reaches_iff {node : Node} :
    Reaches starts ((emitter node).emit .absent none 0) page text ↔
      ∃ own, OwnText node page.text own ∧ text = page.text.beside own := by
  have isLocal : Local ((emitter node).emit .absent none 0) :=
    (locality.emitter_obeyed node.placed_anywhere).emit .absent none 0
  have alike := isLocal page.text [] starts page (Page.holding page.text.spaced)
    (Text.beside_nil _).symm (by rw [Page.text_holding, List.append_nil])
  constructor
  · rintro ⟨after, turns, rfl⟩
    rw [Turns] at turns
    rw [turns] at alike
    generalize plainRuns : ((((emitter node).emit .absent none 0).run none).run
      (Page.holding page.text.spaced)) = ran at alike
    cases alike with
    | done _ isText isPlain => exact ⟨_, ⟨_, plainRuns, isPlain⟩, isText⟩
  · rintro ⟨own, ⟨plain, turns, isPlain⟩, rfl⟩
    rw [Turns] at turns
    rw [turns] at alike
    generalize runs : ((((emitter node).emit .absent none 0).run starts).run page) = ran at alike
    cases alike with
    | done _ isText isOwn =>
        rw [isPlain] at isOwn
        rw [List.append_cancel_left isOwn]
        exact ⟨_, runs, isText⟩

/-- On its own, a node that has a precedence needs no parentheses. -/
theorem needsParens_alone {kind : Kind} {flags : Flags} {place : Option Place}
    {children : List (Child Node)} {level : Nat}
    (isLevel : Precedence.ofNode (.tree kind flags place children) = .ok level) :
    Precedence.needsParens (.tree kind flags place children) .absent none 0 = .ok false := by
  unfold Precedence.needsParens
  rw [isLevel]
  rfl

theorem ofNode_of_needsParens {kind : Kind} {flags : Flags} {place : Option Place}
    {children : List (Child Node)} {parent : Node} {index : Option Nat} {least : Nat}
    {parens : Bool}
    (needs : Precedence.needsParens (.tree kind flags place children) parent index least =
      .ok parens) :
    ∃ level, Precedence.ofNode (.tree kind flags place children) = .ok level := by
  unfold Precedence.needsParens at needs
  obtain ⟨level, isLevel, _⟩ := Calculation.of_bind_eq_ok needs
  exact ⟨level, isLevel⟩

/-- Apart from parentheses, a node is printed the same in every position. -/
theorem emit_eq (node parent : Node) (index : Option Nat) (least : Nat) :
    (emitter node).emit parent index least =
      (do enclose (← calculate (Precedence.needsParens node parent index least))
            ((emitter node).emit .absent none 0)) := by
  cases node with
  | absent => rfl
  | leaf token => rfl
  | tree kind flags place children =>
      simp only [emitter]
      cases needs : Precedence.needsParens (.tree kind flags place children) parent index least with
      | error fault => rfl
      | ok parens =>
          obtain ⟨level, isLevel⟩ := ofNode_of_needsParens needs
          rw [needsParens_alone isLevel]
          show enclose parens _ = enclose parens (enclose false _)
          rw [enclose_false]

/-- Parentheses stay next to what they enclose. -/
theorem enclose_reaches_iff {node : Node} :
    Reaches starts (enclose true ((emitter node).emit .absent none 0)) page text ↔
      ∃ own, OwnText node (page.text.beside [.char '(']) own ∧
        text = page.text.beside (.char '(' :: own ++ [.char ')']) := by
  have opened : (page.write [.char '(']).text = page.text.beside [.char '('] :=
    Page.text_write_beside page _
  have closed : ∀ own : Text,
      ((page.text.beside [.char '(']).beside own).beside [.char ')'] =
        page.text.beside (.char '(' :: own ++ [.char ')']) := by
    intro own
    have opening : (page.text.beside [.char '(']).getLast?.any Text.isTight = false := by
      obtain ⟨gap, _, isApart⟩ := Text.beside_eq page.text [.char '(']
      rw [isApart, List.getLast?_concat]
      rfl
    have bracketed : (.char '(' :: own ++ [.char ')'] : Text) =
        [.char '('] ++ (own ++ [.char ')']) := rfl
    rw [Text.beside_of_not_tight opening, Text.beside_of_loose rfl, bracketed,
      Text.beside_append (List.cons_ne_nil _ _), List.append_assoc]
  have shape : enclose true ((emitter node).emit .absent none 0) =
      (write [.char '('] >>= fun _ => (emitter node).emit .absent none 0 >>= fun _ =>
        write [.char ')']) := rfl
  rw [shape, reaches_bind_iff]
  constructor
  · rintro ⟨_, isOpened, further⟩
    cases isOpened
    obtain ⟨middle, inner, after, isClosed, isText⟩ := reaches_bind_iff.mp further
    cases isClosed
    obtain ⟨own, prints, isMiddle⟩ := emit_reaches_iff.mp ⟨middle, inner, rfl⟩
    rw [opened] at prints isMiddle
    exact ⟨own, prints, by rw [← isText, Page.text_write_beside, isMiddle, closed]⟩
  · rintro ⟨own, prints, isText⟩
    rw [← opened] at prints
    obtain ⟨middle, inner, isMiddle⟩ := emit_reaches_iff.mpr ⟨own, prints, rfl⟩
    refine ⟨_, .write _, reaches_bind_iff.mpr ⟨middle, inner, _, .write _, ?_⟩⟩
    rw [Page.text_write_beside, isMiddle, opened, closed, isText]

/-- What a node is shown as at a position behind other text: its own text, in parentheses if the
position asks for them. -/
inductive Shown (node parent : Node) (index : Option Nat) (least : Nat) (lead : Text) : Text → Prop
  | plain {own : Text}
      (bare : Precedence.needsParens node parent index least = .ok false)
      (prints : OwnText node lead own) : Shown node parent index least lead own
  | enclosed {own : Text}
      (needs : Precedence.needsParens node parent index least = .ok true)
      (prints : OwnText node (lead.beside [.char '(']) own) :
      Shown node parent index least lead (.char '(' :: own ++ [.char ')'])

/-- A page gets what a node is shown as behind its own text. -/
theorem emit_shows_iff {node parent : Node} {index : Option Nat} {least : Nat} :
    Reaches starts ((emitter node).emit parent index least) page text ↔
      ∃ shown, Shown node parent index least page.text shown ∧ text = page.text.beside shown := by
  rw [emit_eq]
  cases needs : Precedence.needsParens node parent index least with
  | error fault =>
      constructor
      · rintro ⟨after, turns, _⟩
        cases turns
      · rintro ⟨shown, isShown, _⟩
        cases isShown with
        | plain bare =>
            rw [needs] at bare
            cases bare
        | enclosed needed =>
            rw [needs] at needed
            cases needed
  | ok parens =>
      show Reaches starts (enclose parens ((emitter node).emit .absent none 0)) page text ↔ _
      cases parens with
      | false =>
          rw [enclose_false, emit_reaches_iff]
          constructor
          · rintro ⟨own, prints, isText⟩
            exact ⟨own, .plain needs prints, isText⟩
          · rintro ⟨shown, isShown, isText⟩
            cases isShown with
            | plain _ prints => exact ⟨_, prints, isText⟩
            | enclosed needed =>
                rw [needs] at needed
                cases needed
      | true =>
          rw [enclose_reaches_iff]
          constructor
          · rintro ⟨own, prints, isText⟩
            exact ⟨_, .enclosed needs prints, isText⟩
          · rintro ⟨shown, isShown, isText⟩
            cases isShown with
            | plain bare =>
                rw [needs] at bare
                cases bare
            | enclosed _ prints => exact ⟨_, prints, isText⟩

end Printer

end ScriptFold
