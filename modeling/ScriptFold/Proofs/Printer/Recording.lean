import ScriptFold.Proofs.Printer.Discipline
import ScriptFold.Proofs.Printer.Page

/-!
# Recording leaves the text alone

A stretch of the script is written in one go without a map, but line by line and split after
its indentation with one.  Neither a line feed nor an indentation ever fuses with its
neighbour, so the blanks between tokens come out the same, and the printed texts of a tree
with and without a map are equal.
-/

namespace ScriptFold

namespace Page

/-- A page that is ready for a text with a given first character. -/
def before (page : Page) (first : CodePoint) : Page :=
  match page.reversed with
  | [] => page
  | last :: _ => if !last.is '\n' && fuses last first then page.put (.char ' ') else page

theorem write_cons (page : Page) (first : CodePoint) (rest : Text) :
    page.write (first :: rest) = (first :: rest).foldl put (page.before first) := by
  unfold write before
  cases page.reversed with
  | nil => rfl
  | cons last others =>
      by_cases fused : (!last.is '\n' && fuses last first) = true
      · simp only [fused, if_true]
      · simp only [fused]
        rfl

theorem write_nil (page : Page) : page.write [] = page :=
  rfl

/-- Writing two texts at once or one after the other is the same if they do not fuse. -/
theorem write_append (page : Page) {lead rest : Text}
    (apart : ∀ last first, lead.getLast? = some last → rest.head? = some first →
      fuses last first = false) :
    page.write (lead ++ rest) = (page.write lead).write rest := by
  cases lead with
  | nil => rfl
  | cons point others =>
      rw [List.cons_append, write_cons, write_cons, ← List.cons_append, List.foldl_append]
      symm
      apply write_of_not_fuses
      intro last first isLast isFirst
      rw [reversed_foldl_put, List.head?_append, List.head?_reverse,
        List.getLast?_eq_some_getLast (List.cons_ne_nil point others)] at isLast
      cases isLast
      exact apart _ first (List.getLast?_eq_some_getLast _) isFirst

/-- A page without its mappings. -/
def forget (page : Page) : Page :=
  { page with mappings := [] }

@[simp]
theorem forget_map (page : Page) (line column : Nat) : (page.map line column).forget = page.forget :=
  rfl

@[simp]
theorem forget_forget (page : Page) : page.forget.forget = page.forget :=
  rfl

theorem forget_put (page : Page) (point : CodePoint) :
    (page.put point).forget = page.forget.put point := by
  unfold put
  split <;> rfl

private theorem forget_foldl_put (page : Page) (text : Text) :
    (text.foldl put page).forget = text.foldl put page.forget := by
  induction text generalizing page with
  | nil => rfl
  | cons point rest induction => rw [List.foldl_cons, List.foldl_cons, induction, forget_put]

private theorem forget_before (page : Page) (first : CodePoint) :
    (page.before first).forget = page.forget.before first := by
  obtain ⟨reversed, line, column, mappings⟩ := page
  cases reversed with
  | nil => rfl
  | cons last others =>
      simp only [before, forget]
      split
      · exact forget_put _ _
      · rfl

@[simp]
theorem forget_write (page : Page) (text : Text) :
    (page.write text).forget = page.forget.write text := by
  cases text with
  | nil => rfl
  | cons first rest => rw [write_cons, write_cons, forget_foldl_put, forget_before]

/-- An indentation does not fuse with what follows. -/
theorem write_lead (page : Page) (line : Text) :
    page.write line = (page.write (line.takeWhile isIndent)).write
      (line.drop (line.takeWhile isIndent).length) := by
  rw [← write_append, Printer.lead_append_drop]
  intro last first isLast _
  apply not_fuses_of_blank (isOneOf_of_isIndent _)
  exact List.all_eq_true.mp List.all_takeWhile last (List.mem_of_getLast? isLast)

/-- A line feed does not fuse with what stands around it. -/
theorem write_lines (page : Page) (line rest : Text) :
    page.write (line ++ .char '\n' :: rest) =
      ((page.write line).write (Text.ofString "\n")).write rest := by
  calc page.write (line ++ .char '\n' :: rest)
      = (page.write line).write (Text.ofString "\n" ++ rest) := by
        apply write_append
        intro last first _ isFirst
        cases isFirst
        exact not_fuses_lineFeed last
    _ = ((page.write line).write (Text.ofString "\n")).write rest := by
        apply write_append
        intro last first isLast _
        cases isLast
        exact not_fuses_of_blank rfl first

end Page

namespace Printer

theorem record_forget (source : Source) (starts : Option (List Nat)) (offset : Nat)
    (page : Page) :
    ∃ after, Turns starts (record source offset) page after ∧ after.forget = page.forget := by
  cases starts with
  | none => exact ⟨page, rfl, rfl⟩
  | some starts =>
      cases role : source.role with
      | script => exact ⟨_, .record role offset rfl, rfl⟩
      | fragment =>
          refine ⟨page, ?_, rfl⟩
          unfold record
          rw [role]
          rfl

/-- A line is written in full, whatever is recorded. -/
theorem writeLine_forget (source : Source) (starts : Option (List Nat)) (offset : Nat)
    (line : Text) (page : Page) :
    ∃ after, Turns starts (writeLine source offset line) page after ∧
      after.forget = page.forget.write line := by
  unfold writeLine
  dsimp only
  split
  case isTrue =>
    obtain ⟨middle, turns, same⟩ := record_forget source starts
      (offset + (line.takeWhile Page.isIndent).length)
      (page.write (line.takeWhile Page.isIndent))
    refine ⟨_, .andThen (.write _) (.andThen turns (.write _)), ?_⟩
    rw [Page.forget_write, same, Page.forget_write, ← Page.write_lead]
  case isFalse => exact ⟨_, .write line, Page.forget_write page line⟩

/-- Lines are written in full, with line feeds between them. -/
theorem writeLines_forget (source : Source) (starts : Option (List Nat)) (offset : Nat)
    (line : Text) (rest : List Text) (page : Page) :
    ∃ after, Turns starts (writeLines source true offset (line :: rest)) page after ∧
      after.forget = page.forget.write (Text.join [.char '\n'] (line :: rest)) := by
  induction rest generalizing offset line page with
  | nil =>
      obtain ⟨after, turns, same⟩ := writeLine_forget source starts offset line page
      exact ⟨after, .andThen turns rfl, same⟩
  | cons second others induction =>
      obtain ⟨middle, turns, same⟩ := writeLine_forget source starts offset line page
      obtain ⟨after, goes, ends⟩ := induction (offset + line.length + 1) second
        (middle.write (Text.ofString "\n"))
      refine ⟨after, .andThen turns (.andThen (.write _) goes), ?_⟩
      rw [ends, Page.forget_write, same, Text.join_cons (List.cons_ne_nil second others),
        List.append_assoc, List.singleton_append, Page.write_lines]

theorem copy_forget (source : Source) (starts : Option (List Nat)) (start stop : Nat)
    (page : Page) :
    ∃ after, Turns starts (copy source start stop) page after ∧
      after.forget = page.forget.write (source.text.slice start stop) := by
  unfold copy
  split
  case isTrue empty =>
    rw [slice_empty source.text empty]
    exact ⟨page, rfl, rfl⟩
  case isFalse =>
    show ∃ after, Turns starts (if (starts.isSome && decide (source.role = .script)) = true
      then writeLines source true start ((source.text.slice start stop).splitAt '\n')
      else write (source.text.slice start stop)) page after ∧ _
    split
    case isTrue =>
      obtain ⟨line, rest, isSplit⟩ :=
        List.exists_cons_of_ne_nil (Text.splitAt_ne_nil '\n' (source.text.slice start stop))
      have written := writeLines_forget source starts start line rest page
      rwa [← isSplit, Text.join_splitAt] at written
    case isFalse => exact ⟨_, .write _, Page.forget_write _ _⟩

/-- What a step gives and prints, without the mappings. -/
def forgotten {α : Type} (result : Except Failure (α × Page)) : Except Failure (α × Page) :=
  result.map fun (value, page) => (value, page.forget)

/-- A step gives and prints the same with and without a map. -/
def Unmoved {α : Type} (step : Print α) : Prop :=
  ∀ starts page,
    forgotten ((step.run starts).run page) = forgotten ((step.run none).run page.forget)

theorem Unmoved.bind {α β : Type} {step : Print β} {next : β → Print α} (begins : Unmoved step)
    (ends : ∀ value, Unmoved (next value)) : Unmoved (step >>= next) := by
  intro starts page
  have same := begins starts page
  simp only [ReaderT.run_bind, StateT.run_bind]
  cases withMap : (step.run starts).run page with
  | error failure =>
      cases without : (step.run none).run page.forget with
      | error other =>
          rw [withMap, without] at same
          cases same
          rfl
      | ok other =>
          rw [withMap, without] at same
          cases same
  | ok result =>
      obtain ⟨value, after⟩ := result
      cases without : (step.run none).run page.forget with
      | error other =>
          rw [withMap, without] at same
          cases same
      | ok other =>
          obtain ⟨other, plain⟩ := other
          rw [withMap, without] at same
          simp only [forgotten, Except.map, Except.ok.injEq, Prod.mk.injEq] at same
          obtain ⟨rfl, same⟩ := same
          calc forgotten (((next value).run starts).run after)
              = forgotten (((next value).run none).run after.forget) := ends value starts after
            _ = forgotten (((next value).run none).run plain) := by
                rw [same, ← ends value none plain]

/-- A step that always prints, and what it prints is the same with and without a map. -/
theorem Unmoved.of_turns {step : Print Unit} (text : Text)
    (turns : ∀ starts page, ∃ after, Turns starts step page after ∧
      after.forget = page.forget.write text) : Unmoved step := by
  intro starts page
  obtain ⟨after, runs, same⟩ := turns starts page
  obtain ⟨plain, plainRuns, plainSame⟩ := turns none page.forget
  rw [Turns] at runs plainRuns
  rw [runs, plainRuns]
  simp only [forgotten, Except.map, same, plainSame, Page.forget_forget]

/-- Printing the same text with and without a map. -/
def unmoved : Discipline where
  holds := Unmoved
  fits _ := True
  pure _ := fun _ _ => rfl
  throw _ := fun _ _ => rfl
  bind := .bind
  write text := .of_turns text fun _ page => ⟨_, .write text, Page.forget_write page text⟩
  currentIndent := fun _ _ => rfl
  record _ _ := .of_turns [] fun starts => record_forget _ starts _
  copy _ start stop _ := .of_turns _ fun starts => copy_forget _ starts start stop

end Printer

/-- The text of a tree is what is left on the page when the mappings are forgotten. -/
theorem layOut_code (tree : Node) (sourceName mapName : Option Text) :
    (layOut tree sourceName mapName).map Printed.code =
      (Printer.forgotten ((((Printer.emitter tree).emit .absent none 0).run
        (if sourceName.isSome then (tree.place?.map Place.source).map (·.text.lineStarts 0)
          else none)).run {})).map fun result => result.2.text := by
  unfold layOut
  dsimp only
  generalize (((Printer.emitter tree).emit .absent none 0).run _).run {} = result
  cases result <;> rfl

private theorem layOut_code_eq (tree : Node) (sourceName mapName otherMapName : Option Text) :
    (layOut tree sourceName mapName).map Printed.code =
      (layOut tree none otherMapName).map Printed.code := by
  have unmoved : Printer.Unmoved ((Printer.emitter tree).emit .absent none 0) :=
    (Printer.unmoved.emitter_obeyed tree.placed_anywhere).emit .absent none 0
  rw [layOut_code, layOut_code]
  exact congrArg _ (unmoved _ {})

/-- A tree is printed as the same text with and without a source map, or fails to print in
the same way. -/
theorem printTree_code_eq (tree : Node) (sourceName mapName otherMapName : Option Text) :
    (printTree tree sourceName mapName).map Printed.code =
      (printTree tree none otherMapName).map Printed.code := by
  by_cases fits : Printer.frames tree ≤ Stack.limit
  · rw [printTree_of_le fits, printTree_of_le fits]
    exact layOut_code_eq tree sourceName mapName otherMapName
  · rw [printTree_of_lt (Nat.not_le.mp fits), printTree_of_lt (Nat.not_le.mp fits)]

end ScriptFold
