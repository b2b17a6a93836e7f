import ScriptFold.Proofs.Coupling.Places
import ScriptFold.Proofs.Printer.Faithfulness
import ScriptFold.Proofs.Printer.Tracking

/-!
# The mappings of a folded script

A script that is evaluated with a source map is printed with mappings that come in the order
of their generated positions, each from a place on a line of the code to an offset inside of
the script.  What was read from templates and given fragments leaves none.
-/

namespace ScriptFold

/-- The generated position of a mapping stands on a line of a code, no later than its end. -/
def Mapping.StandsIn (code : Text) (mapping : Mapping) : Prop :=
  ∃ (line column : Nat) (lineText : Text),
    mapping.generatedLine = line ∧ mapping.generatedColumn = column ∧
      (code.splitAt '\n')[line]? = some lineText ∧ column ≤ lineText.length

/-- The source position of a mapping is that of an offset inside of a source. -/
def Mapping.ComesFrom (source : Text) (mapping : Mapping) : Prop :=
  ∃ (line column offset : Nat), offset < source.length ∧
    Text.reached (source.take offset) = (line, column) ∧
      mapping.sourceLine = line ∧ mapping.sourceColumn = column

theorem Mapping.IsReal.standsIn {source code : Text} {mapping : Mapping}
    (real : mapping.IsReal source code) : mapping.StandsIn code := by
  obtain ⟨lead, offset, begins, _, rfl⟩ := real
  obtain ⟨piece, isPiece, within⟩ := Text.line_of_prefix begins
  exact ⟨_, _, piece, rfl, rfl, isPiece, within⟩

theorem Mapping.IsReal.comesFrom {source code : Text} {mapping : Mapping}
    (real : mapping.IsReal source code) : mapping.ComesFrom source := by
  obtain ⟨lead, offset, _, inside, rfl⟩ := real
  exact ⟨_, _, offset, inside, rfl, rfl, rfl⟩

/-- What a script and templates and given texts are folded to. -/
theorem evaluate_tree {host : Host} {bindings : Bindings} {options : Options} {text : Text}
    {printed : Printed} (evaluated : (evaluate host bindings options text).result = .ok printed) :
    ∃ tree, FoldM.Returns (Evaluate.tree host bindings options.depthLimit
        ⟨text, options.sourceName, .script⟩) tree ∧
      printTree tree options.sourceName options.mapName = .ok printed := by
  have returns : FoldM.Returns (do
      let tree ← Evaluate.tree host bindings options.depthLimit ⟨text, options.sourceName, .script⟩
      FoldM.attempt (printTree tree options.sourceName options.mapName)) printed :=
    ⟨[], _, Prod.ext evaluated rfl⟩
  obtain ⟨tree, folded, returns⟩ := returns.of_bind
  exact ⟨tree, folded, Likeness.equality.of_attempt.2 printed returns⟩

/-- Printing with a source map fills a page. -/
theorem page_of_printTree {tree : Node} {name : Text} {mapName : Option Text} {source : Source}
    {printed : Printed} (isSource : tree.place?.map Place.source = some source)
    (done : printTree tree (some name) mapName = .ok printed) :
    ∃ page, Printer.Turns (some (source.text.lineStarts 0))
        ((Printer.emitter tree).emit .absent none 0) {} page ∧
      printed = ⟨page.text, some (SourceMap.mk name (some source.text) mapName
        page.mappings.reverse).toJson⟩ := by
  replace done := layOut_of_printTree done
  unfold layOut at done
  simp only [isSource, Option.isSome_some, if_true, Option.map_some] at done
  obtain ⟨⟨value, page⟩, runs, done⟩ := Calculation.of_bind_eq_ok done
  cases done
  exact ⟨page, runs, rfl⟩

/-- The page of a tree that was read from a script and from fragments. -/
theorem tracks_of_turns (source : Source) {tree : Node} {page : Page}
    (placed : tree.Placed (Printer.tracking source).fits)
    (turns : Printer.Turns (some (source.text.lineStarts 0))
      ((Printer.emitter tree).emit .absent none 0) {} page) : page.Tracks source.text :=
  ((Printer.tracking source).emitter_obeyed placed).emit .absent none 0 {} () page
    (Page.tracks_empty source.text) turns

/-- An empty program is printed as nothing. -/
theorem turns_empty_program (source : Source) (empty : source.text = []) :
    Printer.Turns (some (source.text.lineStarts 0))
      ((Printer.emitter (Grammar.program source [])).emit .absent none 0) {} {} := by
  apply Printer.emit_program rfl
  rw [empty]
  rfl

/-- A script that is folded is printed onto a page whose mappings are real and in order. -/
theorem tracks_of_evaluate {host : Host} {bindings : Bindings} {depthLimit : Int} {text : Text}
    {sourceName : Option Text} {tree : Node} {page : Page}
    (templates : Fold.AreTemplates bindings.macros)
    (texts : ∀ entry, entry ∈ bindings.fragments → ∃ text, entry.2 = .text text)
    (folded : FoldM.Returns
      (Evaluate.tree host bindings depthLimit ⟨text, sourceName, .script⟩) tree)
    (turns : Printer.Turns (some (text.lineStarts 0))
      ((Printer.emitter tree).emit .absent none 0) {} page) : page.Tracks text := by
  -- The place of an empty program begins where its text ends, but nothing of it is printed.
  by_cases empty : text = []
  · subst empty
    have isEmpty := Evaluate.tree_empty folded
    subst isEmpty
    have nothing := turns_empty_program ⟨[], sourceName, .script⟩ rfl
    rw [Printer.Turns] at turns nothing
    rw [nothing] at turns
    cases turns
    exact Page.tracks_empty []
  · apply tracks_of_turns ⟨text, sourceName, .script⟩ _ turns
    apply Evaluate.tree_placed (fun place isFragment => .inr isFragment) templates texts _ folded
    intro script parsed
    exact (parseScript_placed empty parsed).mono fun place holds => .inl holds

/-- Evaluating a script with a source map records mappings in the order of their generated
positions.  Each stands on a line of the code and comes from an offset inside of the script.
All places of the printed tree are of the script or of fragments, and neither a stretch of a
fragment nor a tree of them leaves a mapping. -/
theorem evaluate_mappings_real {host : Host} {bindings : Bindings} {options : Options}
    {text name : Text} {printed : Printed} (named : options.sourceName = some name)
    (templates : ∀ entry, entry ∈ bindings.macros → ∃ template, entry.2 = .template template)
    (texts : ∀ entry, entry ∈ bindings.fragments → ∃ text, entry.2 = .text text)
    (evaluated : (evaluate host bindings options text).result = .ok printed) :
    ∃ tree page,
      FoldM.Returns (Evaluate.tree host bindings options.depthLimit
        ⟨text, some name, .script⟩) tree ∧
      Printer.Turns (some (text.lineStarts 0))
        ((Printer.emitter tree).emit .absent none 0) {} page ∧
      printed = ⟨page.text, some (SourceMap.mk name (some text) options.mapName
        page.mappings.reverse).toJson⟩ ∧
      page.mappings.reverse.Pairwise Mapping.NotAfter ∧
      (∀ mapping, mapping ∈ page.mappings →
        mapping.StandsIn printed.code ∧ mapping.ComesFrom text) ∧
      (tree.Placed fun place =>
        place.source = ⟨text, some name, .script⟩ ∨ place.source.role = .fragment) ∧
      (∀ source : Source, source.role = .fragment →
        (∀ offset, Printer.LeavesMappings (Printer.record source offset)) ∧
          ∀ start stop, Printer.LeavesMappings (Printer.copy source start stop)) ∧
      ∀ node : Node, (node.Placed fun place => place.source.role = .fragment) →
        ∀ parent index least,
          Printer.LeavesMappings ((Printer.emitter node).emit parent index least) := by
  obtain ⟨tree, folded, done⟩ := evaluate_tree evaluated
  rw [named] at folded done
  obtain ⟨page, turns, rfl⟩ := page_of_printTree (Evaluate.tree_source folded) done
  have tracks := tracks_of_evaluate templates texts folded turns
  refine ⟨tree, page, folded, turns, rfl, ?ordered, ?real, ?placed, ?stretch, ?fragment⟩
  case ordered => exact List.pairwise_reverse.mpr tracks.ordered
  case real =>
    intro mapping there
    exact ⟨(tracks.real mapping there).standsIn, (tracks.real mapping there).comesFrom⟩
  case placed =>
    apply Evaluate.tree_placed (fun place isFragment => .inr isFragment) templates texts _ folded
    intro script parsed
    exact (parseScript_source parsed).mono fun place isSource => .inl isSource
  case stretch => exact fun source isFragment => Printer.fragment_leavesMappings isFragment
  case fragment => exact fun node placed => (Printer.unrecorded.emitter_obeyed placed).emit

/-- A template for sums and a text for notes. -/
def sumAndNote : Bindings where
  macros := [(Text.ofString "add", .template (Text.ofString "$0 + $1"))]
  fragments := [(Text.ofString "note", .text (Text.ofString "log()"))]

/-- The sum is written by the template, its operands by the script. -/
theorem sum_mappings_real :
    ∃ (printed : Printed) (page : Page),
      (evaluate .none sumAndNote { sourceName := some (Text.ofString "in.js") }
        (Text.ofString "x;\nadd(y, 1);\nnote")).result = .ok printed ∧
      printed.code = Text.ofString "x;\ny + 1;\nlog()" ∧
      printed.map = some (SourceMap.mk (Text.ofString "in.js")
        (some (Text.ofString "x;\nadd(y, 1);\nnote")) none page.mappings.reverse).toJson ∧
      page.mappings.reverse.Pairwise Mapping.NotAfter ∧
      ∀ mapping, mapping ∈ page.mappings → mapping.StandsIn printed.code ∧
        mapping.ComesFrom (Text.ofString "x;\nadd(y, 1);\nnote") := by
  have isCode : ((evaluate .none sumAndNote { sourceName := some (Text.ofString "in.js") }
      (Text.ofString "x;\nadd(y, 1);\nnote")).result.toOption.map Printed.code) =
        some (Text.ofString "x;\ny + 1;\nlog()") := by
    decide +kernel
  obtain ⟨printed, isPrinted, isCode⟩ := Option.map_eq_some_iff.mp isCode
  have evaluated := Calculation.eq_ok_of_toOption isPrinted
  have templates : Fold.AreTemplates sumAndNote.macros := by
    simp [Fold.AreTemplates, sumAndNote]
  have texts : ∀ entry, entry ∈ sumAndNote.fragments → ∃ text, entry.2 = .text text := by
    simp [sumAndNote]
  obtain ⟨tree, page, _, _, isPage, ordered, real, _⟩ :=
    evaluate_mappings_real rfl templates texts evaluated
  exact ⟨printed, page, evaluated, isCode, congrArg Printed.map isPage, ordered, real⟩

end ScriptFold
