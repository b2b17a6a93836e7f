import ScriptFold.Proofs.Printer.Aggregates
import ScriptFold.Proofs.Reading.Refusal
import ScriptFold.Proofs.Reading.Script

/-!
# Printing and reading a script of one expression

A generated expression is printed as a text that is read as the expression again, up to
parentheses, unless it nests deeper than the reader goes.  The stack has to have the frames that
printing takes.
-/

namespace ScriptFold

open Word Grammar

def Node.script (expression : Node) : Node :=
  .made .program [.made .exprStmt [expression]]

namespace Printer

/-- A script of one expression is printed as the expression and a semicolon. -/
theorem lays_script {node : Node} {words : List Word} {ends : Edge → Prop}
    (divides : ∀ edge, ends edge → edge.Divides)
    (writes : Writes ((emitter node).emit (.made .exprStmt [node]) (some 0) 0) words ends) :
    Lays ((emitter node.script).emit .absent none 0) ⟨none, []⟩
      (words ++ [fixed .semicolon false]) (.after (fixed .semicolon false)) := by
  let statement := Node.made .exprStmt [node]
  obtain ⟨middle, lays, isEnd⟩ := writes ⟨none, []⟩ Edge.awaits_start
  have semicolonLays : Lays (write ";") middle [fixed .semicolon false]
      (.after (fixed .semicolon false)) :=
    .divider (by decide) (by decide) (divides middle isEnd)
  have statementPrinted : anew statement = (do
      (emitter node).emit statement (some 0) 0
      write ";") := rfl
  have scriptPrinted : anew node.script = (do
      (emitter statement).emit node.script (some 0) 0) := by
    have unfolded : anew node.script = (do
        (emitter statement).emit node.script (some 0) 0
        pure ()) := rfl
    rw [unfolded, bind_pure_unit]
  rw [Node.script, emit_bare rfl, ← Node.script, scriptPrinted, emit_bare rfl, statementPrinted]
  exact lays.andThen semicolonLays

/-- A script whose words are laid out is laid out as a text, whatever its map is named for. -/
theorem layOut_of_lays {node : Node} {words : List Word} {edge : Edge}
    (lays : Lays ((emitter node.script).emit .absent none 0) ⟨none, []⟩ words edge) :
    ∃ code, LaidOut code words edge ∧ ∀ sourceName mapName, ∃ map,
      layOut node.script sourceName mapName = .ok ⟨code, map⟩ := by
  obtain ⟨page, turns, laid⟩ := lays {} [] .empty
  refine ⟨page.text, laid, fun sourceName mapName => ?_⟩
  have noStarts : (if sourceName.isSome then
      (node.script.place?.map Place.source).map (·.text.lineStarts 0) else none) = none := by
    split <;> rfl
  have ran : (((emitter node.script).emit .absent none 0).run none).run {} = .ok ((), page) := turns
  unfold layOut
  simp only [noStarts]
  rw [ran]
  exact ⟨_, rfl⟩

/-- What an expression is laid out as is read as its value, unless that nests too deep. -/
theorem Spells.layOut {node value : Node} {cost : Nat} (spells : Spells node value cost) :
    ∃ code, (∀ sourceName mapName, ∃ map,
        ScriptFold.layOut node.script sourceName mapName = .ok ⟨code, map⟩) ∧
      ∀ (source : Source) (levels : Nat), source.text = code →
        (∃ tree, parseScript source levels = .ok tree ∧ tree.core = value.script) ∨
        levels < cost + 11 ∧ parseScript source levels = .error (.parse .nestingTooDeep) := by
  obtain ⟨spelling, placed, _, stands⟩ := spells.operand (.made .exprStmt [node]) (some 0)
    (Nat.zero_le 20) nofun False.elim
  have notBlock : ¬ OpensBrace spelling.words := by
    rcases stands with ⟨_, notBrace⟩ | fits
    · exact notBrace
    · intro brace
      have notObject : node.leftmost.isKind .object = false := fits
      rw [placed.brace brace] at notObject
      cases notObject
  obtain ⟨code, laid, printed⟩ :=
    layOut_of_lays (lays_script (fun _ closed => closed.divides) placed.writes)
  refine ⟨code, printed, ?_⟩
  rintro source levels rfl
  exact parseScript_of_laidOut placed.reads
    (fun word isHead isBrace => notBlock ⟨word, isHead, isBrace⟩) laid levels

end Printer

section Nesting

/-- An empty array inside some arrays. -/
def nestedArrays : Nat → Node
  | 0 => .made .array []
  | depth + 1 => .made .array [nestedArrays depth]

theorem generated_nestedArrays (depth : Nat) : Generated .whole (nestedArrays depth) := by
  induction depth with
  | zero => exact .array nofun
  | succ depth induction =>
      refine .array fun item there => ?_
      obtain rfl := List.mem_singleton.mp there
      exact .element (.argument induction)

theorem nestedArrays_isArray (depth : Nat) :
    ∃ items, nestedArrays depth = .made .array items := by
  cases depth with
  | zero => exact ⟨_, rfl⟩
  | succ depth => exact ⟨_, rfl⟩

open Printer

/-- An array that is all that an array holds is written in one more pair of brackets. -/
theorem writes_arrayInside {items : List Node} {words : List Word}
    (writes : Writes (anew (.made .array items)) words (Edge.Closed True)) :
    Writes (anew (.made .array [.made .array items])) (indexWords words) (Edge.Closed True) := by
  let inner := Node.made .array items
  let outer := Node.made .array [inner]
  have printed : emitElements outer (partsOf (Node.unseated [inner])) =
      (((emitter inner).emit outer (some 0) Precedence.assign >>= fun _ => pure ()) >>= fun _ =>
        pure ()) := rfl
  refine writes_array fun edge awaits => ?_
  obtain ⟨next, lays, closed⟩ := writes edge awaits
  rw [printed, emit_bare rfl, bind_pure_unit, bind_pure_unit]
  exact ⟨next, lays, closed.divides⟩

/-- Arrays inside each other are written as so many brackets. -/
theorem writes_nestedArrays (depth : Nat) :
    Writes (anew (nestedArrays depth))
      (List.replicate (depth + 1) (fixed .openBracket false) ++
        List.replicate (depth + 1) (fixed .closeBracket false)) (Edge.Closed True) := by
  induction depth with
  | zero =>
      exact writes_array fun edge awaits =>
        ⟨edge, Lays.nothing.andThen .nothing, awaits.divides⟩
  | succ depth induction =>
      obtain ⟨items, isArray⟩ := nestedArrays_isArray depth
      rw [isArray] at induction
      have wider := writes_arrayInside induction
      have isWider : List.replicate (depth + 2) (fixed .openBracket false) ++
          List.replicate (depth + 2) (fixed .closeBracket false) =
          indexWords (List.replicate (depth + 1) (fixed .openBracket false) ++
            List.replicate (depth + 1) (fixed .closeBracket false)) := by
        have closings := List.replicate_succ' (n := depth + 1) (a := fixed .closeBracket false)
        rw [closings, ← List.append_assoc]
        rfl
      rw [nestedArrays, isArray, isWider]
      exact wider

private theorem frames_nestedArrays (depth : Nat) : frames
    (nestedArrays depth).script = 3 * depth + 9 := by
  have arrays : frames (nestedArrays depth) = 3 * depth + 3 := by
    induction depth with
    | zero => rfl
    | succ depth induction =>
        have inside : frames (nestedArrays (depth + 1)) =
            max (frames (nestedArrays depth)) 0 + 3 := rfl
        rw [inside, induction]
        omega
  have inside : frames (nestedArrays depth).script =
      max (max (frames (nestedArrays depth)) 0 + 3) 0 + 3 := rfl
  rw [inside, arrays]
  omega

/-- A script of more arrays inside each other than there are levels for is printed as a text that
is no script. -/
theorem nestedArrays_refused {depth : Nat} (fits : 3 * depth + 9 ≤ Stack.limit) :
    ∃ code, (∀ sourceName mapName, ∃ map,
        printTree (nestedArrays depth).script sourceName mapName = .ok ⟨code, map⟩) ∧
      ∀ (source : Source) (levels : Nat), source.text = code → levels ≤ 4 * depth →
        parseScript source levels = .error (.parse .nestingTooDeep) := by
  have writes : Writes ((emitter (nestedArrays depth)).emit (.made .exprStmt [nestedArrays depth])
      (some 0) 0) (List.replicate (depth + 1) (fixed .openBracket false) ++
        List.replicate (depth + 1) (fixed .closeBracket false)) (Edge.Closed True) := by
    obtain ⟨items, isArray⟩ := nestedArrays_isArray depth
    have written := writes_nestedArrays depth
    rw [isArray] at written ⊢
    rwa [emit_bare (by cases items <;> rfl)]
  obtain ⟨code, laid, printed⟩ :=
    layOut_of_lays (lays_script (fun _ closed => closed.divides) writes)
  refine ⟨code, fun sourceName mapName => ?_, ?_⟩
  · rw [printTree_of_le (frames_nestedArrays depth ▸ fits)]
    exact printed sourceName mapName
  · rintro source levels rfl deep
    rw [List.append_assoc] at laid
    exact parseScript_refuses (Nat.le_add_right_of_le deep) laid

end Nesting

/-- Words can be taken to bind as loose as a sequence does. -/
theorem Grammar.Reads.loosened {node : Node} {spelling : Spelling} {cost : Nat}
    (reads : Reads node spelling cost) : Reads node ⟨spelling.words, 1, true⟩ cost := by
  have loose : ∀ {least : Nat}, 2 ≤ least → ¬ least ≤ 1 := fun tight => by omega
  obtain ⟨first, more, isWords, starts, _⟩ := reads.worded.starts
  have worded : WellWorded ⟨spelling.words, 1, true⟩ :=
    ⟨⟨first, more, isWords, starts, fun tight => absurd tight (loose (by decide))⟩,
      reads.worded.balanced, fun tight => absurd tight (loose (by decide)), reads.worded.unlabeled⟩
  exact ⟨worded, fun tight => absurd tight (loose (by decide)),
    fun tight => absurd tight (loose (by decide)), fun tight => absurd tight (loose (by decide)),
    fun tight => absurd tight (loose (by decide)), reads.expression⟩

/-- A sequence of one expression is printed, and so read, as that expression. -/
theorem Printer.Spells.sequenceOfOne {node value : Node} {cost : Nat}
    (spells : Spells node value cost) : Spells (.made .sequence [node]) value (cost + 5) := by
  let sequence := Node.made .sequence [node]
  obtain ⟨spelling, placed, _⟩ := spells.operand sequence (some 0)
    (show Precedence.yield ≤ 20 by decide) nofun False.elim
  have printed : anew sequence = (do
      (emitter node).emit sequence (some 0) Precedence.yield
      pure ()) := rfl
  have brace : OpensBrace spelling.words → sequence.leftmost.isKind .object := by
    intro brace
    rw [← List.append_nil spelling.words] at brace
    exact placed.brace_append brace rfl {} []
  refine ⟨spells.1, ⟨spelling.words, 1, true⟩, ⟨⟨_, _, _, rfl⟩, rfl, ⟨false, rfl⟩, ⟨false, rfl, fun _ => rfl⟩,
    nofun, brace, ?_⟩, placed.reads.loosened⟩
  rw [printed, bind_pure_unit]
  exact placed.writes.mono fun _ closed => closed.mono fun linked =>
    absurd linked.1 (show ¬ 19 ≤ 1 by decide)

/-- On a stack that has the frames for it, a generated expression is printed as a text that is read
as the expression again, up to parentheses.  That text is refused only if the expression nests
too deep for the reader. -/
theorem generated_script_read_back {expression : Node} (generated : Generated .whole expression)
    {frames : Nat} (fits : Printer.frames expression.script ≤ frames)
    (sourceName : Option Text) (mapName : Option Text) :
    ∃ printed, printTree expression.script sourceName mapName frames = .ok printed ∧
      ∀ (source : Source) (levels : Nat), source.text = printed.code →
        (∃ tree, parseScript source levels = .ok tree ∧ tree.core = expression.script) ∨
        levels < 10 * expression.height + 11 ∧
          parseScript source levels = .error (.parse .nestingTooDeep) := by
  obtain ⟨code, printed, reads⟩ := (Printer.respelled_of_generated generated).layOut
  obtain ⟨map, isPrinted⟩ := printed sourceName mapName
  exact ⟨⟨code, map⟩, (printTree_of_le fits).trans isPrinted, reads⟩

/-- The name `a`. -/
def nameA : Node :=
  .made .ident [.word .name (Text.ofString "a")]

theorem generated_nameA : Generated .whole nameA :=
  .name ⟨_, _, rfl, rfl, rfl⟩

/-- Neither arrays that nest too deep nor a sequence of one expression are read back. -/
theorem deep_and_lone_not_read_back :
    (Generated .whole (nestedArrays 300) ∧
      ∃ printed, printTree (nestedArrays 300).script none none = .ok printed ∧
        ∀ source : Source, source.text = printed.code →
          parseScript source = .error (.parse .nestingTooDeep)) ∧
    ∃ printed, printTree (Node.made .sequence [nameA]).script none none = .ok printed ∧
      ∀ source : Source, source.text = printed.code →
        ∃ tree, parseScript source = .ok tree ∧
          tree.core ≠ (Node.made .sequence [nameA]).script := by
  constructor
  · have fits : 3 * 300 + 9 ≤ Stack.limit := by decide
    obtain ⟨code, printed, refused⟩ := nestedArrays_refused fits
    obtain ⟨map, isPrinted⟩ := printed none none
    exact ⟨generated_nestedArrays 300, ⟨code, map⟩, isPrinted,
      fun source isText => refused source nestingLimit isText (by decide)⟩
  · have spells := (Printer.respelled_of_generated generated_nameA).sequenceOfOne
    obtain ⟨code, printed, reads⟩ := spells.layOut
    obtain ⟨map, isPrinted⟩ := printed none none
    have fits : Printer.frames (Node.made .sequence [nameA]).script ≤ Stack.limit := by decide
    refine ⟨⟨code, map⟩, (printTree_of_le fits).trans isPrinted, fun source isText => ?_⟩
    rcases reads source nestingLimit isText with ⟨tree, parsed, isTree⟩ | ⟨deep, _⟩
    · refine ⟨tree, parsed, ?_⟩
      rw [isTree]
      nofun
    · exact absurd deep (by decide)

/-- The expression `new (a(...[, {"k": -a}]).a)((-a) ** a, (a) => ({}))`. -/
def constructed : Node :=
  let negated := Node.made .unary [.word .op (Text.ofString "-"), nameA]
  let items := Node.made .array [.absent, .made .object [stringProperty (Text.ofString "\"k\"") negated]]
  let called := Node.made .call [nameA, .made .args [.made .spread [items]]]
  let function := Node.made .arrow [.made .params [namedParameter (Text.ofString "a")],
    .made .object []]
  .made .newExpr [.made .member [called, .word .name (Text.ofString "a")],
    .made .args [binaryNode .pow negated nameA, function]]

/-- An expression whose parts need parentheses at a callee, an operand and a body is read back. -/
theorem constructed_read_back :
    Generated .whole constructed ∧
    ∃ printed, printTree constructed.script none none = .ok printed ∧
      ∀ source : Source, source.text = printed.code →
        ∃ tree, parseScript source = .ok tree ∧ tree.core = constructed.script := by
  have lexes : LexesAs .ident (Text.ofString "a") := ⟨_, _, rfl, rfl, rfl⟩
  have negated := Generated.unary (show isUnary .minus by decide) generated_nameA
  have generated : Generated .whole constructed := by
    refine .construct (.property false (.call false generated_nameA ?_) lexes) ?_
    · simp only [List.mem_singleton, forall_eq]
      refine .spread (.array ?_)
      simp only [List.mem_cons, List.not_mem_nil, or_false, forall_eq_or_imp, forall_eq]
      refine ⟨.hole, .element (.argument (.object ?_))⟩
      simp only [List.mem_singleton, forall_eq]
      exact .member ⟨_, _, rfl, rfl, rfl⟩ negated
    · simp only [List.mem_cons, List.not_mem_nil, or_false, forall_eq_or_imp, forall_eq]
      have names : ∀ name, name ∈ [Text.ofString "a"] → LexesAs .ident name := by
        simpa using lexes
      exact ⟨.argument (.binary rfl negated generated_nameA),
        .argument (.arrow names (.object nofun))⟩
  have fits : Printer.frames constructed.script ≤ Stack.limit := by decide
  obtain ⟨printed, isPrinted, reads⟩ := generated_script_read_back generated fits none none
  refine ⟨generated, printed, isPrinted, fun source isText => ?_⟩
  refine (reads source nestingLimit isText).resolve_right fun refused => absurd refused.1 ?_
  decide

end ScriptFold
