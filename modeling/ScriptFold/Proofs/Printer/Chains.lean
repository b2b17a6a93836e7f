import ScriptFold.Proofs.Printer.Forms

/-!
# Printing lists

Items with commas between them are printed one after the other: arguments, the items of an
array, the members of an object and the expressions of a sequence.
-/

namespace ScriptFold

namespace Grammar

open Word

/-- Items, each behind a comma. -/
def commaWords (items : List (List Word)) : List Word :=
  items.flatMap (fixed .comma false :: ·)

theorem joinItems_eq (first : List Word) (others : List (List Word)) :
    joinItems (first :: others) = first ++ (commaWords others ++
      if (others.getLast?.getD first).isEmpty then [fixed .comma false] else []) := by
  induction others generalizing first with
  | nil => cases first <;> simp [joinItems, commaWords]
  | cons second others induction =>
      rw [joinItems_cons (.inl (List.cons_ne_nil _ _)), induction, List.getLast?_cons,
        Option.getD_some, commaWords, commaWords, List.flatMap_cons, List.append_assoc]
      rfl

private theorem getLast?_getD_mem (first : List Word) (others : List (List Word)) :
    others.getLast?.getD first ∈ first :: others := by
  cases isLast : others.getLast? with
  | none => exact List.mem_cons_self
  | some last => exact .tail _ (List.mem_of_getLast? isLast)

/-- Without holes there are only commas between items. -/
theorem joinItems_of_ne_nil {first : List Word} {others : List (List Word)}
    (noHole : ∀ words, words ∈ first :: others → words ≠ []) :
    joinItems (first :: others) = first ++ commaWords others := by
  have present : (others.getLast?.getD first).isEmpty = false := by
    rw [List.isEmpty_eq_false_iff]
    exact noHole _ (getLast?_getD_mem first others)
  rw [joinItems_eq, present]
  simp

theorem ReadsSpreadable.ne_nil {cost : Nat} {closer : TokenType} {value : Node} {words : List Word}
    (reads : ReadsSpreadable cost closer value words) : words ≠ [] := by
  obtain ⟨first, more, rfl, _⟩ := (reads.reads 0).starts
  exact List.cons_ne_nil _ _

end Grammar

namespace Printer

open Word Precedence Grammar

/-- The parts of a new node. -/
theorem partsOf_cons (node : Node) (nodes : List Node) :
    partsOf (Node.unseated (node :: nodes)) =
      ⟨node, none, emitter node⟩ :: partsOf (Node.unseated nodes) := by
  rw [Node.unseated, List.map_cons, partsOf]
  rfl

/-- Items that are written one after the other, with what relates them to their words. -/
theorem emitSeparated_writes {α : Type} {node : α → Node} {parent : Node} {least : Nat}
    {ends : Edge → Prop} (divides : ∀ edge, ends edge → edge.Divides)
    {Item : α → List Word → Prop} {entries : List α}
    (writes : ∀ entry, entry ∈ entries → ∀ index, ∃ words,
      Writes ((emitter (node entry)).emit parent (some index) least) words ends ∧ Item entry words)
    (index : Nat) :
    ∃ items, List.Forall₂ Item entries items ∧ ∀ edge, ends edge → ∃ next,
      Lays (emitSeparated ", " parent least (index + 1)
        (partsOf (Node.unseated (entries.map node)))) edge (commaWords items) next ∧
      ends next := by
  induction entries generalizing index with
  | nil => exact ⟨[], .nil, fun edge is => ⟨edge, .nothing, is⟩⟩
  | cons entry entries induction =>
      obtain ⟨words, written, isItem⟩ := writes entry List.mem_cons_self (index + 1)
      obtain ⟨items, areItems, lays⟩ :=
        induction (fun other there => writes other (.tail _ there)) (index + 1)
      refine ⟨words :: items, .cons isItem areItems, fun edge is => ?_⟩
      have commaLays : Lays (write ", ") edge [fixed .comma false]
          ⟨some (fixed .comma false), [.char ' ']⟩ :=
        .dividerBlank (by decide) (by decide) (divides edge is)
      have awaits : Edge.Awaits ⟨some (fixed .comma false), [.char ' ']⟩ :=
        Edge.awaits_gap (by nofun) (by nofun) (List.cons_ne_nil _ _)
      obtain ⟨middle, itemLays, isMiddle⟩ := written _ awaits
      obtain ⟨next, restLays, isNext⟩ := lays middle isMiddle
      refine ⟨next, ?_, isNext⟩
      exact commaLays.andThen (itemLays.andThen restLays)

/-- A whole list of items that is written where an operand can stand. -/
theorem emitSeparated_all {α : Type} {node : α → Node} {parent : Node} {least : Nat}
    {ends : Edge → Prop} (divides : ∀ edge, ends edge → edge.Divides)
    {Item : α → List Word → Prop} {first : α} {others : List α}
    (writes : ∀ entry, entry ∈ first :: others → ∀ index, ∃ words,
      Writes ((emitter (node entry)).emit parent (some index) least) words ends ∧
        Item entry words) :
    ∃ words items, List.Forall₂ Item (first :: others) (words :: items) ∧
      Writes (emitSeparated ", " parent least 0
        (partsOf (Node.unseated ((first :: others).map node)))) (words ++ commaWords items)
        ends := by
  obtain ⟨words, written, isItem⟩ := writes first List.mem_cons_self 0
  obtain ⟨items, areItems, lays⟩ :=
    emitSeparated_writes divides (fun other there => writes other (.tail _ there)) 0
  refine ⟨words, items, .cons isItem areItems, fun edge awaits => ?_⟩
  obtain ⟨middle, itemLays, isMiddle⟩ := written edge awaits
  obtain ⟨next, restLays, isNext⟩ := lays middle isMiddle
  refine ⟨next, ?_, isNext⟩
  rw [List.map_cons, partsOf_cons]
  exact itemLays.andThen restLays

/-- The values of some pairs beside the words that they are written in. -/
theorem exists_items {Item : Node × Node → List Word → Prop} {pairs : List (Node × Node)}
    {words : List (List Word)} (related : List.Forall₂ Item pairs words) :
    ∃ items : List (Node × List Word), items.map Prod.fst = pairs.map Prod.snd ∧
      items.map Prod.snd = words ∧
      ∀ entry, entry ∈ items → ∃ pair, pair ∈ pairs ∧ pair.2 = entry.1 ∧ Item pair entry.2 := by
  induction related with
  | nil => exact ⟨[], rfl, rfl, nofun⟩
  | @cons pair words pairs others isItem _ induction =>
      obtain ⟨items, areValues, areWords, are⟩ := induction
      refine ⟨(pair.2, words) :: items, congrArg (pair.2 :: ·) areValues,
        congrArg (words :: ·) areWords, ?_⟩
      intro entry there
      cases there with
      | head => exact ⟨pair, List.mem_cons_self, rfl, isItem⟩
      | tail _ there =>
          obtain ⟨other, isOther, same, isItem⟩ := are entry there
          exact ⟨other, .tail _ isOther, same, isItem⟩

/-- An item of a list of arguments or of an array. -/
structure SpellsItem (node value : Node) (cost : Nat) : Prop where
  present : node.isAbsent = false
  spelled : ∀ parent : Node, parent.kind? = some .args ∨ parent.kind? = some .array →
    ∀ index, ∃ words,
      Writes ((emitter node).emit parent (some index) Precedence.assign) words Edge.Divides ∧
      ∀ closer ∈ [TokenType.closeParen, .closeBracket], ReadsSpreadable cost closer value words

theorem Spells.present {node value : Node} {cost : Nat} (spells : Spells node value cost) :
    node.isAbsent = false := by
  obtain ⟨_, _, prints, _⟩ := spells
  obtain ⟨kind, flags, children, rfl⟩ := prints.made
  rfl

theorem Spells.item {node value : Node} {cost : Nat} (spells : Spells node value cost) :
    SpellsItem node value (cost + 5) := by
  refine ⟨spells.present, fun parent isParent index => ?_⟩
  have notLogical : parent.kind? = some .logical → ∃ op, operatorText parent = .ok op := by
    intro isLogical
    rw [isLogical] at isParent
    rcases isParent with isParent | isParent <;> cases isParent
  obtain ⟨spelling, placed, tight, _⟩ := spells.operand parent (some index)
    (show Precedence.assign ≤ 20 by decide) notLogical False.elim
  exact ⟨spelling.words, placed.writes.mono fun _ closed => closed.divides,
    fun closer closes => placed.reads.spreadable tight closes⟩

theorem Spells.spread {node value : Node} {cost : Nat} (spells : Spells node value cost) :
    SpellsItem (.made .spread [node]) (.made .spread [value]) (cost + 5) := by
  refine ⟨rfl, fun parent isParent index => ?_⟩
  obtain ⟨spelling, placed, tight, _⟩ := spells.operand (.made .spread [node]) (some 0)
    (show Precedence.assign ≤ 20 by decide) nofun False.elim
  have noParens : needsParens (.made .spread [node]) parent (some index) Precedence.assign =
      .ok false := by
    rw [needsParens]
    rcases isParent with isParent | isParent <;> rw [isParent] <;> rfl
  have printed : anew (.made .spread [node]) = (do
      write "..."
      (emitter node).emit (.made .spread [node]) (some 0) Precedence.assign) := rfl
  refine ⟨fixed .ellipsis false :: spelling.words, ?_,
    fun closer closes => placed.reads.spread tight closes⟩
  intro edge awaits
  have opened : (Edge.after (fixed .ellipsis false)).Awaits := Edge.awaits_opening (by decide) false
  obtain ⟨next, lays, closed⟩ := placed.writes _ opened
  rw [emit_bare noParens, printed]
  exact ⟨next, (Lays.opening (by decide) (by decide) awaits).andThen lays, closed.divides⟩

/-- Arguments in parentheses. -/
theorem spells_arguments {pairs : List (Node × Node)} {cost : Nat}
    (spells : ∀ pair, pair ∈ pairs → SpellsItem pair.1 pair.2 cost) :
    ∃ entries : List (Node × List Word), entries.map Prod.fst = pairs.map Prod.snd ∧
      (∀ entry, entry ∈ entries → ReadsSpreadable cost .closeParen entry.1 entry.2) ∧
      ∀ edge : Edge, edge.Takes (fixed .openParen false) →
        Lays (anew (.made .args (pairs.map Prod.fst))) edge (argumentWords entries)
          (.after (fixed .closeParen false)) := by
  have printed : anew (.made .args (pairs.map Prod.fst)) = (do
      write "("
      emitSeparated ", " (.made .args (pairs.map Prod.fst)) Precedence.assign 0
        (partsOf (Node.unseated (pairs.map Prod.fst)))
      write ")") := rfl
  have opened : (Edge.after (fixed .openParen false)).Awaits := Edge.awaits_opening (by decide) false
  have opener : ∀ {edge : Edge}, edge.Takes (fixed .openParen false) →
      Lays (write "(") edge [fixed .openParen false] (.after (fixed .openParen false)) :=
    .single (by decide) (Edge.sound_divider (by decide))
  have closer : ∀ {edge : Edge}, edge.Divides →
      Lays (write ")") edge [fixed .closeParen false] (.after (fixed .closeParen false)) :=
    .divider (by decide) (by decide)
  rw [printed]
  cases pairs with
  | nil =>
      refine ⟨[], rfl, nofun, fun edge takes => ?_⟩
      exact (opener takes).andThen (Lays.nothing.andThen (closer opened.divides))
  | cons first others =>
      have written : ∀ pair, pair ∈ first :: others → ∀ index, ∃ words,
          Writes ((emitter pair.1).emit (.made .args ((first :: others).map Prod.fst)) (some index)
            Precedence.assign) words Edge.Divides ∧
          ReadsSpreadable cost .closeParen pair.2 words := by
        intro pair there index
        obtain ⟨words, writes, reads⟩ :=
          (spells pair there).spelled (.made .args ((first :: others).map Prod.fst)) (.inl rfl) index
        exact ⟨words, writes, reads .closeParen (by decide)⟩
      obtain ⟨words, items, related, writes⟩ := emitSeparated_all (fun _ divides => divides) written
      obtain ⟨entries, areValues, areWords, are⟩ := exists_items related
      refine ⟨entries, areValues, ?_, fun edge takes => ?_⟩
      · intro entry there
        obtain ⟨pair, _, same, reads⟩ := are entry there
        exact same ▸ reads
      · obtain ⟨next, lays, divides⟩ := writes _ opened
        have joined : joinItems (entries.map Prod.snd) = words ++ commaWords items := by
          rw [areWords]
          refine joinItems_of_ne_nil fun other there => ?_
          rw [← areWords] at there
          obtain ⟨entry, isEntry, rfl⟩ := List.mem_map.mp there
          obtain ⟨pair, _, _, reads⟩ := are entry isEntry
          exact reads.ne_nil
        rw [argumentWords, joined]
        exact (opener takes).andThen (lays.andThen (closer divides))

end Printer

end ScriptFold

/-!
## Printing chains

Members, subscripts, calls and constructions.  A number is put in parentheses before a dot,
and so is what holds a call where a construction would take it for its own.
-/

namespace ScriptFold

namespace Printer

open Word Lexer Precedence Grammar

/-- A name can be written right behind a dot. -/
theorem takes_name_after_dot {text : Text} (lexes : LexesAs .ident text) (optional : Bool) :
    (Edge.after (dotWord optional)).Takes ⟨.ident, text, false⟩ := by
  refine ⟨⟨nofun, nofun⟩, nofun, ?_⟩
  intro last isLast _ _ more
  cases isLast
  obtain ⟨⟨⟨point, others, rfl, _, _, _, notDigit, isWord⟩, _⟩, _⟩ := isName_of_lexesAs lexes rfl
  have notDot : point.is '.' = false := not_is_of_class isWord (by decide)
  have extending : ∀ type ∈ [TokenType.dot, .optionalDot], type.isOperator ∧
      ∀ point ∈ TokenType.extensions type.spelling, point.is '.' := by
    decide
  have among : (if optional then TokenType.optionalDot else .dot) ∈ [TokenType.dot, .optionalDot] := by
    cases optional <;> decide
  obtain ⟨isOperator, extension⟩ := extending _ among
  refine scans_operator isOperator false ⟨?_, fun _ => notDigit⟩
  intro first isFirst extends'
  cases isFirst
  rw [extension point extends'] at notDot
  cases notDot

theorem takes_dot {last : Word} (closes : last.Closes) (links : last.Links) (optional : Bool) :
    (Edge.after last).Takes (dotWord optional) := by
  cases optional with
  | false => exact closes.takes_link links rfl (by decide)
  | true => exact closes.takes_link links rfl (by decide)

theorem sound_dot (optional : Bool) : (dotWord optional).Sound := by
  cases optional <;> exact sound_operator (by decide) false

theorem Spells.member {object value : Node} {cost : Nat} (spells : Spells object value cost)
    (optional : Bool) {text : Text} (lexes : LexesAs .ident text) :
    Spells (.tree .member { optional } none (Node.unseated [object, .word .name text]))
      (.tree .member { optional } none (Node.unseated [value, .word .name text])) (cost + 10) := by
  let node := Node.tree .member { optional } none (Node.unseated [object, .word .name text])
  obtain ⟨spelling, placed, tight, _⟩ := spells.operand node (some 0)
    (show Precedence.call ≤ 20 by decide) nofun
    (fun _ : True => ⟨Nat.le_refl 19, fun fits => fits rfl⟩)
  have printed : anew node = (do
      (emitter object).emit node (some 0) Precedence.call
      write (if optional then "?." else "." : String)
      write text) := rfl
  have dotText : (dotWord optional).text = (if optional then "?." else "." : String) := by
    cases optional <;> decide
  obtain ⟨found, isCall, isFree⟩ := placed.calls
  refine ⟨rfl, _, ⟨⟨_, _, _, rfl⟩, rfl, ⟨false, rfl⟩, ⟨found, isCall, fun isFalse => ?_⟩, nofun,
    fun brace => placed.brace_append brace rfl { optional } [.word .name text], ?_⟩,
    (placed.reads.member tight optional text).mono (by omega)⟩
  · rw [isFree isFalse]
    rfl
  · intro edge awaits
    obtain ⟨_, lays, last, rfl, closes, links⟩ := placed.writes edge awaits
    have dotLays := Lays.single dotText (sound_dot optional)
      (takes_dot closes (links trivial) optional)
    have nameLays := Lays.single rfl (sound_name lexes) (takes_name_after_dot lexes optional)
    rw [printed]
    exact ⟨_, lays.andThen (dotLays.andThen nameLays), _, rfl, closes_name lexes,
      fun _ => links_name lexes⟩

/-- Brackets and parentheses can be written right behind an optional dot. -/
theorem meets_after_optional {type : TokenType} (opens : type = .openParen ∨ type = .openBracket) :
    (Edge.after (fixed .optionalDot false)).Meets (fixed type false) := by
  have noExtension : TokenType.extensions (TokenType.spelling .optionalDot) = [] := by decide
  refine ⟨⟨?_, ?_⟩, nofun, ?_⟩
  · rcases opens with rfl | rfl <;> nofun
  · rcases opens with rfl | rfl <;> nofun
  · intro last isLast _ more
    cases isLast
    refine scans_operator (by decide) false ⟨?_, fun _ => ?_⟩
    · intro point _
      rw [noExtension]
      exact List.not_mem_nil
    · rcases opens with rfl | rfl <;> rfl

theorem opens_bracket {edge : Edge} (closed : edge.Closed True) (optional : Bool) :
    Lays (write (if optional then "?.[" else "[" : String)) edge
      (optionalWords optional ++ [fixed .openBracket false]) (.after (fixed .openBracket false)) := by
  cases optional with
  | false => exact .divider (by decide) (by decide) closed.divides
  | true =>
      obtain ⟨last, rfl, closes, links⟩ := closed
      have bracket : Edge.Adds ⟨some (fixed .optionalDot false), []⟩ (fixed .openBracket false).text
          [fixed .openBracket false] (.after (fixed .openBracket false)) :=
        .word (sound_operator (by decide) false) (meets_after_optional (.inr rfl))
      exact Lays.word (sound_dot true) (takes_dot closes (links trivial) true) bracket

theorem Spells.subscript {object value index indexValue : Node} {cost : Nat}
    (spells : Spells object value cost) (indexSpells : Spells index indexValue cost)
    (optional : Bool) :
    Spells (.tree .subscript { optional } none (Node.unseated [object, index]))
      (.tree .subscript { optional } none (Node.unseated [value, indexValue])) (cost + 10) := by
  let node := Node.tree .subscript { optional } none (Node.unseated [object, index])
  obtain ⟨spelling, placed, tight, _⟩ := spells.operand node (some 0)
    (show Precedence.call ≤ 20 by decide) nofun
    (fun _ : True => ⟨Nat.le_refl 19, fun fits => fits rfl⟩)
  obtain ⟨inner, indexPlaced, _⟩ := indexSpells.operand node (some 1) (Nat.zero_le 20) nofun
    False.elim
  have printed : anew node = (do
      (emitter object).emit node (some 0) Precedence.call
      write (if optional then "?.[" else "[" : String)
      (emitter index).emit node (some 1) 0
      write "]") := rfl
  have reads := (placed.reads.mono (Nat.le_add_right _ 5)).subscript tight indexPlaced.reads optional
  obtain ⟨found, isCall, isFree⟩ := placed.calls
  refine ⟨rfl, _, ⟨⟨_, _, _, rfl⟩, rfl, ⟨false, rfl⟩, ⟨found, isCall, fun isFalse => ?_⟩, nofun,
    fun brace => placed.brace_append brace rfl { optional } [index], ?_⟩, reads⟩
  · rw [isFree isFalse]
    rfl
  · intro edge awaits
    obtain ⟨middle, lays, closed⟩ := placed.writes edge awaits
    have opened : (Edge.after (fixed .openBracket false)).Awaits :=
      Edge.awaits_opening (by decide) false
    obtain ⟨next, indexLays, indexClosed⟩ := indexPlaced.writes _ opened
    have closeLays : Lays (write "]") next [fixed .closeBracket false]
        (.after (fixed .closeBracket false)) :=
      .divider (by decide) (by decide) indexClosed.divides
    have bracketed : optionalWords optional ++ indexWords inner.words =
        (optionalWords optional ++ [fixed .openBracket false]) ++
          (inner.words ++ [fixed .closeBracket false]) := by
      simp [indexWords]
    refine ⟨.after (fixed .closeBracket false), ?_,
      (Edge.closed_closing (by decide) false).mono fun _ => trivial⟩
    show Lays (anew node) edge (spelling.words ++ (optionalWords optional ++ indexWords inner.words)) _
    rw [printed, bracketed]
    exact lays.andThen ((opens_bracket closed optional).andThen (indexLays.andThen closeLays))

/-- Arguments that stand at an index of a call or a construction. -/
theorem emit_arguments (items : List Node) {parent : Node}
    (isParent : parent.kind? = some .call ∨ parent.kind? = some .newExpr) :
    (emitter (.made .args items)).emit parent (some 1) 0 = anew (.made .args items) := by
  apply emit_bare
  rw [needsParens]
  rcases isParent with isParent | isParent <;> rw [isParent] <;> rfl

theorem Spells.call {object value : Node} {cost : Nat} (spells : Spells object value cost)
    {pairs : List (Node × Node)}
    (itemSpells : ∀ pair, pair ∈ pairs → SpellsItem pair.1 pair.2 (cost + 5)) (optional : Bool) :
    Spells (.tree .call { optional } none
        (Node.unseated [object, .made .args (pairs.map Prod.fst)]))
      (.tree .call { optional } none
        (Node.unseated [value, .made .args (pairs.map Prod.snd)])) (cost + 10) := by
  let args := Node.made .args (pairs.map Prod.fst)
  let node := Node.tree .call { optional } none (Node.unseated [object, args])
  obtain ⟨spelling, placed, tight, _⟩ := spells.operand node (some 0)
    (show Precedence.call ≤ 20 by decide) nofun
    (fun _ : True => ⟨Nat.le_refl 19, fun fits => fits rfl⟩)
  obtain ⟨entries, areValues, areRead, argsLays⟩ := spells_arguments itemSpells
  have printed : anew node = (do
      (emitter object).emit node (some 0) Precedence.call
      if optional then write "?."
      (emitter args).emit node (some 1) 0) := rfl
  have reads := (placed.reads.mono (Nat.le_add_right _ 4)).call tight areRead optional
  rw [areValues] at reads
  refine ⟨rfl, _, ⟨⟨_, _, _, rfl⟩, rfl, ⟨false, rfl⟩, ⟨true, rfl, nofun⟩, nofun,
    fun brace => placed.brace_append brace rfl { optional } [args], ?_⟩, reads.mono (by omega)⟩
  intro edge awaits
  obtain ⟨middle, lays, closed⟩ := placed.writes edge awaits
  refine ⟨.after (fixed .closeParen false), ?_,
    (Edge.closed_closing (by decide) false).mono fun _ => trivial⟩
  rw [printed, emit_arguments _ (.inl rfl)]
  cases optional with
  | false =>
      have argsLays := argsLays middle (closed.divides .openParen (by decide))
      exact lays.andThen argsLays
  | true =>
      obtain ⟨last, rfl, closes, links⟩ := closed
      have dotLays : Lays (write "?.") (.after last) [dotWord true] (.after (dotWord true)) :=
        .single (by decide) (sound_dot true) (takes_dot closes (links trivial) true)
      have meets : (Edge.after (dotWord true)).Meets (fixed .openParen false) :=
        meets_after_optional (.inl rfl)
      have argsLays := argsLays (.after (dotWord true)) ⟨meets.follows, meets.onLine,
        fun last isLast noGap _ => meets.apart last isLast noGap⟩
      exact lays.andThen (dotLays.andThen argsLays)

/-- What is constructed, behind the word `new`. -/
theorem Spells.callee {callee value : Node} {cost : Nat} (spells : Spells callee value cost)
    (args : Node) :
    ∃ spelling, Reads value spelling (cost + 5) ∧ 19 ≤ spelling.binds ∧ spelling.free ∧
      Writes (do
        write "new "
        (emitter callee).emit (.made .newExpr [callee, args]) (some 0) Precedence.call)
        (fixed .kwNew false :: spelling.words) (Edge.Closed False) := by
  obtain ⟨spelling, placed, tight, stands⟩ := spells.operand (.made .newExpr [callee, args]) (some 0)
    (show Precedence.call ≤ 20 by decide) nofun False.elim
  have isFree : spelling.free := by
    rcases stands with ⟨isFree, _⟩ | fits
    · exact isFree
    · have noCall : containsCall callee = .ok false := fits rfl
      obtain ⟨found, isCall, isFree⟩ := placed.calls
      rw [noCall] at isCall
      exact isFree (Except.ok.inj isCall).symm
  refine ⟨spelling, placed.reads, tight, isFree, fun edge awaits => ?_⟩
  have begins : (fixed .kwNew false).Begins := begins_keyword (by decide)
  have spaced : Edge.Awaits ⟨some (fixed .kwNew false), [.char ' ']⟩ :=
    Edge.awaits_gap (by nofun) (by nofun) (List.cons_ne_nil _ _)
  obtain ⟨next, lays, closed⟩ := placed.writes _ spaced
  exact ⟨next, (Lays.beforeBlank (by decide) begins.sound (awaits.takes begins)).andThen lays, closed⟩

theorem Spells.construct {callee value : Node} {cost : Nat} (spells : Spells callee value cost)
    {pairs : List (Node × Node)}
    (itemSpells : ∀ pair, pair ∈ pairs → SpellsItem pair.1 pair.2 (cost + 5)) :
    Spells (.made .newExpr [callee, .made .args (pairs.map Prod.fst)])
      (.made .newExpr [value, .made .args (pairs.map Prod.snd)]) (cost + 10) := by
  let args := Node.made .args (pairs.map Prod.fst)
  let node := Node.made .newExpr [callee, args]
  obtain ⟨spelling, calleeReads, tight, isFree, writes⟩ := spells.callee args
  obtain ⟨entries, areValues, areRead, argsLays⟩ := spells_arguments itemSpells
  have printed : anew node = ((do
      write "new "
      (emitter callee).emit node (some 0) Precedence.call) >>= fun _ =>
      (emitter args).emit node (some 1) 0) := rfl
  have reads := (calleeReads.mono (Nat.le_add_right _ 4)).construct tight isFree areRead
  rw [areValues] at reads
  refine ⟨rfl, _, ⟨⟨_, _, _, rfl⟩, rfl, ⟨false, rfl⟩, ⟨false, rfl, fun _ => rfl⟩, nofun,
    fun brace => absurd brace (not_opensBrace (by nofun)), ?_⟩, reads⟩
  intro edge awaits
  obtain ⟨middle, lays, closed⟩ := writes edge awaits
  have argsLays := argsLays middle (closed.divides .openParen (by decide))
  refine ⟨.after (fixed .closeParen false), ?_,
    (Edge.closed_closing (by decide) false).mono fun _ => trivial⟩
  rw [printed, emit_arguments _ (.inr rfl)]
  exact lays.andThen argsLays

theorem Spells.constructBare {callee value : Node} {cost : Nat} (spells : Spells callee value cost) :
    Spells (.made .newExpr [callee, .absent]) (.made .newExpr [value, .absent]) (cost + 10) := by
  let node := Node.made .newExpr [callee, .absent]
  obtain ⟨spelling, calleeReads, tight, isFree, writes⟩ := spells.callee .absent
  have printed : anew node = ((do
      write "new "
      (emitter callee).emit node (some 0) Precedence.call) >>= fun _ => pure ()) := rfl
  refine ⟨rfl, _, ⟨⟨_, _, _, rfl⟩, rfl, ⟨false, rfl⟩, ⟨false, rfl, fun _ => rfl⟩, nofun,
    fun brace => absurd brace (not_opensBrace (by nofun)), ?_⟩,
    (calleeReads.constructBare tight isFree).mono (by omega)⟩
  intro edge awaits
  obtain ⟨next, lays, closed⟩ := writes edge awaits
  refine ⟨next, ?_, closed.mono fun linked => absurd linked.1 (show ¬ 19 ≤ 18 by decide)⟩
  rw [printed, bind_pure_unit]
  exact lays

end Printer

end ScriptFold
