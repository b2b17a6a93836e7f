import Mathlib.Data.List.TakeWhile
import ScriptFold.Proofs.Printer.Chains
import ScriptFold.Tree.Basic

/-!
# Printing aggregates

Arrays with holes, objects, sequences and arrow functions.
-/

namespace ScriptFold

namespace Printer

open Word Lexer Precedence Grammar

theorem map_eq_of_forall₂ {α β γ : Type} {related : α → β → Prop} {first : α → γ} {second : β → γ}
    (same : ∀ one other, related one other → first one = second other) {ones : List α}
    {others : List β} (all : List.Forall₂ related ones others) :
    ones.map first = others.map second := by
  have mapped : List.Forall₂ Eq (ones.map first) (others.map second) :=
    List.rel_map (fun {_ _} isRelated => same _ _ isRelated) all
  rwa [List.forall₂_eq_eq_eq] at mapped

private theorem map_node_partsOf (nodes : List Node) :
    (partsOf (Node.unseated nodes)).map Part.node = nodes := by
  induction nodes with
  | nil => rfl
  | cons node nodes induction => rw [partsOf_cons, List.map_cons, induction]

/-- Marks that divide can be written right behind a comma. -/
theorem divides_after_comma : (Edge.after (fixed .comma false)).Divides := by
  have noExtension : TokenType.extensions (TokenType.spelling .comma) = [] := by decide
  have plain : ∀ type ∈ Edge.dividers, type.isKeyword = false ∧ type ≠ .slash ∧
      type ≠ .slashAssign := by
    decide
  intro type divides
  obtain ⟨notKeyword, notSlash, notAssign⟩ := plain type divides
  refine ⟨⟨?_, ?_⟩, nofun, ?_⟩
  · intro isKeyword
    have isKeyword : type.isKeyword := isKeyword
    rw [notKeyword] at isKeyword
    cases isKeyword
  · rintro (isSlash | isAssign)
    · exact absurd isSlash notSlash
    · exact absurd isAssign notAssign
  · intro last isLast _ _ more
    cases isLast
    refine scans_operator (by decide) false ⟨?_, by nofun⟩
    intro point _
    rw [noExtension]
    exact List.not_mem_nil

/-- The last item of a printed list is a hole if its words are none. -/
theorem getLast?_hole {first : Node × Node} {others : List (Node × Node)} {words : List Word}
    {items : List (List Word)} {Item : Node × Node → List Word → Prop}
    (hole : ∀ pair words, Item pair words → pair.1.isAbsent = words.isEmpty)
    (related : List.Forall₂ Item (first :: others) (words :: items)) :
    (partsOf (Node.unseated ((first :: others).map Prod.fst))).getLast?.any
        (fun part => part.node.isAbsent) = (items.getLast?.getD words).isEmpty := by
  have areHoles := map_eq_of_forall₂ hole related
  have nodes := map_node_partsOf ((first :: others).map Prod.fst)
  have ofNodes : ∀ parts : List Part, parts.getLast?.any (fun part => part.node.isAbsent) =
      ((parts.map Part.node).map Node.isAbsent).getLast?.getD false := by
    intro parts
    rw [List.map_map, List.getLast?_map]
    cases parts.getLast? <;> rfl
  rw [ofNodes, nodes, List.map_map]
  have toHoles : List.map (Node.isAbsent ∘ Prod.fst) (first :: others) =
      (words :: items).map List.isEmpty := areHoles
  rw [toHoles, List.getLast?_map, List.getLast?_cons]
  rfl

/-- Print the items of an array, with a comma behind a last hole. -/
def emitElements (node : Node) (parts : List Part) : Print Unit := do
  emitSeparated ", " node Precedence.assign 0 parts
  if parts.getLast?.any fun part => part.node.isAbsent then write ","

theorem anew_array (nodes : List Node) :
    anew (.made .array nodes) = (do
      write "["
      emitElements (.made .array nodes) (partsOf (Node.unseated nodes))
      write "]") := by
  let hole := (partsOf (Node.unseated nodes)).getLast?.any fun part => part.node.isAbsent
  have unfolded : anew (.made .array nodes) = (do
      write "["
      emitSeparated ", " (.made .array nodes) Precedence.assign 0 (partsOf (Node.unseated nodes))
      if hole then write ","
      write "]") := rfl
  rw [unfolded]
  simp only [emitElements, bind_assoc]
  cases isHole : hole with
  | true => simp [hole, isHole]
  | false => simp [hole, isHole]

theorem spells_elements {pairs : List (Node × Node)} {cost : Nat}
    (spells : ∀ pair, pair ∈ pairs → pair = (.absent, .absent) ∨ SpellsItem pair.1 pair.2 cost) :
    ∃ entries : List (Node × List Word), entries.map Prod.fst = pairs.map Prod.snd ∧
      (∀ entry, entry ∈ entries → entry = (.absent, []) ∨
        ReadsSpreadable cost .closeBracket entry.1 entry.2) ∧
      Writes (emitElements (.made .array (pairs.map Prod.fst))
          (partsOf (Node.unseated (pairs.map Prod.fst))))
        (joinItems (entries.map Prod.snd)) Edge.Divides := by
  let Item (pair : Node × Node) (words : List Word) : Prop :=
    pair.1.isAbsent = words.isEmpty ∧
      (pair.2 = .absent ∧ words = [] ∨ ReadsSpreadable cost .closeBracket pair.2 words)
  cases pairs with
  | nil =>
      refine ⟨[], rfl, nofun, fun edge awaits => ⟨edge, ?_, awaits.divides⟩⟩
      exact Lays.nothing.andThen .nothing
  | cons first others =>
      let node := Node.made .array ((first :: others).map Prod.fst)
      have written : ∀ pair, pair ∈ first :: others → ∀ index, ∃ words,
          Writes ((emitter pair.1).emit node (some index) Precedence.assign) words Edge.Divides ∧
          Item pair words := by
        intro pair there index
        rcases spells pair there with rfl | item
        · exact ⟨[], fun edge awaits => ⟨edge, .nothing, awaits.divides⟩, rfl, .inl ⟨rfl, rfl⟩⟩
        · obtain ⟨words, writes, reads⟩ := item.spelled node (.inr rfl) index
          have reads := reads .closeBracket (by decide)
          refine ⟨words, writes, ?_, .inr reads⟩
          rw [item.present, List.isEmpty_eq_false_iff.mpr reads.ne_nil]
      obtain ⟨words, items, related, writes⟩ := emitSeparated_all (fun _ divides => divides) written
      obtain ⟨entries, areValues, areWords, are⟩ := exists_items related
      refine ⟨entries, areValues, ?_, fun edge awaits => ?_⟩
      · intro entry there
        obtain ⟨pair, _, same, _, isHole | reads⟩ := are entry there
        · exact .inl (Prod.ext (same.symm.trans isHole.1) isHole.2)
        · exact .inr (same ▸ reads)
      · obtain ⟨middle, lays, divides⟩ := writes edge awaits
        have isHole := getLast?_hole (fun _ _ isItem => isItem.1) related
        simp only [emitElements, areWords, joinItems_eq, isHole, ← List.append_assoc]
        cases (items.getLast?.getD words).isEmpty with
        | true =>
            refine ⟨.after (fixed .comma false), ?_, divides_after_comma⟩
            exact lays.andThen (.divider (by decide) (by decide) divides)
        | false => exact ⟨middle, lays.andThen .nothing, divides⟩

/-- Items are written in brackets. -/
theorem writes_array {nodes : List Node} {words : List Word}
    (writes : Writes (emitElements (.made .array nodes) (partsOf (Node.unseated nodes))) words
      Edge.Divides) :
    Writes (anew (.made .array nodes)) (indexWords words) (Edge.Closed True) := by
  intro edge awaits
  have opened : (Edge.after (fixed .openBracket false)).Awaits :=
    Edge.awaits_opening (by decide) false
  obtain ⟨middle, lays, divides⟩ := writes _ opened
  have openLays : Lays (write "[") edge [fixed .openBracket false]
      (.after (fixed .openBracket false)) :=
    .opening (by decide) (by decide) awaits
  have closeLays : Lays (write "]") middle [fixed .closeBracket false]
      (.after (fixed .closeBracket false)) :=
    .divider (by decide) (by decide) divides
  refine ⟨.after (fixed .closeBracket false), ?_, Edge.closed_closing (by decide) false⟩
  rw [anew_array]
  exact openLays.andThen (lays.andThen closeLays)

/-- An array, whose items may be holes. -/
theorem spells_array {pairs : List (Node × Node)} {cost : Nat}
    (spells : ∀ pair, pair ∈ pairs → pair = (.absent, .absent) ∨
      SpellsItem pair.1 pair.2 (cost + 5)) :
    Spells (.made .array (pairs.map Prod.fst)) (.made .array (pairs.map Prod.snd)) (cost + 10) := by
  obtain ⟨entries, areValues, areRead, writes⟩ := spells_elements spells
  have reads := reads_array areRead
  rw [areValues] at reads
  exact ⟨rfl, _, ⟨⟨_, _, _, rfl⟩, rfl, ⟨false, rfl⟩, ⟨false, rfl, fun _ => rfl⟩, nofun,
    fun brace => absurd brace (not_opensBrace (by nofun)),
    (writes_array writes).mono fun _ closed => closed.mono fun _ => trivial⟩, reads.mono (by omega)⟩

/-- A sequence of at least two expressions. -/
theorem spells_sequence {pairs : List (Node × Node)} {cost : Nat}
    (spells : ∀ pair, pair ∈ pairs → Spells pair.1 pair.2 cost) (several : 2 ≤ pairs.length) :
    Spells (.made .sequence (pairs.map Prod.fst)) (.made .sequence (pairs.map Prod.snd))
      (cost + 10) := by
  match pairs, several with
  | first :: others, several =>
  let node := Node.made .sequence ((first :: others).map Prod.fst)
  let Item (pair : Node × Node) (words : List Word) : Prop :=
    ∃ spelling action, words = spelling.words ∧
      Placed pair.1 pair.2 action False (cost + 5) spelling ∧ 2 ≤ spelling.binds
  have written : ∀ pair, pair ∈ first :: others → ∀ index, ∃ words,
      Writes ((emitter pair.1).emit node (some index) Precedence.yield) words
        (Edge.Closed False) ∧ Item pair words := by
    intro pair there index
    obtain ⟨spelling, placed, tight, _⟩ := (spells pair there).operand node (some index)
      (show Precedence.yield ≤ 20 by decide) nofun False.elim
    exact ⟨spelling.words, placed.writes, spelling, _, rfl, placed, tight⟩
  obtain ⟨words, items, related, writes⟩ :=
    emitSeparated_all (fun _ closed => closed.divides) written
  obtain ⟨entries, areValues, areWords, are⟩ := exists_items related
  have joined : joinItems (entries.map Prod.snd) = words ++ commaWords items := by
    rw [areWords]
    refine joinItems_of_ne_nil fun other there => ?_
    rw [← areWords] at there
    obtain ⟨entry, isEntry, rfl⟩ := List.mem_map.mp there
    obtain ⟨_, _, _, spelling, _, isWords, placed, _⟩ := are entry isEntry
    obtain ⟨head, tail, isSpelled, _⟩ := placed.reads.worded.starts
    rw [isWords, isSpelled]
    exact List.cons_ne_nil _ _
  have reads : Reads (.made .sequence (entries.map Prod.fst))
      ⟨joinItems (entries.map Prod.snd), 1, true⟩ (cost + 5) := by
    refine reads_sequence (fun entry there => ?_) ?_
    · obtain ⟨pair, _, same, spelling, _, isWords, placed, tight⟩ := are entry there
      exact ⟨spelling, isWords, same ▸ placed.reads, tight⟩
    · rw [← List.length_map, areValues, List.length_map]
      exact several
  rw [areValues, joined] at reads
  refine ⟨rfl, _, ⟨⟨_, _, _, rfl⟩, rfl, ⟨false, rfl⟩, ⟨false, rfl, fun _ => rfl⟩, nofun,
    fun brace => ?_, ?_⟩, reads.mono (by omega)⟩
  · cases related with
    | cons isFirst _ =>
        obtain ⟨spelling, action, rfl, placed, _⟩ := isFirst
        exact placed.brace_append brace rfl {} (others.map Prod.fst)
  · exact writes.mono fun _ closed => closed.mono fun linked =>
      absurd linked.1 (show ¬ 19 ≤ 1 by decide)

/-- The names of parameters, with commas between them. -/
theorem writes_names {names : List Text} (lexes : ∀ name, name ∈ names → LexesAs .ident name) :
    Writes (emitSeparated ", " (.made .params (names.map namedParameter)) Precedence.assign 0
        (partsOf (Node.unseated (names.map namedParameter))))
      (joinItems (names.map fun name => [⟨.ident, name, false⟩])) Edge.Divides := by
  cases names with
  | nil => exact fun edge awaits => ⟨edge, .nothing, awaits.divides⟩
  | cons first others =>
      let node := Node.made .params ((first :: others).map namedParameter)
      have written : ∀ name, name ∈ first :: others → ∀ index, ∃ words,
          Writes ((emitter (namedParameter name)).emit node (some index) Precedence.assign) words
            Edge.Divides ∧ [⟨.ident, name, false⟩] = words := by
        intro name there index
        have lexes := lexes name there
        have begins := begins_of_lexesAs lexes (by decide) (sound_name lexes)
        refine ⟨_, fun edge awaits => ⟨.after ⟨.ident, name, false⟩, ?_, ?_⟩, rfl⟩
        · rw [namedParameter, emit_bare rfl]
          exact .single rfl begins.sound (awaits.takes begins)
        · exact Edge.divides_after (closes_name lexes)
      obtain ⟨words, items, related, writes⟩ :=
        emitSeparated_all (fun _ divides => divides) written
      have areWords := map_eq_of_forall₂ (fun _ _ same => same) related
      rw [List.map_id'] at areWords
      rw [areWords, joinItems_of_ne_nil]
      · exact writes
      · intro other there
        rw [← areWords] at there
        obtain ⟨name, _, rfl⟩ := List.mem_map.mp there
        exact List.cons_ne_nil _ _

/-- Parameters in parentheses. -/
theorem writes_parameters {names : List Text} (lexes : ∀ name, name ∈ names → LexesAs .ident name)
    (body : Node) :
    Writes ((emitter (.made .params (names.map namedParameter))).emit
        (.made .arrow [.made .params (names.map namedParameter), body]) (some 0) 0)
      (parameterWords names) (Edge.Closed True) := by
  let node := Node.made .params (names.map namedParameter)
  have printed : anew node = (do
      write "("
      emitSeparated ", " node Precedence.assign 0
        (partsOf (Node.unseated (names.map namedParameter)))
      write ")") := rfl
  intro edge awaits
  have opened : (Edge.after (fixed .openParen false)).Awaits :=
    Edge.awaits_opening (by decide) false
  obtain ⟨middle, lays, divides⟩ := writes_names lexes _ opened
  have openLays : Lays (write "(") edge [fixed .openParen false] (.after (fixed .openParen false)) :=
    .opening (by decide) (by decide) awaits
  have closeLays : Lays (write ")") middle [fixed .closeParen false]
      (.after (fixed .closeParen false)) :=
    .divider (by decide) (by decide) divides
  refine ⟨.after (fixed .closeParen false), ?_, Edge.closed_closing (by decide) false⟩
  rw [emit_bare rfl, printed]
  exact openLays.andThen (lays.andThen closeLays)

/-- An arrow function whose body is an expression. -/
theorem Spells.arrow {body value : Node} {cost : Nat} (spells : Spells body value cost)
    {names : List Text} (lexes : ∀ name, name ∈ names → LexesAs .ident name) :
    Spells (.made .arrow [.made .params (names.map namedParameter), body])
      (.made .arrow [.made .params (names.map namedParameter), value]) (cost + 10) := by
  let params := Node.made .params (names.map namedParameter)
  let node := Node.made .arrow [params, body]
  obtain ⟨spelling, placed, tight, stands⟩ := spells.operand node (some 1)
    (show Precedence.assign ≤ 20 by decide) nofun False.elim
  have notBlock : ¬ OpensBrace spelling.words := by
    rcases stands with ⟨_, notBrace⟩ | fits
    · exact notBrace
    · intro brace
      have notObject : body.leftmost.isKind .object = false := fits rfl
      rw [placed.brace brace] at notObject
      cases notObject
  have printed : anew node = (do
      (emitter params).emit node (some 0) 0
      write " => "
      (emitter body).emit node (some 1) Precedence.assign) := rfl
  have reads := placed.reads.arrow tight
    (fun word isHead isBrace => notBlock ⟨word, isHead, isBrace⟩) names
  refine ⟨rfl, _, ⟨⟨_, _, _, rfl⟩, rfl, ⟨false, rfl⟩, ⟨false, rfl, fun _ => rfl⟩, nofun,
    fun brace => absurd brace (not_opensBrace (by nofun)), ?_⟩, reads.mono (by omega)⟩
  intro edge awaits
  obtain ⟨middle, paramsLays, closed⟩ := writes_parameters lexes body edge awaits
  have spaced : Edge.Awaits ⟨some (fixed .arrow true), [.char ' ']⟩ :=
    Edge.awaits_gap (by nofun) (by nofun) (List.cons_ne_nil _ _)
  have arrowLays : Lays (write " => ") middle [fixed .arrow true]
      ⟨some (fixed .arrow true), [.char ' ']⟩ :=
    .operator (by decide) (sound_operator (by decide) true) closed
  obtain ⟨next, bodyLays, bodyClosed⟩ := placed.writes _ spaced
  rw [printed]
  exact ⟨next, paramsLays.andThen (arrowLays.andThen bodyLays),
    bodyClosed.mono fun linked => absurd linked.1 (show ¬ 19 ≤ 3 by decide)⟩

/-- The indentation of a page is blank. -/
theorem isGap_of_mem_indent {page : Page} {point : CodePoint} (there : point ∈ page.indent) :
    isGap point := by
  have isIndent : Page.isIndent point := List.mem_takeWhile_imp there
  simp only [Page.isIndent, isGap, CodePoint.isOneOf, List.any_cons, List.any_nil, Bool.or_false,
    Bool.or_eq_true] at isIndent ⊢
  exact isIndent.imp_right .inl

/-- Something is printed whatever the blanks are that the last line begins with. -/
theorem Lays.indented {edge next : Edge} {words : List Word} {action : Text → Print Unit}
    (lays : ∀ base : Text, (∀ point, point ∈ base → isGap point) →
      Lays (action base) edge words next) :
    Lays (currentIndent >>= action) edge words next :=
  fun page shown laid => lays page.indent (fun _ => isGap_of_mem_indent) page shown laid

/-- Words are read as a member of an object. -/
structure ReadsMember (cost : Nat) (value : Node) (words : List Word) : Prop where
  balanced : Balanced words
  reads : ∀ level,
    ReadsItem (level < cost + 4) (objectMember (rulesAt level)) .closeBrace value words

theorem ReadsMember.ne_nil {cost : Nat} {value : Node} {words : List Word}
    (member : ReadsMember cost value words) : words ≠ [] := by
  obtain ⟨first, more, rfl, _⟩ := (member.reads 0).starts
  exact List.cons_ne_nil _ _

def SpellsMember (node value : Node) (cost : Nat) : Prop :=
  ∀ parent : Node, parent.kind? = some .object → ∀ index, ∃ words,
    Writes ((emitter node).emit parent (some index) Precedence.assign) words Edge.Divides ∧
    ReadsMember cost value words

theorem Spells.property {node value : Node} {cost : Nat} (spells : Spells node value cost)
    {key : Text} (lexes : LexesAs .string key) :
    SpellsMember (stringProperty key node) (stringProperty key value) (cost + 5) := by
  intro parent isParent index
  let literal := Node.made .literal [.word .string key]
  have notLogical : (stringProperty key node).kind? ≠ some .logical := by
    intro isLogical
    cases isLogical
  obtain ⟨spelling, placed, tight, _⟩ := spells.operand (stringProperty key node) (some 1)
    (show Precedence.assign ≤ 20 by decide) (absurd · notLogical) False.elim
  have noParens : needsParens (stringProperty key node) parent (some index) Precedence.assign =
      .ok false := by
    rw [needsParens, isParent]
    rfl
  have keyParens : needsParens literal (stringProperty key node) (some 0) 0 = .ok false := by
    have binds : ofNode literal = .ok 20 :=
      ofNode_literal (show TokenType.string ∈ literals by decide) lexes
    rw [needsParens, binds]
    rfl
  have printed : anew (stringProperty key node) = (do
      (emitter literal).emit (stringProperty key node) (some 0) 0
      write ": "
      (emitter node).emit (stringProperty key node) (some 1) Precedence.assign) := rfl
  refine ⟨propertyWords key spelling.words, ?_, ?_,
    fun level => readsItem_property placed.reads tight key level⟩
  · intro edge awaits
    have begins := begins_of_lexesAs lexes (by decide) (sound_string lexes)
    have keyLays : Lays (anew literal) edge [⟨.string, key, false⟩] (.after ⟨.string, key, false⟩) :=
      .single rfl begins.sound (awaits.takes begins)
    have colonLays : Lays (write ": ") (.after ⟨.string, key, false⟩) [fixed .colon false]
        ⟨some (fixed .colon false), [.char ' ']⟩ :=
      .dividerBlank (by decide) (by decide) (Edge.divides_after (closes_string lexes))
    have spaced : Edge.Awaits ⟨some (fixed .colon false), [.char ' ']⟩ :=
      Edge.awaits_gap (by decide) (by decide) (List.cons_ne_nil _ _)
    obtain ⟨next, lays, closed⟩ := placed.writes _ spaced
    rw [stringProperty, emit_bare noParens, ← stringProperty, printed, emit_bare keyParens]
    exact ⟨next, keyLays.andThen (colonLays.andThen lays), closed.divides⟩
  · exact .cons (by simp) (.cons (by decide) placed.reads.worded.balanced)

/-- Blanks are written as they are. -/
theorem Lays.gap {edge : Edge} {gap : Text} (blank : ∀ point, point ∈ gap → isGap point)
    (notEmpty : gap ≠ []) : Lays (write gap) edge [] ⟨edge.last, edge.gap ++ gap⟩ := by
  obtain ⟨first, others, rfl⟩ := List.exists_cons_of_ne_nil notEmpty
  exact .spaced (blank first List.mem_cons_self) (.gap blank)

/-- An action begins a line with some blanks and prints words there. -/
def WritesLines (action : Text → Print Unit) (words : List Word) : Prop :=
  ∀ lead : Text, (∀ point, point ∈ lead → isGap point) → lead ≠ [] →
    ∀ last : Word, last.type ≠ .dot → last.type ≠ .optionalDot → ∃ next,
      Lays (action lead) (.after last) words next ∧ next.Divides

theorem Writes.line {action : Print Unit} {words : List Word}
    (writes : Writes action words Edge.Divides) :
    WritesLines (fun lead => do
      write lead
      action) words := by
  intro lead blank notEmpty last notDot notOptional
  obtain ⟨next, lays, divides⟩ :=
    writes ⟨some last, [] ++ lead⟩ (Edge.awaits_gap notDot notOptional notEmpty)
  exact ⟨next, (Lays.gap blank notEmpty).andThen lays, divides⟩

/-- The members of an object, each on a line of its own. -/
theorem emitMembers_writes (parent : Node) (isParent : parent.kind? = some .object) {cost : Nat}
    {pair : Node × Node} {others : List (Node × Node)}
    (spells : ∀ member, member ∈ pair :: others → SpellsMember member.1 member.2 cost)
    (index : Nat) :
    ∃ words items, List.Forall₂ (fun member => ReadsMember cost member.2) (pair :: others)
        (words :: items) ∧
      WritesLines (fun lead => emitMembers lead parent index
        (partsOf (Node.unseated ((pair :: others).map Prod.fst)))) (words ++ commaWords items) := by
  induction others generalizing pair index with
  | nil =>
      obtain ⟨words, written, reads⟩ := spells pair List.mem_cons_self parent isParent index
      refine ⟨words, [], .cons reads .nil, fun lead blank notEmpty last notDot notOptional => ?_⟩
      obtain ⟨next, lays, divides⟩ := written.line lead blank notEmpty last notDot notOptional
      have printed : emitMembers lead parent index (partsOf (Node.unseated ([pair].map Prod.fst))) =
          ((do
            write lead
            (emitter pair.1).emit parent (some index) Precedence.assign) >>= fun _ => pure ()) :=
        rfl
      simp only [printed]
      exact ⟨next, lays.andThen .nothing, divides⟩
  | cons second others induction =>
      obtain ⟨words, written, reads⟩ := spells pair List.mem_cons_self parent isParent index
      obtain ⟨secondWords, items, areRead, lines⟩ :=
        @induction second (fun member there => spells member (.tail _ there)) (index + 1)
      refine ⟨words, secondWords :: items, .cons reads areRead,
        fun lead blank notEmpty last notDot notOptional => ?_⟩
      obtain ⟨middle, lays, divides⟩ := written.line lead blank notEmpty last notDot notOptional
      have commaLays : Lays (write ",") middle [fixed .comma false] (.after (fixed .comma false)) :=
        .divider (by decide) (by decide) divides
      obtain ⟨next, restLays, isNext⟩ := lines lead blank notEmpty (fixed .comma false) nofun nofun
      have printed : emitMembers lead parent index
          (partsOf (Node.unseated ((pair :: second :: others).map Prod.fst))) =
          ((do
            write lead
            (emitter pair.1).emit parent (some index) Precedence.assign) >>= fun _ => do
            write ","
            emitMembers lead parent (index + 1)
              (partsOf (Node.unseated ((second :: others).map Prod.fst)))) := rfl
      simp only [printed]
      exact ⟨next, lays.andThen (commaLays.andThen restLays), isNext⟩

/-- A closing brace is written on a line of its own. -/
theorem lays_closeBrace {edge : Edge} {base : Text} (blank : ∀ point, point ∈ base → isGap point) :
    Lays (write (.char '\n' :: base ++ Text.ofString "\x7d")) edge [fixed .closeBrace false]
      (.after (fixed .closeBrace false)) := by
  have isGap : ∀ point, point ∈ .char '\n' :: base → isGap point := by
    intro point there
    rcases List.mem_cons.mp there with rfl | there
    · rfl
    · exact blank point there
  have meets : Edge.Meets ⟨edge.last, edge.gap ++ .char '\n' :: base⟩ (fixed .closeBrace false) := by
    refine Edge.meets_of_gap (by simp) ⟨nofun, ?_⟩ nofun
    rintro (isSlash | isAssign)
    · cases isSlash
    · cases isAssign
  have added : edge.Adds ((.char '\n' :: base) ++ (fixed .closeBrace false).text)
      ([] ++ [fixed .closeBrace false]) (.after (fixed .closeBrace false)) :=
    (Edge.Adds.gap isGap).append (.word (sound_operator (by decide) false) meets)
  exact .spaced rfl added

/-- The members of an object in braces. -/
theorem writes_members {pair : Node × Node} {others : List (Node × Node)} {words : List Word}
    (lines : WritesLines (fun lead => emitMembers lead
      (.made .object ((pair :: others).map Prod.fst)) 0
      (partsOf (Node.unseated ((pair :: others).map Prod.fst)))) words) :
    Writes (anew (.made .object ((pair :: others).map Prod.fst))) (braceWords words)
      (Edge.Closed True) := by
  let node := Node.made .object ((pair :: others).map Prod.fst)
  have printed : anew node = (do
      let base ← currentIndent
      write "\x7b"
      emitMembers (.char '\n' :: base ++ Text.ofString "  ") node 0
        (partsOf (Node.unseated ((pair :: others).map Prod.fst)))
      write (.char '\n' :: base ++ Text.ofString "\x7d")) := rfl
  intro edge awaits
  have openLays : Lays (write "\x7b") edge [fixed .openBrace false]
      (.after (fixed .openBrace false)) :=
    .opening (by decide) (by decide) awaits
  refine ⟨.after (fixed .closeBrace false), ?_, Edge.closed_closing (by decide) false⟩
  rw [printed]
  refine .indented fun base blank => ?_
  have isGap : ∀ point, point ∈ .char '\n' :: base ++ Text.ofString "  " → isGap point := by
    intro point there
    rcases List.mem_append.mp there with there | there
    · rcases List.mem_cons.mp there with rfl | there
      · rfl
      · exact blank point there
    · have spaces : ∀ point ∈ Text.ofString "  ", Word.isGap point := by decide
      exact spaces point there
  obtain ⟨middle, lays, _⟩ := lines _ isGap (List.cons_ne_nil _ _) (fixed .openBrace false) nofun
    nofun
  exact openLays.andThen (lays.andThen (lays_closeBrace blank))

private theorem writes_emptyObject :
    Writes (anew (.made .object [])) (braceWords []) (Edge.Closed True) := by
  intro edge awaits
  have begins : (fixed .openBrace false).Begins := begins_operator (by decide)
  have noExtension : TokenType.extensions (TokenType.spelling .openBrace) = [] := by decide
  have meets : (Edge.after (fixed .openBrace false)).Meets (fixed .closeBrace false) := by
    refine ⟨⟨nofun, ?_⟩, nofun, ?_⟩
    · rintro (isSlash | isAssign)
      · cases isSlash
      · cases isAssign
    · intro last isLast _ more
      cases isLast
      refine scans_operator (by decide) false ⟨?_, by nofun⟩
      intro point _
      rw [noExtension]
      exact List.not_mem_nil
  have printed : anew (.made .object []) =
      write ((fixed .openBrace false).text ++ (fixed .closeBrace false).text) := rfl
  rw [printed]
  exact ⟨_, .word begins.sound (awaits.takes begins)
    (.word (sound_operator (by decide) false) meets), Edge.closed_closing (by decide) false⟩

/-- An object whose keys are strings. -/
theorem spells_object {pairs : List (Node × Node)} {cost : Nat}
    (spells : ∀ pair, pair ∈ pairs → SpellsMember pair.1 pair.2 (cost + 5)) :
    Spells (.made .object (pairs.map Prod.fst)) (.made .object (pairs.map Prod.snd)) (cost + 10) := by
  obtain ⟨entries, areValues, areRead, writes⟩ : ∃ entries : List (Node × List Word),
      entries.map Prod.fst = pairs.map Prod.snd ∧
      (∀ entry, entry ∈ entries → ReadsMember (cost + 5) entry.1 entry.2) ∧
      Writes (anew (.made .object (pairs.map Prod.fst)))
        (braceWords (joinItems (entries.map Prod.snd))) (Edge.Closed True) := by
    cases pairs with
    | nil =>
        exact ⟨[], rfl, nofun, writes_emptyObject⟩
    | cons pair others =>
        obtain ⟨words, items, related, lines⟩ :=
          emitMembers_writes (.made .object ((pair :: others).map Prod.fst)) rfl spells 0
        obtain ⟨entries, areValues, areWords, are⟩ := exists_items related
        refine ⟨entries, areValues, fun entry there => ?_, ?_⟩
        · obtain ⟨member, _, same, reads⟩ := are entry there
          exact same ▸ reads
        · rw [areWords, joinItems_of_ne_nil]
          · exact writes_members lines
          · intro other there
            rw [← areWords] at there
            obtain ⟨entry, isEntry, rfl⟩ := List.mem_map.mp there
            obtain ⟨_, _, _, reads⟩ := are entry isEntry
            exact reads.ne_nil
  have reads := reads_object (fun entry there => (areRead entry there).balanced)
    fun entry there => (areRead entry there).reads
  rw [areValues] at reads
  refine ⟨rfl, _, ⟨⟨_, _, _, rfl⟩, rfl, ⟨false, rfl⟩, ⟨false, rfl, fun _ => rfl⟩, nofun,
    fun _ => ?_, writes.mono fun _ closed => closed.mono fun _ => trivial⟩, reads.mono (by omega)⟩
  cases pairs <;> rfl

end Printer

end ScriptFold

/-!
## Generated expressions

The expressions that are made from nothing but their parts, without a place in a text.  Each of
them is printed in words that are read as the expression again.
-/

namespace ScriptFold

open Grammar

/-- Where a part of a generated expression stands. -/
inductive Position where
  | whole
  | argument
  | element
  | member

/-- Generated expressions and their parts. -/
inductive Generated : Position → Node → Prop where
  | name {text : Text} : LexesAs .ident text →
      Generated .whole (.made .ident [.word .name text])
  | literal {type : TokenType} {text : Text} : type ∈ literals → LexesAs type text →
      Generated .whole (.made .literal [.word (literalLeaf type) text])
  | this : Generated .whole (.made .thisExpr [])
  | unary {type : TokenType} {operand : Node} : isUnary type → Generated .whole operand →
      Generated .whole (.made .unary [.word .op (Text.ofString type.spelling), operand])
  | prefixUpdate {type : TokenType} {target : Node} : type = .increment ∨ type = .decrement →
      isPlainTarget target → Generated .whole target →
      Generated .whole (.made .prefixUpdate [.word .op (Text.ofString type.spelling), target])
  | postfixUpdate {type : TokenType} {target : Node} : type = .increment ∨ type = .decrement →
      isPlainTarget target → Generated .whole target →
      Generated .whole (.made .postfixUpdate [target, .word .op (Text.ofString type.spelling)])
  | binary {type : TokenType} {precedence : Nat} {left right : Node} :
      binaryPrecedence? type = some precedence → Generated .whole left → Generated .whole right →
      Generated .whole (binaryNode type left right)
  | conditional {test consequent alternate : Node} : Generated .whole test →
      Generated .whole consequent → Generated .whole alternate →
      Generated .whole (.made .conditional [test, consequent, alternate])
  | assign {type : TokenType} {target value : Node} : type.isAssignment → isPlainTarget target →
      Generated .whole target → Generated .whole value →
      Generated .whole
        (.made .assign [target, .word .assignOp (Text.ofString type.spelling), value])
  | sequence {items : List Node} : 2 ≤ items.length →
      (∀ item, item ∈ items → Generated .whole item) → Generated .whole (.made .sequence items)
  | property (optional : Bool) {object : Node} {name : Text} : Generated .whole object →
      LexesAs .ident name →
      Generated .whole
        (.tree .member { optional } none (Node.unseated [object, .word .name name]))
  | subscript (optional : Bool) {object index : Node} : Generated .whole object →
      Generated .whole index →
      Generated .whole (.tree .subscript { optional } none (Node.unseated [object, index]))
  | call (optional : Bool) {callee : Node} {items : List Node} : Generated .whole callee →
      (∀ item, item ∈ items → Generated .argument item) →
      Generated .whole
        (.tree .call { optional } none (Node.unseated [callee, .made .args items]))
  | construct {callee : Node} {items : List Node} : Generated .whole callee →
      (∀ item, item ∈ items → Generated .argument item) →
      Generated .whole (.made .newExpr [callee, .made .args items])
  | constructBare {callee : Node} : Generated .whole callee →
      Generated .whole (.made .newExpr [callee, .absent])
  | array {items : List Node} : (∀ item, item ∈ items → Generated .element item) →
      Generated .whole (.made .array items)
  | object {items : List Node} : (∀ item, item ∈ items → Generated .member item) →
      Generated .whole (.made .object items)
  | arrow {names : List Text} {body : Node} : (∀ name, name ∈ names → LexesAs .ident name) →
      Generated .whole body →
      Generated .whole (.made .arrow [.made .params (names.map namedParameter), body])
  | argument {node : Node} : Generated .whole node → Generated .argument node
  | spread {node : Node} : Generated .whole node → Generated .argument (.made .spread [node])
  | element {node : Node} : Generated .argument node → Generated .element node
  | hole : Generated .element .absent
  | member {key : Text} {value : Node} : LexesAs .string key → Generated .whole value →
      Generated .member (stringProperty key value)

namespace Printer

/-- A part of a generated expression is printed in words that are read as that part. -/
def Respelled : Position → Node → Prop
  | .whole, node => Spells node node (10 * node.height)
  | .argument, node => ∀ cost, 10 * node.height ≤ cost → SpellsItem node node (cost + 5)
  | .element, node => ∀ cost, 10 * node.height ≤ cost →
      node = .absent ∨ SpellsItem node node (cost + 5)
  | .member, node => ∀ cost, 10 * node.height ≤ cost → SpellsMember node node (cost + 5)

/-- The levels that the children of a node may take together. -/
abbrev room (nodes : List Node) : Nat :=
  10 * Node.heightAll (Node.unseated nodes)

theorem height_le_room {node : Node} {nodes : List Node} (there : node ∈ nodes) :
    10 * node.height ≤ room nodes := by
  have seated : ⟨none, node⟩ ∈ Node.unseated nodes := List.mem_map_of_mem there
  exact Nat.mul_le_mul_left 10 (height_le_heightAll seated)

theorem Spells.child {node : Node} {nodes : List Node} (there : node ∈ nodes)
    (spells : Spells node node (10 * node.height)) : Spells node node (room nodes) :=
  spells.mono (height_le_room there)

theorem respelled_tree {kind : Kind} {flags : Flags} {nodes : List Node}
    (spells : Spells (.tree kind flags none (Node.unseated nodes))
      (.tree kind flags none (Node.unseated nodes)) (room nodes + 10)) :
    Respelled .whole (.tree kind flags none (Node.unseated nodes)) := by
  rw [Respelled, Node.height]
  exact spells

/-- Every item beside itself. -/
def twice (items : List Node) : List (Node × Node) :=
  items.map fun item => (item, item)

theorem map_fst_twice (items : List Node) : (twice items).map Prod.fst = items := by
  simp [twice, Function.comp_def]

theorem map_snd_twice (items : List Node) : (twice items).map Prod.snd = items := by
  simp [twice, Function.comp_def]

theorem of_mem_twice {items : List Node} {holds : Node × Node → Prop}
    (are : ∀ item, item ∈ items → holds (item, item)) : ∀ pair, pair ∈ twice items → holds pair := by
  intro pair there
  obtain ⟨item, isItem, rfl⟩ := List.mem_map.mp there
  exact are item isItem

/-- Arguments take no more levels than the node that they are in. -/
theorem spells_of_arguments {callee : Node} {items : List Node}
    (are : ∀ item, item ∈ items → Respelled .argument item) :
    ∀ pair, pair ∈ twice items →
      SpellsItem pair.1 pair.2 (room [callee, .made .args items] + 5) := by
  refine of_mem_twice fun item there => are item there _ ?_
  have inner : item.height < (Node.made .args items).height := height_lt_of_mem_unseated there
  have outer : 10 * (Node.made .args items).height ≤ room [callee, .made .args items] :=
    height_le_room (by simp)
  omega

/-- Every generated expression is printed in words that are read as it. -/
theorem respelled_of_generated {position : Position} {node : Node}
    (generated : Generated position node) : Respelled position node := by
  induction generated with
  | name lexes => exact spells_name lexes _
  | literal isLiteral lexes => exact spells_literal isLiteral lexes _
  | this => exact spells_this _
  | unary isOperator _ operand =>
      exact respelled_tree ((operand.child (by simp)).unary isOperator)
  | prefixUpdate isUpdate _ _ target =>
      exact respelled_tree ((target.child (by simp)).prefixUpdate isUpdate)
  | postfixUpdate isUpdate plain _ target =>
      exact respelled_tree ((target.child (by simp)).postfixUpdate plain isUpdate)
  | binary isBinary _ _ left right =>
      exact respelled_tree ((left.child (by simp)).binary (right.child (by simp)) isBinary)
  | conditional _ _ _ test consequent alternate =>
      exact respelled_tree ((test.child (by simp)).conditional (consequent.child (by simp))
        (alternate.child (by simp)))
  | assign assigns plain _ _ target value =>
      exact respelled_tree ((target.child (by simp)).assign (value.child (by simp)) plain assigns)
  | @sequence items several _ are =>
      have spells : ∀ pair, pair ∈ twice items → Spells pair.1 pair.2 (room items) :=
        of_mem_twice fun item there => (are item there).child there
      have spelled := spells_sequence spells (by simpa [twice] using several)
      rw [map_fst_twice, map_snd_twice] at spelled
      exact respelled_tree spelled
  | property optional _ lexes object =>
      exact respelled_tree ((object.child (by simp)).member optional lexes)
  | subscript optional _ _ object index =>
      exact respelled_tree ((object.child (by simp)).subscript (index.child (by simp)) optional)
  | call optional _ _ callee are =>
      have spelled := (callee.child List.mem_cons_self).call (spells_of_arguments are) optional
      rw [map_fst_twice, map_snd_twice] at spelled
      exact respelled_tree spelled
  | construct _ _ callee are =>
      have spelled := (callee.child List.mem_cons_self).construct (spells_of_arguments are)
      rw [map_fst_twice, map_snd_twice] at spelled
      exact respelled_tree spelled
  | constructBare _ callee => exact respelled_tree (callee.child (by simp)).constructBare
  | @array items _ are =>
      have spells : ∀ pair, pair ∈ twice items → pair = (.absent, .absent) ∨
          SpellsItem pair.1 pair.2 (room items + 5) := by
        refine of_mem_twice fun item there => ?_
        refine (are item there _ (height_le_room there)).imp_left ?_
        rintro rfl
        rfl
      have spelled := spells_array spells
      rw [map_fst_twice, map_snd_twice] at spelled
      exact respelled_tree spelled
  | @object items _ are =>
      have spells : ∀ pair, pair ∈ twice items → SpellsMember pair.1 pair.2 (room items + 5) :=
        of_mem_twice fun item there => are item there _ (height_le_room there)
      have spelled := spells_object spells
      rw [map_fst_twice, map_snd_twice] at spelled
      exact respelled_tree spelled
  | arrow lexes _ body => exact respelled_tree ((body.child (by simp)).arrow lexes)
  | argument _ node => exact fun cost room => (node.mono room).item
  | @spread node _ inner =>
      intro cost bounded
      have lower : node.height < (Node.made .spread [node]).height :=
        height_lt_of_mem_unseated (by simp)
      exact (inner.mono (by omega)).spread
  | element _ item => exact fun cost room => .inr (item cost room)
  | hole => exact fun _ _ => .inl rfl
  | @member key value lexes _ spells =>
      intro cost bounded
      have lower : value.height < (stringProperty key value).height :=
        height_lt_of_mem_unseated (by simp)
      exact (spells.mono (by omega)).property lexes

end Printer

end ScriptFold
