import ScriptFold.Evaluate
import ScriptFold.Printer.Basic
import ScriptFold.Proofs.Printer.Page
import ScriptFold.Proofs.Reading.Statement
import ScriptFold.Proofs.SourceMap.RoundTrip

/-!
# Printing a script as it was read

A tree that has just been read is clean all the way down, so its text is copied from the
source as a whole.  The mappings of the copy are at most one for each line and hence come
back from their encoding.
-/

namespace ScriptFold

namespace Page

theorem lineMapping?_line {line : Text} {index : Nat} {mapping : Mapping}
    (isMapping : lineMapping? line index = some mapping) : mapping.generatedLine = index := by
  obtain ⟨column, _, rfl⟩ := Option.map_eq_some_iff.mp isMapping
  rfl

theorem le_line_of_mem_lineMappings {lines : List Text} {index : Nat} {mapping : Mapping}
    (there : mapping ∈ lineMappings index lines) : (index : Int) ≤ mapping.generatedLine := by
  obtain ⟨⟨line, other⟩, inLines, isMapping⟩ := List.mem_filterMap.mp there
  rw [lineMapping?_line isMapping]
  exact Int.ofNat_le.mpr (List.le_snd_of_mem_zipIdx inLines)

/-- The mappings of lines are in the order of the lines, at most one for each line. -/
theorem lineMappings_increasing (index : Nat) (lines : List Text) :
    (lineMappings index lines).Pairwise fun first second =>
      first.generatedLine < second.generatedLine := by
  induction lines generalizing index with
  | nil => exact .nil
  | cons line rest induction =>
      have later : (lineMappings (index + 1) rest).Pairwise _ := induction (index + 1)
      simp only [lineMappings, List.zipIdx_cons, List.filterMap_cons] at later ⊢
      split
      case h_1 => exact later
      case h_2 mapping isMapping =>
        refine .cons (fun other there => ?_) later
        have after := le_line_of_mem_lineMappings there
        rw [lineMapping?_line isMapping]
        omega

end Page

namespace Printer

/-- A clean node is copied from its source, in parentheses if its position asks for them. -/
theorem emit_of_isClean {kind : Kind} {flags : Flags} {place : Place}
    {children : List (Child Node)}
    (isClean : (Node.tree kind flags (some place) children).isClean)
    {parent : Node} {index : Option Nat} {least : Nat} {parens : Bool}
    (needs : Precedence.needsParens (.tree kind flags (some place) children) parent index least =
      .ok parens) :
    (emitter (.tree kind flags (some place) children)).emit parent index least =
      enclose parens (copy place.source place.span.start place.span.stop) := by
  rw [emitter]
  simp only [isClean, needs]
  rfl

/-- A clean program is printed as a copy of its source. -/
theorem emit_program {source : Source} {statements : List Node} {starts : Option (List Nat)}
    {page after : Page} (isClean : (Grammar.program source statements).isClean)
    (copied : Turns starts (copy source 0 source.text.length) page after) :
    Turns starts ((emitter (Grammar.program source statements)).emit .absent none 0) page
      after := by
  have printed : (emitter (Grammar.program source statements)).emit .absent none 0 =
      enclose false (copy source 0 source.text.length) :=
    emit_of_isClean isClean rfl
  rw [printed]
  exact .andThen copied rfl

/-- What a page that a tree is printed on makes of the text and the map. -/
theorem layOut_of_turns {tree : Node} {source : Source} {page : Page}
    (isSource : tree.place?.map Place.source = some source)
    (sourceName mapName : Option Text)
    (turns : Turns (if sourceName.isSome then some (source.text.lineStarts 0) else none)
      ((emitter tree).emit .absent none 0) {} page) :
    layOut tree sourceName mapName =
      .ok ⟨page.text, sourceName.map fun name =>
        (SourceMap.mk name (some source.text) mapName page.mappings.reverse).toJson⟩ := by
  rw [Turns] at turns
  unfold layOut
  simp only [isSource, Option.map_some, turns]
  rfl

end Printer

/-- A program as it is read is laid out as its text. -/
theorem layOut_program {source : Source} {statements : List Node}
    (asRead : Grammar.AsRead (Grammar.program source statements)) (mapName : Option Text) :
    layOut (Grammar.program source statements) none mapName = .ok ⟨source.text, none⟩ := by
  obtain ⟨page, turns, isText⟩ := Printer.copy_turns source
  have printed := Printer.layOut_of_turns rfl none mapName
    (Printer.emit_program asRead.isClean turns)
  rwa [isText] at printed

/-- The mappings of a text that is copied as a whole: for every line with a character other
than a space and a tab, the first such character comes from itself. -/
def Text.ownMappings (text : Text) : List Mapping :=
  Page.lineMappings 0 (text.splitAt '\n')

private theorem Text.decode_ownMappings (text : Text) :
    Mapping.decode (Text.ofString (Mapping.encode text.ownMappings)) = .ok text.ownMappings := by
  refine Mapping.decode_encode_of_pairwise ((Page.lineMappings_increasing _ _).imp .inl) ?_
  exact fun mapping there => Page.le_line_of_mem_lineMappings there

/-- Printing a tree that has just been read, to any number of levels, gives the text it was read
from, provided that the stack has the frames for it, and fails otherwise.  If a map is asked for,
its mappings are those of the text to itself, and they decode to just these. -/
theorem printTree_parseScript {text : Text} {name : Option Text} {levels : Nat} {tree : Node}
    (parsed : parseScript ⟨text, name, .script⟩ levels = .ok tree) (frames : Nat) :
    (Printer.frames tree ≤ frames →
      (∀ mapName, printTree tree none mapName frames = .ok ⟨text, none⟩) ∧
      ∀ sourceName mapName,
        printTree tree (some sourceName) mapName frames =
          .ok ⟨text, some (SourceMap.mk sourceName (some text) mapName text.ownMappings).toJson⟩ ∧
        Mapping.decode (Text.ofString (Mapping.encode text.ownMappings)) =
          .ok text.ownMappings) ∧
    (frames < Printer.frames tree → ∀ sourceName mapName,
      printTree tree sourceName mapName frames = .error (.fault .stackExhausted)) := by
  refine ⟨fun fits => ?_, fun exceeds sourceName mapName => printTree_of_lt exceeds⟩
  obtain ⟨statements, rfl, asRead⟩ := parseScript_asRead parsed
  constructor
  · exact fun mapName => (printTree_of_le fits).trans (layOut_program asRead mapName)
  · intro sourceName mapName
    have recorded : (⟨text, name, .script⟩ : Source).role = .script := rfl
    obtain ⟨page, turns, isText, areMappings⟩ := Printer.copy_turns_recording recorded
    have laidOut := Printer.layOut_of_turns rfl (some sourceName) mapName
      (Printer.emit_program asRead.isClean turns)
    rw [isText, areMappings] at laidOut
    exact ⟨(printTree_of_le fits).trans laidOut, text.decode_ownMappings⟩

/-- Two calls with an empty line and an indentation between them. -/
def twoCalls : Text :=
  Text.ofString "f(x);\n\n  g();"

private theorem twoCalls_ownMappings : twoCalls.ownMappings = [⟨0, 0, 0, 0⟩, ⟨2, 2, 2, 2⟩] := by
  decide +kernel

theorem twoCalls_reprinted :
    ∃ tree, parseScript ⟨twoCalls, none, .script⟩ = .ok tree ∧
      Printer.frames tree ≤ Stack.limit ∧
      printTree tree none none = .ok ⟨twoCalls, none⟩ ∧
      Mapping.decode (Text.ofString (Mapping.encode twoCalls.ownMappings)) =
        .ok [⟨0, 0, 0, 0⟩, ⟨2, 2, 2, 2⟩] := by
  have reads : (parseScript ⟨twoCalls, none, .script⟩).toOption.any
      (fun tree => Printer.frames tree ≤ Stack.limit) = true := by decide +kernel
  cases parsed : parseScript ⟨twoCalls, none, .script⟩ with
  | error failure =>
      rw [parsed] at reads
      cases reads
  | ok tree =>
      rw [parsed] at reads
      have fits : Printer.frames tree ≤ Stack.limit := of_decide_eq_true reads
      have printed := (printTree_parseScript parsed Stack.limit).1 fits
      have decoded := (printed.2 twoCalls none).2
      rw [twoCalls_ownMappings] at decoded ⊢
      exact ⟨tree, rfl, fits, printed.1 none, decoded⟩

/-- The name `a` as the tag of an empty template, that as the tag of another one and so on. -/
def tagsText : (templates : Nat) → Text
  | 0 => Text.ofString "a"
  | templates + 1 => tagsText templates ++ Text.ofString "``"

/-- Templates are read in a loop, and can be more than the stack allows to be printed. -/
theorem longTags_not_reprinted :
    ∃ tree, parseScript ⟨tagsText 350, none, .script⟩ = .ok tree ∧
      printTree tree none none = .error (.fault .stackExhausted) := by
  have reads : (parseScript ⟨tagsText 350, none, .script⟩).toOption.any
      (fun tree => Stack.limit < Printer.frames tree) = true := by decide +kernel
  cases parsed : parseScript ⟨tagsText 350, none, .script⟩ with
  | error failure =>
      rw [parsed] at reads
      cases reads
  | ok tree =>
      rw [parsed] at reads
      exact ⟨tree, rfl, printTree_of_lt (of_decide_eq_true reads)⟩

end ScriptFold

/-!
## When the printed text reads as the tree

A tree is printed faithfully if its text reads as the same tree again.  A tree that has
just been read is printed faithfully.  A folded tree need not be: a shorthand property
and its target start with the same name in the source, and once the default is folded
both print it.
-/

namespace ScriptFold

namespace Node

/-- How a numeral without a sign is read. -/
def readUnsigned (text : Text) : Node :=
  if text.isOneOf ["NaN", "Infinity"] then .made .ident [.word .name text]
  else .made .literal [.word .number text]

def readNumeral : Text → Node
  | .char '-' :: text => .made .unary [.word .op "-", readUnsigned text]
  | text => readUnsigned text

mutual

/-- A node without places and parentheses, in which numerals stand as they are read. -/
def bare : Node → Node
  | .absent => .absent
  | .leaf token => .leaf { token with place := none }
  | .tree .paren _ _ (⟨_, inner⟩ :: _) => bare inner
  | .tree .literal _ _ [⟨_, .leaf ⟨.number, text, _⟩⟩] => readNumeral text
  | .tree kind flags _ children => .tree kind flags none (bareAll children)

/-- Children without places and parentheses. -/
def bareAll : List (Child Node) → List (Child Node)
  | [] => []
  | ⟨_, node⟩ :: rest => ⟨none, bare node⟩ :: bareAll rest

end

end Node

/-- The text of a tree is read, under a name, as the same tree up to places, parentheses and
the reading of numerals. -/
def PrintsFaithfully (name : Option Text) (tree : Node) : Prop :=
  ∃ printed reread,
    printTree tree none none = .ok printed ∧
    parseScript ⟨printed.code, name, .script⟩ = .ok reread ∧
    reread.bare = tree.bare

def EvaluatesTo (host : Host) (bindings : Bindings) (depthLimit : Int) (text : Text)
    (name : Option Text) (tree : Node) : Prop :=
  ∃ diagnostics,
    (Evaluate.tree host bindings depthLimit ⟨text, name, .script⟩).run.run [] =
      (.ok tree, diagnostics)

theorem evaluatesTo_of_toOption {host : Host} {bindings : Bindings} {depthLimit : Int}
    {text : Text} {name : Option Text} {tree : Node}
    (found : ((Evaluate.tree host bindings depthLimit ⟨text, name, .script⟩).run.run []).1.toOption =
      some tree) :
    EvaluatesTo host bindings depthLimit text name tree :=
  ⟨_, Prod.ext (Calculation.eq_ok_of_toOption found) rfl⟩

/-- A tree that has just been read is printed faithfully, if the stack has the frames for it. -/
theorem printsFaithfully_of_parsed {text : Text} {name : Option Text} {tree : Node}
    (parsed : parseScript ⟨text, name, .script⟩ = .ok tree)
    (fits : Printer.frames tree ≤ Stack.limit) : PrintsFaithfully name tree := by
  obtain ⟨statements, rfl, asRead⟩ := parseScript_asRead parsed
  exact ⟨_, _, (printTree_of_le fits).trans (layOut_program asRead none), parsed, rfl⟩

namespace Printer

/-- The target of a shorthand property with a default, as it is read except for what the
default is now. -/
def shorthandTarget (source : Source) (name : Leaf) (nameSpan span : Span) (valueStart : Nat)
    (value : Child Node) : Node :=
  let former := [
    FormerChild.present (some nameSpan.start) (some nameSpan.stop),
    FormerChild.present (some valueStart) (some span.stop)]
  .tree .assignPattern {} (some ⟨source, span, former⟩)
    [⟨some 0, .read .binding {} source nameSpan [.leaf name]⟩, value]

/-- A shorthand property with a default, as it is read except for what the default is now. -/
def shorthandProperty (source : Source) (name : Leaf) (nameSpan span : Span) (valueStart : Nat)
    (value : Child Node) : Node :=
  let former := [
    FormerChild.present (some nameSpan.start) (some nameSpan.stop),
    FormerChild.present (some span.start) (some span.stop)]
  .tree .patternProperty { shorthand := true } (some ⟨source, span, former⟩)
    [⟨some 0, .leaf name⟩,
      ⟨some 1, shorthandTarget source name nameSpan span valueStart value⟩]

theorem copy_turns_empty (source : Source) {start stop : Nat} (empty : stop ≤ start)
    (page : Page) : Turns none (copy source start stop) page page := by
  have turns := copy_turns_write source start stop page
  rwa [slice_empty source.text empty] at turns

/-- A node that is not clean is printed anew, in parentheses if its position asks for them. -/
theorem emit_of_not_isClean {kind : Kind} {flags : Flags} {place : Place}
    {children : List (Child Node)}
    (notClean : (Node.tree kind flags (some place) children).isClean = false)
    {parent : Node} {index : Option Nat} {least : Nat} {parens : Bool}
    (needs : Precedence.needsParens (.tree kind flags (some place) children) parent index least =
      .ok parens) :
    (emitter (.tree kind flags (some place) children)).emit parent index least =
      enclose parens (renew (.tree kind flags (some place) children) kind flags (some place)
        (partsOf children)) := by
  rw [emitter]
  simp only [notClean, needs]
  rfl

section Patching

variable {node : Node} {source : Source} {stop position index start finish : Nat}
  {former : FormerChild} {formers : List FormerChild} {part : Part} {parts : List Part}
  {page after : Page}

/-- A node whose children stand as before is patched. -/
theorem renew_turns {kind : Kind} {flags : Flags} {place : Place}
    (noList : listHead? kind = none) (notUnary : kind ≠ .unary)
    (isSame : sameShape place.former node.seated = true)
    (patched : Turns none
      (patchParts node place.source place.span.stop place.span.start 0 place.former parts) page
      after) :
    Turns none (renew node kind flags (some place) parts) page after := by
  unfold renew
  refine .andThen rfl ?_
  simp only [noList]
  rw [isSame, if_pos (by simp [notUnary])]
  exact patched

/-- A child in its seat is copied from the source. -/
theorem patchParts_kept (isSpan : formerSpan? former = some (start, finish))
    (isKept : (part.seat == some index && part.node.isClean) = true)
    (rest : Turns none (patchParts node source stop finish (index + 1) formers parts)
      ((page.write (source.text.slice position start)).write
        (source.text.slice start finish)) after) :
    Turns none (patchParts node source stop position index (former :: formers) (part :: parts))
      page after := by
  rw [patchParts, isSpan]
  simp only [isKept]
  exact .andThen (copy_turns_write source position start page)
    (.andThen (copy_turns_write source start finish _) rest)

/-- A child that is new is printed in the place of the former one. -/
theorem patchParts_printed {middle : Page} {least : Nat}
    (isSpan : formerSpan? former = some (start, finish))
    (isNew : (part.seat == some index && part.node.isClean) = false)
    (isLeast : Precedence.ofSlot node index = .ok least)
    (printed : Turns none (part.emit node index least)
      (page.write (source.text.slice position start)) middle)
    (rest : Turns none (patchParts node source stop finish (index + 1) formers parts) middle
      after) :
    Turns none (patchParts node source stop position index (former :: formers) (part :: parts))
      page after := by
  rw [patchParts, isSpan]
  refine .andThen (copy_turns_write source position start page) ?_
  rw [isNew, isLeast]
  show Turns none
    (part.emit node index least >>= fun _ =>
      patchParts node source stop finish (index + 1) formers parts) _ after
  exact .andThen printed rest

end Patching

section Shorthand

variable {source : Source} {name : Leaf} {nameSpan span : Span} {valueStart : Nat}
  {value : Child Node} {page : Page}

theorem areClean_present (index : Nat) (start stop : Option Nat) (formers : List FormerChild)
    (child : Child Node) (children : List (Child Node)) :
    Node.areClean index (.present start stop :: formers) (child :: children) =
      (child.seat == some index && child.node.isClean &&
        Node.areClean (index + 1) formers children) := by
  obtain ⟨seat, node⟩ := child
  cases node <;> rfl

theorem shorthandTarget_isClean :
    (shorthandTarget source name nameSpan span valueStart value).isClean =
      (value.seat == some 1 && value.node.isClean) := by
  have bindingClean : (Node.read .binding {} source nameSpan [.leaf name]).isClean = true := rfl
  rw [shorthandTarget, Node.isClean, areClean_present, areClean_present, bindingClean]
  exact Bool.and_true _

theorem sameShape_present (isThere : value.node.isAbsent = false) (child : Child Node)
    (alsoThere : child.node.isAbsent = false) (start stop valueStart valueStop : Nat) :
    sameShape [.present (some start) (some stop), .present (some valueStart) (some valueStop)]
      [child, value] = true := by
  simp [sameShape, isThere, alsoThere, formerSpan?]

/-- The target of a shorthand property prints its name, the text up to the default, and the
default. -/
theorem emit_shorthandTarget {parent : Node} {index : Option Nat} {after : Page}
    (inProperty : parent.kind? = some .patternProperty)
    (sameStart : span.start = nameSpan.start)
    (isThere : value.node.isAbsent = false)
    (isNew : (value.seat == some 1 && value.node.isClean) = false)
    (printed : Turns none
      ((emitter value.node).emit (shorthandTarget source name nameSpan span valueStart value)
        (some 1) Precedence.assign)
      ((page.write (source.text.slice nameSpan.start nameSpan.stop)).write
        (source.text.slice nameSpan.stop valueStart)) after) :
    Turns none
      ((emitter (shorthandTarget source name nameSpan span valueStart value)).emit parent index 0)
      page after := by
  have notClean : (shorthandTarget source name nameSpan span valueStart value).isClean = false := by
    rw [shorthandTarget_isClean, isNew]
  have needs : Precedence.needsParens (shorthandTarget source name nameSpan span valueStart value)
      parent index 0 = .ok false := by
    unfold Precedence.needsParens
    simp only [inProperty]
    rfl
  have lead : page.write (source.text.slice span.start nameSpan.start) = page := by
    rw [slice_empty _ (Nat.le_of_eq sameStart.symm)]
    rfl
  rw [shorthandTarget, emit_of_not_isClean notClean needs]
  refine .andThen (renew_turns rfl nofun (sameShape_present isThere _ rfl _ _ _ _) ?_) rfl
  refine patchParts_kept rfl rfl ?_
  rw [lead]
  exact patchParts_printed rfl isNew rfl printed (copy_turns_empty source (Nat.le_refl _) after)

theorem shorthandProperty_needsParens {parent : Node} {index : Option Nat} {least : Nat}
    (inPattern : parent.kind? = some .objectPattern) (loose : least ≤ Precedence.primary) :
    Precedence.needsParens (shorthandProperty source name nameSpan span valueStart value) parent
      index least = .ok false := by
  have own : Precedence.ofNode (shorthandProperty source name nameSpan span valueStart value) =
      .ok Precedence.primary := rfl
  unfold Precedence.needsParens
  simp only [own, inPattern, Calculation.ok_bind, if_neg (Nat.not_lt_of_le loose)]
  rfl

private theorem shorthandProperty_isClean :
    (shorthandProperty source name nameSpan span valueStart value).isClean =
      (value.seat == some 1 && value.node.isClean) := by
  rw [shorthandProperty, Node.isClean, areClean_present, areClean_present,
    shorthandTarget_isClean]
  exact Bool.and_true _

/-- A shorthand property with a default prints its name once if the default is as it was
read.  Otherwise it prints the name twice, for the property and for its target. -/
theorem shorthandProperty_turns {parent : Node} {index : Option Nat} {least : Nat}
    (inPattern : parent.kind? = some .objectPattern) (loose : least ≤ Precedence.primary)
    (sameStart : span.start = nameSpan.start) (forward : nameSpan.start ≤ nameSpan.stop)
    (isThere : value.node.isAbsent = false) :
    ((value.seat == some 1 && value.node.isClean) = true →
      Turns none
        ((emitter (shorthandProperty source name nameSpan span valueStart value)).emit parent
          index least)
        page (page.write (source.text.slice span.start span.stop))) ∧
    ((value.seat == some 1 && value.node.isClean) = false →
      ∀ after,
        Turns none
          ((emitter value.node).emit (shorthandTarget source name nameSpan span valueStart value)
            (some 1) Precedence.assign)
          (((page.write (source.text.slice nameSpan.start nameSpan.stop)).write
            (source.text.slice nameSpan.start nameSpan.stop)).write
            (source.text.slice nameSpan.stop valueStart)) after →
        Turns none
          ((emitter (shorthandProperty source name nameSpan span valueStart value)).emit parent
            index least)
          page after) := by
  have isClean : (shorthandProperty source name nameSpan span valueStart value).isClean = _ :=
    shorthandProperty_isClean
  have needs : Precedence.needsParens
      (shorthandProperty source name nameSpan span valueStart value) parent index least = _ :=
    shorthandProperty_needsParens inPattern loose
  constructor
  · intro isKept
    rw [shorthandProperty, emit_of_isClean (isClean.trans isKept) needs]
    exact .andThen (copy_turns_write source span.start span.stop page) rfl
  · intro isNew after printed
    have targetNew : (shorthandTarget source name nameSpan span valueStart value).isClean = _ :=
      shorthandTarget_isClean.trans isNew
    have lead : source.text.slice span.start nameSpan.start = [] :=
      slice_empty _ (Nat.le_of_eq sameStart.symm)
    -- The target starts where the name does, so no text stands between the two.
    have gap : source.text.slice nameSpan.stop span.start = [] :=
      slice_empty _ (sameStart ▸ forward)
    rw [shorthandProperty, emit_of_not_isClean (isClean.trans isNew) needs]
    refine .andThen (renew_turns rfl nofun (sameShape_present rfl _ rfl _ _ _ _) ?_) rfl
    refine patchParts_kept rfl rfl ?_
    refine patchParts_printed rfl targetNew rfl ?_ (copy_turns_empty source (Nat.le_refl _) after)
    simp only [lead, gap]
    exact emit_shorthandTarget rfl sameStart isThere isNew printed

end Shorthand

/-- A declaration whose shorthand property has a default that folds. -/
def foldedDefault : Text :=
  Text.ofString "let \x7ba = 1 + 2\x7d = x;"

/-- What its default folds to. -/
def three : Node :=
  .made .literal [.word .number [.char '3']]

private theorem three_turns {parent : Node} (inTarget : parent.kind? = some .assignPattern)
    (page : Page) :
    Turns none ((emitter three).emit parent (some 1) Precedence.assign) page
      (page.write [.char '3']) := by
  have needs : Precedence.needsParens three parent (some 1) Precedence.assign = .ok false := by
    unfold Precedence.needsParens
    simp only [inTarget]
    rfl
  rw [three, Node.made] at needs ⊢
  rw [emitter]
  simp only [needs]
  rfl

theorem foldedShorthand_named_twice :
    ∃ page,
      Turns none
        ((emitter (shorthandProperty ⟨foldedDefault, none, .script⟩ ⟨.name, [.char 'a'], none⟩
          ⟨5, 6, 1, 6, 1, 7⟩ ⟨5, 14, 1, 6, 1, 15⟩ 9 ⟨none, three⟩)).emit
          (.made .objectPattern []) (some 0) 0)
        {} page ∧
      page.text = Text.ofString "a a = 3" := by
  have turns := (@shorthandProperty_turns ⟨foldedDefault, none, .script⟩
    ⟨.name, [.char 'a'], none⟩ ⟨5, 6, 1, 6, 1, 7⟩ ⟨5, 14, 1, 6, 1, 15⟩ 9 ⟨none, three⟩ {}
    (.made .objectPattern []) (some 0) 0 rfl (Nat.zero_le _) rfl (by decide) rfl).2 rfl _
    (three_turns rfl _)
  refine ⟨_, turns, ?_⟩
  decide +kernel

def foldedDefaultPrinted : Text :=
  Text.ofString "let \x7ba a = 3\x7d = x;"

private theorem foldedDefault_evaluates :
    ((Evaluate.tree Host.none {} 100 ⟨foldedDefault, none, .script⟩).run.run []).1.toOption.map
      (fun tree => (printTree tree none none).toOption.map Printed.code) =
    some (some foldedDefaultPrinted) := by
  decide +kernel

private theorem foldedDefaultPrinted_refused :
    (parseScript ⟨foldedDefaultPrinted, none, .script⟩).toOption.isNone := by
  decide +kernel

/-- A script can evaluate to a tree that is not printed faithfully. -/
theorem foldedDefault_not_faithful :
    ∃ tree, EvaluatesTo Host.none {} 100 foldedDefault none tree ∧
      ¬ PrintsFaithfully none tree := by
  obtain ⟨tree, isTree, isCode⟩ := Option.map_eq_some_iff.mp foldedDefault_evaluates
  obtain ⟨printed, isPrinted, isText⟩ := Option.map_eq_some_iff.mp isCode
  refine ⟨tree, evaluatesTo_of_toOption isTree, ?_⟩
  rintro ⟨other, reread, isOther, isReread, _⟩
  rw [Calculation.eq_ok_of_toOption isPrinted] at isOther
  cases isOther
  have refused := foldedDefaultPrinted_refused
  rw [← isText, isReread] at refused
  cases refused

end Printer

end ScriptFold
