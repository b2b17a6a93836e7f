import ScriptFold.Proofs.Printer.Faithfulness
import ScriptFold.Proofs.Printer.Locality
import ScriptFold.Proofs.Shape.WellFormed
import ScriptFold.Proofs.Spanning.Statement

/-!
# Patching is local

A node of which some children are new is printed from pieces: the source text between the
children that it was read with, the source text of a child that is still the same, and what a new
child is shown as in its place.  Nothing else is written but blanks between pieces that would be
read as one token.

The same holds of a list of statements, unless two new ones follow each other: between those a new
line is begun.
-/

namespace ScriptFold

namespace Text

/-- Stretches that follow each other. -/
theorem slice_append (text : Text) {start middle stop : Nat} (first : start ≤ middle)
    (second : middle ≤ stop) :
    text.slice start middle ++ text.slice middle stop = text.slice start stop := by
  have further : stop - start = (middle - start) + (stop - middle) := by omega
  rw [slice, slice, slice, further, List.take_add, List.drop_drop, Nat.add_sub_cancel' first]

end Text

namespace Printer

/-- Children of which some are replaced: one that is there by another one that is there too, and
that is not just what was read in its seat. -/
inductive Replaces : (index : Nat) → (originals children : List (Child Node)) → Prop
  | nil {index : Nat} : Replaces index [] []
  | kept {index : Nat} {child : Child Node} {originals children : List (Child Node)}
      (later : Replaces (index + 1) originals children) :
      Replaces index (child :: originals) (child :: children)
  | replaced {index : Nat} {original child : Child Node} {originals children : List (Child Node)}
      (wasThere : original.node ≠ .absent) (isThere : child.node ≠ .absent)
      (isNew : child.seat = some index → child.node.isClean = false)
      (later : Replaces (index + 1) originals children) :
      Replaces index (original :: originals) (child :: children)

/-- The pieces that a patched node is printed from, behind other text.  The text between the
original children is taken from the source, and so is the text of a child that is the same. -/
inductive Pieces (node : Node) (source : Source) (stop : Nat) :
    (position index : Nat) → (originals children : List (Child Node)) → (lead : Text) →
      List Text → Prop
  | done {position index : Nat} {lead : Text} :
      Pieces node source stop position index [] [] lead [source.text.slice position stop]
  | absent {position index : Nat} {original child : Child Node}
      {originals children : List (Child Node)} {lead : Text} {pieces : List Text}
      (notThere : original.node = .absent)
      (later : Pieces node source stop position (index + 1) originals children lead pieces) :
      Pieces node source stop position index (original :: originals) (child :: children) lead
        pieces
  | same {position index start finish : Nat} {child : Child Node}
      {originals children : List (Child Node)} {lead : Text} {pieces : List Text}
      (stood : child.node.extent = (some start, some finish))
      (later : Pieces node source stop finish (index + 1) originals children
        ((lead.beside (source.text.slice position start)).beside
          (source.text.slice start finish)) pieces) :
      Pieces node source stop position index (child :: originals) (child :: children) lead
        (source.text.slice position start :: source.text.slice start finish :: pieces)
  | new {position index start finish least : Nat} {original child : Child Node}
      {originals children : List (Child Node)} {lead shown : Text} {pieces : List Text}
      (stood : original.node.extent = (some start, some finish)) (isOther : child ≠ original)
      (isLeast : Precedence.ofSlot node index = .ok least)
      (isShown : Shown child.node node (some index) least
        (lead.beside (source.text.slice position start)) shown)
      (later : Pieces node source stop finish (index + 1) originals children
        ((lead.beside (source.text.slice position start)).beside shown) pieces) :
      Pieces node source stop position index (original :: originals) (child :: children) lead
        (source.text.slice position start :: shown :: pieces)

section Patching

variable {node : Node} {source : Source} {stop : Nat} {starts : Option (List Nat)} {page : Page}
  {text : Text}

theorem copy_reaches_iff {start : Nat} : Reaches starts (copy source start stop) page text ↔
    text = page.text.beside (source.text.slice start stop) := by
  obtain ⟨after, turns, same⟩ := copy_forget source starts start stop page
  have isAfter : after.text = page.text.beside (source.text.slice start stop) := by
    have sameText := congrArg Page.text same
    rw [Page.text_write_beside] at sameText
    exact sameText
  constructor
  · rintro ⟨other, otherTurns, rfl⟩
    rw [Turns] at turns otherTurns
    rw [turns] at otherTurns
    cases otherTurns
    exact isAfter
  · rintro rfl
    exact ⟨after, turns, isAfter⟩

/-- What comes after a stretch that is copied starts behind it. -/
theorem copy_bind_reaches_iff {start : Nat} {second : Unit → Print Unit} (next : Text → Prop)
    (ends : ∀ middle, Reaches starts (second ()) middle text ↔ next middle.text) :
    Reaches starts (copy source start stop >>= second) page text ↔
      next (page.text.beside (source.text.slice start stop)) := by
  rw [reaches_bind_iff]
  constructor
  · rintro ⟨middle, turns, reaches⟩
    rw [← copy_reaches_iff.mp ⟨middle, turns, rfl⟩]
    exact (ends middle).mp reaches
  · intro goesOn
    obtain ⟨middle, turns, isMiddle⟩ := copy_reaches_iff.mpr rfl
    rw [← isMiddle] at goesOn
    exact ⟨middle, turns, (ends middle).mpr goesOn⟩

/-- A mapping that is recorded leaves the text. -/
theorem record_bind_reaches_iff {offset : Nat} {second : Unit → Print Unit} (next : Text → Prop)
    (ends : ∀ middle, Reaches starts (second ()) middle text ↔ next middle.text) :
    Reaches starts (record source offset >>= second) page text ↔ next page.text := by
  obtain ⟨recorded, turns, same⟩ := record_forget source starts offset page
  have sameText : recorded.text = page.text := by
    have texts := congrArg Page.text same
    exact texts
  rw [reaches_bind_iff, ← sameText, ← ends]
  constructor
  · rintro ⟨middle, otherTurns, reaches⟩
    rw [Turns] at turns otherTurns
    rw [turns] at otherTurns
    cases otherTurns
    exact reaches
  · intro reaches
    exact ⟨recorded, turns, reaches⟩

/-- What comes after a node starts behind what the node is shown as. -/
theorem emit_bind_reaches_iff {child parent : Node} {index : Option Nat} {least : Nat}
    {second : Unit → Print Unit} (next : Text → Prop)
    (ends : ∀ middle, Reaches starts (second ()) middle text ↔ next middle.text) :
    Reaches starts ((emitter child).emit parent index least >>= second) page text ↔
      ∃ shown, Shown child parent index least page.text shown ∧ next (page.text.beside shown) := by
  rw [reaches_bind_iff]
  constructor
  · rintro ⟨middle, turns, reaches⟩
    obtain ⟨shown, isShown, isMiddle⟩ := emit_shows_iff.mp ⟨middle, turns, rfl⟩
    refine ⟨shown, isShown, ?_⟩
    rw [← isMiddle]
    exact (ends middle).mp reaches
  · rintro ⟨shown, isShown, goesOn⟩
    obtain ⟨middle, turns, isMiddle⟩ := emit_shows_iff.mpr ⟨shown, isShown, rfl⟩
    rw [← isMiddle] at goesOn
    exact ⟨middle, turns, (ends middle).mpr goesOn⟩

theorem reaches_calculate_iff {α : Type} {result : Except Fault α} {next : α → Print Unit} :
    Reaches starts (calculate result >>= next) page text ↔
      ∃ value, result = .ok value ∧ Reaches starts (next value) page text := by
  cases result with
  | error fault =>
      constructor
      · rintro ⟨after, turns, _⟩
        cases turns
      · rintro ⟨value, isValue, _⟩
        cases isValue
  | ok value =>
      show Reaches starts (next value) page text ↔ _
      constructor
      · intro reaches
        exact ⟨value, rfl, reaches⟩
      · rintro ⟨other, isValue, reaches⟩
        cases isValue
        exact reaches

variable {position index start finish : Nat} {formers : List FormerChild} {part : Part}
  {parts : List Part}

theorem patchParts_absent :
    patchParts node source stop position index (.absent :: formers) (part :: parts) =
      patchParts node source stop position (index + 1) formers parts := by
  rw [patchParts]
  rfl

theorem patchParts_same (isSame : (part.seat == some index && part.node.isClean) = true) :
    patchParts node source stop position index
        (.present (some start) (some finish) :: formers) (part :: parts) =
      (copy source position start >>= fun _ => copy source start finish >>= fun _ =>
        patchParts node source stop finish (index + 1) formers parts) := by
  rw [patchParts]
  simp only [formerSpan?, isSame]
  rfl

theorem patchParts_new (isNew : (part.seat == some index && part.node.isClean) = false) :
    patchParts node source stop position index
        (.present (some start) (some finish) :: formers) (part :: parts) =
      (copy source position start >>= fun _ => calculate (Precedence.ofSlot node index) >>=
        fun least => part.emit node index least >>= fun _ =>
          patchParts node source stop finish (index + 1) formers parts) := by
  rw [patchParts]
  simp only [formerSpan?, isNew]
  rfl

/-- What a node is patched to from a child on, behind other text. -/
def PatchesTo (node : Node) (source : Source) (stop position index : Nat)
    (originals children : List (Child Node)) (lead text : Text) : Prop :=
  ∃ pieces, Pieces node source stop position index originals children lead pieces ∧
    text = pieces.foldl Text.beside lead

variable {lead : Text} {original child : Child Node} {originals children : List (Child Node)}

theorem patchesTo_nil_iff : PatchesTo node source stop position index [] [] lead text ↔
    text = lead.beside (source.text.slice position stop) := by
  constructor
  · rintro ⟨_, pieces, rfl⟩
    cases pieces
    rfl
  · rintro rfl
    exact ⟨_, .done, rfl⟩

theorem patchesTo_absent_iff (notThere : original.node = .absent) :
    PatchesTo node source stop position index (original :: originals) (child :: children) lead
        text ↔
      PatchesTo node source stop position (index + 1) originals children lead text := by
  have noExtent : original.node.extent = (none, none) := by
    rw [notThere]
    rfl
  constructor
  · rintro ⟨_, pieces, rfl⟩
    cases pieces with
    | absent _ later => exact ⟨_, later, rfl⟩
    | same stood | new stood =>
        rw [noExtent] at stood
        cases stood
  · rintro ⟨pieces, later, isText⟩
    exact ⟨pieces, .absent notThere later, isText⟩

theorem patchesTo_same_iff (stood : child.node.extent = (some start, some finish)) :
    PatchesTo node source stop position index (child :: originals) (child :: children) lead
        text ↔
      PatchesTo node source stop finish (index + 1) originals children
        ((lead.beside (source.text.slice position start)).beside
          (source.text.slice start finish)) text := by
  constructor
  · rintro ⟨_, pieces, rfl⟩
    cases pieces with
    | absent notThere =>
        rw [notThere] at stood
        cases stood
    | same stoodThere later =>
        rw [stood] at stoodThere
        cases stoodThere
        exact ⟨_, later, rfl⟩
    | new _ isOther => exact absurd rfl isOther
  · rintro ⟨pieces, later, isText⟩
    exact ⟨_, .same stood later, isText⟩

theorem patchesTo_new_iff (stood : original.node.extent = (some start, some finish))
    (isOther : child ≠ original) :
    PatchesTo node source stop position index (original :: originals) (child :: children) lead
        text ↔
      ∃ least, Precedence.ofSlot node index = .ok least ∧ ∃ shown,
        Shown child.node node (some index) least
          (lead.beside (source.text.slice position start)) shown ∧
        PatchesTo node source stop finish (index + 1) originals children
          ((lead.beside (source.text.slice position start)).beside shown) text := by
  constructor
  · rintro ⟨_, pieces, rfl⟩
    cases pieces with
    | absent notThere =>
        rw [notThere] at stood
        cases stood
    | same => exact absurd rfl isOther
    | new stoodThere _ isLeast isShown later =>
        rw [stood] at stoodThere
        cases stoodThere
        exact ⟨_, isLeast, _, isShown, _, later, rfl⟩
  · rintro ⟨least, isLeast, shown, isShown, pieces, later, isText⟩
    exact ⟨_, .new stood isOther isLeast isShown later, isText⟩

/-- Where any precedence will do, a new child is shown without regard to its own. -/
theorem patchesTo_loose_iff (isLoose : Precedence.ofSlot node index = .ok 0)
    (stood : original.node.extent = (some start, some finish)) (isOther : child ≠ original) :
    PatchesTo node source stop position index (original :: originals) (child :: children) lead
        text ↔
      ∃ shown, Shown child.node node (some index) 0
          (lead.beside (source.text.slice position start)) shown ∧
        PatchesTo node source stop finish (index + 1) originals children
          ((lead.beside (source.text.slice position start)).beside shown) text := by
  rw [patchesTo_new_iff stood isOther]
  constructor
  · rintro ⟨least, isLeast, shows⟩
    rw [isLoose] at isLeast
    cases isLeast
    exact shows
  · intro shows
    exact ⟨0, isLoose, shows⟩

theorem not_same_of_isNew (isNew : child.seat = some index → child.node.isClean = false) :
    (child.seat == some index && child.node.isClean) = false := by
  by_cases inSeat : child.seat = some index
  · rw [isNew inSeat, Bool.and_false]
  · rw [beq_false_of_ne inSeat, Bool.false_and]

/-- A patched node is printed from its pieces. -/
theorem patchParts_reaches_iff {nodes : List Node}
    (replaces : Replaces index (Node.seatFrom index nodes) children)
    (clean : ∀ node, node ∈ nodes → node.isClean = true)
    (spans : ∀ node, node ∈ nodes → node ≠ .absent →
      ∃ start finish, node.extent = (some start, some finish)) :
    Reaches starts (patchParts node source stop position index (nodes.map Node.toFormer)
        (partsOf children)) page text ↔
      PatchesTo node source stop position index (Node.seatFrom index nodes) children page.text
        text := by
  induction nodes generalizing index children position page with
  | nil =>
      cases replaces
      rw [Node.seatFrom, patchesTo_nil_iff, ← copy_reaches_iff]
      rfl
  | cons first rest induction =>
      have cleanRest : ∀ node, node ∈ rest → node.isClean = true :=
        fun node there => clean node (.tail _ there)
      have spansRest : ∀ node, node ∈ rest → node ≠ .absent →
          ∃ start finish, node.extent = (some start, some finish) :=
        fun node there => spans node (.tail _ there)
      rw [Node.seatFrom] at replaces ⊢
      rw [List.map_cons]
      cases replaces with
      | @kept _ _ _ children later =>
          by_cases notThere : first = .absent
          · subst notThere
            rw [patchesTo_absent_iff rfl, ← induction later cleanRest spansRest, partsOf]
            exact iff_of_eq (congrArg (Reaches starts · page text) patchParts_absent)
          · obtain ⟨start, finish, stood⟩ := spans first List.mem_cons_self notThere
            have isSame : ((some index : Option Nat) == some index && first.isClean) = true := by
              rw [clean first List.mem_cons_self, beq_self_eq_true]
              rfl
            rw [patchesTo_same_iff stood, Node.toFormer_of_ne notThere, stood, partsOf,
              patchParts_same isSame]
            apply copy_bind_reaches_iff fun lead =>
              PatchesTo node source stop finish (index + 1) (Node.seatFrom (index + 1) rest)
                children (lead.beside (source.text.slice start finish)) text
            intro middle
            apply copy_bind_reaches_iff fun lead =>
              PatchesTo node source stop finish (index + 1) (Node.seatFrom (index + 1) rest)
                children lead text
            exact fun _ => induction later cleanRest spansRest
      | @replaced _ _ child _ children wasThere isThere isNew later =>
          obtain ⟨start, finish, stood⟩ := spans first List.mem_cons_self wasThere
          obtain ⟨seat, other⟩ := child
          have isOther : (⟨seat, other⟩ : Child Node) ≠ ⟨some index, first⟩ := by
            intro same
            cases same
            rw [clean first List.mem_cons_self] at isNew
            cases isNew rfl
          have notSame : (seat == some index && other.isClean) = false := not_same_of_isNew isNew
          rw [patchesTo_new_iff stood isOther, Node.toFormer_of_ne wasThere, stood, partsOf,
            patchParts_new notSame]
          apply copy_bind_reaches_iff fun lead =>
            ∃ least, Precedence.ofSlot node index = .ok least ∧ ∃ shown,
              Shown other node (some index) least lead shown ∧
              PatchesTo node source stop finish (index + 1) (Node.seatFrom (index + 1) rest)
                children (lead.beside shown) text
          intro middle
          rw [reaches_calculate_iff]
          refine exists_congr fun least => and_congr_right fun _ => ?_
          apply emit_bind_reaches_iff fun lead =>
            PatchesTo node source stop finish (index + 1) (Node.seatFrom (index + 1) rest)
              children lead text
          exact fun _ => induction later cleanRest spansRest

/-- The pieces of children that are all the same make up the stretch that they were read in. -/
theorem flatten_of_same {nodes : List Node} {pieces : List Text}
    (laid : Laid stop position (nodes.map Node.toFormer))
    (same : Pieces node source stop position index (Node.seatFrom index nodes)
      (Node.seatFrom index nodes) lead pieces) :
    pieces.flatten = source.text.slice position stop := by
  induction nodes generalizing index position lead pieces with
  | nil =>
      cases same
      exact List.append_nil _
  | cons first rest induction =>
      rw [List.map_cons] at laid
      rw [Node.seatFrom] at same
      cases same with
      | absent notThere later =>
          have absent : first = .absent := notThere
          subst absent
          cases laid with
          | absent laidLater => exact induction laidLater later
      | @same _ _ start finish _ _ _ _ pieces stood later =>
          have present : first ≠ .absent := by
            rintro rfl
            cases stood
          have stands : first.extent = (some start, some finish) := stood
          rw [Node.toFormer_of_ne present, stands] at laid
          cases laid with
          | present begins proper ends laidLater =>
              have onwards := induction laidLater later
              calc (source.text.slice position start :: source.text.slice start finish ::
                    pieces).flatten
                  = source.text.slice position start ++ (source.text.slice start finish ++
                      source.text.slice finish stop) := by rw [← onwards]; rfl
                _ = source.text.slice position start ++ source.text.slice start stop := by
                    rw [Text.slice_append _ (Nat.le_of_lt proper) ends]
                _ = source.text.slice position stop :=
                    Text.slice_append _ begins (Nat.le_trans (Nat.le_of_lt proper) ends)
      | new _ isOther => exact absurd rfl isOther

private theorem isAbsent_of_ne (present : node ≠ .absent) : node.isAbsent = false := by
  cases node with
  | absent => exact absurd rfl present
  | leaf | tree => rfl

/-- Where only children that are there are replaced, the text around the others can be kept. -/
theorem sameShape_of_replaces {nodes : List Node}
    (replaces : Replaces index (Node.seatFrom index nodes) children)
    (spans : ∀ node, node ∈ nodes → node ≠ .absent →
      ∃ start finish, node.extent = (some start, some finish)) :
    sameShape (nodes.map Node.toFormer) children = true := by
  induction nodes generalizing index children with
  | nil =>
      cases replaces
      rfl
  | cons first rest induction =>
      have spansRest : ∀ node, node ∈ rest → node ≠ .absent →
          ∃ start finish, node.extent = (some start, some finish) :=
        fun node there => spans node (.tail _ there)
      have takes : ∀ (child : Child Node) (children : List (Child Node)), first ≠ .absent →
          child.node ≠ .absent → Replaces (index + 1) (Node.seatFrom (index + 1) rest) children →
          sameShape ((first :: rest).map Node.toFormer) (child :: children) = true := by
        intro child children wasThere isThere later
        obtain ⟨start, finish, stood⟩ := spans first List.mem_cons_self wasThere
        rw [List.map_cons, Node.toFormer_of_ne wasThere, stood, sameShape,
          isAbsent_of_ne isThere, induction later spansRest]
        · rfl
        · simp
      rw [Node.seatFrom] at replaces
      cases replaces with
      | kept later =>
          by_cases notThere : first = .absent
          · rw [notThere, List.map_cons]
            exact induction later spansRest
          · exact takes _ _ notThere notThere later
      | replaced wasThere isThere _ later => exact takes _ _ wasThere isThere later

/-- A node with a child that is replaced is not clean. -/
theorem not_areClean_of_replaces {nodes : List Node}
    (replaces : Replaces index (Node.seatFrom index nodes) children)
    (changed : children ≠ Node.seatFrom index nodes) :
    Node.areClean index (nodes.map Node.toFormer) children = false := by
  induction nodes generalizing index children with
  | nil =>
      cases replaces
      exact absurd rfl changed
  | cons first rest induction =>
      rw [Node.seatFrom] at replaces changed
      cases replaces with
      | @kept _ _ _ others later =>
          have changedLater : others ≠ Node.seatFrom (index + 1) rest := by
            rintro rfl
            exact changed rfl
          have notClean := induction later changedLater
          by_cases notThere : first = .absent
          · rw [notThere, List.map_cons]
            exact notClean
          · rw [List.map_cons, Node.toFormer_of_ne notThere, areClean_present, notClean,
              Bool.and_false]
      | replaced wasThere _ isNew =>
          rw [List.map_cons, Node.toFormer_of_ne wasThere, areClean_present,
            not_same_of_isNew isNew, Bool.false_and]

/-- A node that is patched reaches what its pieces make up. -/
theorem renew_reaches_iff {kind : Kind} {flags : Flags} {place : Place} {nodes : List Node}
    (patches : kind ∉ [Kind.program, .block, .switchCase, .unary])
    (isFormer : place.former = nodes.map Node.toFormer)
    (replaces : Replaces 0 (Node.seatFrom 0 nodes) children)
    (clean : ∀ node, node ∈ nodes → node.isClean = true)
    (spans : ∀ node, node ∈ nodes → node ≠ .absent →
      ∃ start finish, node.extent = (some start, some finish)) :
    Reaches starts (renew (.tree kind flags (some place) children) kind flags (some place)
        (partsOf children)) page text ↔
      PatchesTo (.tree kind flags (some place) children) place.source place.span.stop
        place.span.start 0 (Node.seatFrom 0 nodes) children page.text text := by
  have noList : listHead? kind = none := by
    unfold listHead?
    split <;> simp_all
  have notUnary : kind ≠ .unary := by
    rintro rfl
    simp at patches
  have isShape : sameShape place.former (Node.tree kind flags (some place) children).seated =
      true := by
    rw [isFormer]
    exact sameShape_of_replaces replaces spans
  have patched : renew (.tree kind flags (some place) children) kind flags (some place)
      (partsOf children) = (record place.source place.span.start >>= fun _ =>
        patchParts (.tree kind flags (some place) children) place.source place.span.stop
          place.span.start 0 (nodes.map Node.toFormer) (partsOf children)) := by
    unfold renew
    simp only [noList, isShape, ← isFormer]
    rw [if_pos (by simp [notUnary])]
  rw [patched]
  apply record_bind_reaches_iff fun lead =>
    PatchesTo (.tree kind flags (some place) children) place.source place.span.stop
      place.span.start 0 (Node.seatFrom 0 nodes) children lead text
  exact fun _ => patchParts_reaches_iff replaces clean spans

/-- An `if` with an `else` whose first branch is new is printed with what the new branch is shown as
in the place of the former one, and nothing around it.  So the `else` goes to the new branch if
that is an `if` that has none. -/
theorem ifBranch_reaches_iff {flags : Flags} {place : Place} {test branch other : Node}
    {branchStart branchStop otherStart otherStop : Nat}
    (isFormer : place.former = [test, branch, other].map Node.toFormer)
    (clean : ∀ node, node ∈ [test, branch, other] → node.isClean = true)
    (testStood : test.extent = (some start, some finish))
    (branchStood : branch.extent = (some branchStart, some branchStop))
    (otherStood : other.extent = (some otherStart, some otherStop))
    (isThere : child.node ≠ .absent)
    (isNew : child.seat = some 1 → child.node.isClean = false) :
    let children := [⟨some 0, test⟩, child, ⟨some 2, other⟩]
    let node := Node.tree .ifStmt flags (some place) children
    let before := ((page.text.beside (place.source.text.slice place.span.start start)).beside
      (place.source.text.slice start finish)).beside (place.source.text.slice finish branchStart)
    Reaches starts (renew node .ifStmt flags (some place) (partsOf children)) page text ↔
      ∃ shown, Shown child.node node (some 1) 0 before shown ∧
        text = [place.source.text.slice branchStop otherStart,
          place.source.text.slice otherStart otherStop,
          place.source.text.slice otherStop place.span.stop].foldl Text.beside
            (before.beside shown) := by
  intro children node before
  have present : ∀ node : Node, ∀ start finish, node.extent = (some start, some finish) →
      node ≠ .absent := by
    rintro _ start finish stood rfl
    cases stood
  have isOther : child ≠ ⟨some 1, branch⟩ := by
    rintro rfl
    exact absurd (clean branch (by simp)) (by simp [isNew rfl])
  have replaces : Replaces 0 (Node.seatFrom 0 [test, branch, other]) children :=
    .kept (.replaced (present _ _ _ branchStood) isThere isNew (.kept .nil))
  have spans : ∀ node, node ∈ [test, branch, other] → node ≠ .absent →
      ∃ start finish, node.extent = (some start, some finish) := by
    intro node there _
    simp only [List.mem_cons, List.not_mem_nil, or_false] at there
    rcases there with rfl | rfl | rfl
    · exact ⟨_, _, testStood⟩
    · exact ⟨_, _, branchStood⟩
    · exact ⟨_, _, otherStood⟩
  rw [renew_reaches_iff (by decide) isFormer replaces clean spans]
  change PatchesTo node _ _ _ 0 [⟨some 0, test⟩, ⟨some 1, branch⟩, ⟨some 2, other⟩]
    [⟨some 0, test⟩, child, ⟨some 2, other⟩] _ _ ↔ _
  have afterBranch : ∀ lead, PatchesTo node place.source place.span.stop branchStop 2
      [⟨some 2, other⟩] [⟨some 2, other⟩] lead text ↔
        text = [place.source.text.slice branchStop otherStart,
          place.source.text.slice otherStart otherStop,
          place.source.text.slice otherStop place.span.stop].foldl Text.beside lead := by
    intro lead
    rw [patchesTo_same_iff otherStood, patchesTo_nil_iff]
    rfl
  rw [patchesTo_same_iff testStood, patchesTo_loose_iff rfl branchStood isOther]
  exact exists_congr fun shown => and_congr_right fun _ => afterBranch _

/-- A statement that is just as it was read from a source. -/
inductive Untouched (source : Source) : Node → Prop
  | read {kind : Kind} {flags : Flags} {place : Place} {children : List (Child Node)} {level : Nat}
      (isSource : place.source = source)
      (isClean : (Node.tree kind flags (some place) children).isClean = true)
      (isLevel : Precedence.ofNode (.tree kind flags (some place) children) = .ok level) :
      Untouched source (.tree kind flags (some place) children)

/-- Statements of which some are replaced by new ones, but no two in a row. -/
inductive Mixes : (afterNew : Bool) → (index : Nat) → (nodes : List Node) →
    (children : List (Child Node)) → Prop
  | nil {afterNew : Bool} {index : Nat} : Mixes afterNew index [] []
  | kept {afterNew : Bool} {index : Nat} {node : Node} {nodes : List Node}
      {children : List (Child Node)} (later : Mixes false (index + 1) nodes children) :
      Mixes afterNew index (node :: nodes) (⟨some index, node⟩ :: children)
  | new {index : Nat} {original node : Node} {nodes : List Node}
      {children : List (Child Node)} (later : Mixes true (index + 1) nodes children) :
      Mixes false index (original :: nodes) (⟨none, node⟩ :: children)

/-- The first statement is the former one or a new one, and tells what the next one may be. -/
private theorem mixes_cons {afterNew : Bool} {original : Node} {nodes : List Node}
    (mixes : Mixes afterNew index (original :: nodes) children) :
    ∃ seat other others, children = ⟨seat, other⟩ :: others ∧
      (seat = some index ∧ other = original ∨ seat = none ∧ afterNew = false) ∧
      formerIndex? 0 ⟨other, seat, emitter other⟩ = (if seat.isNone then none else some index) ∧
      Mixes seat.isNone (index + 1) nodes others := by
  cases mixes with
  | kept later => exact ⟨_, _, _, rfl, .inl ⟨rfl, rfl⟩, rfl, later⟩
  | new later => exact ⟨_, _, _, rfl, .inr ⟨rfl, rfl⟩, rfl, later⟩

private theorem separate_neighbours {separator : Text} {previous current : Option Nat}
    (isThere : index + 1 < formers.length)
    (ends : formers[index]?.bind formerStop? = some position)
    (begins : formers[index + 1]?.bind formerStart? = some start)
    (oneFormer : current = some (index + 1) ∨ current = none ∧ previous = some index) :
    separate source formers separator previous current = copy source position start := by
  have between : copyBetween source formers index = copy source position start := by
    rw [copyBetween, ends, begins]
    rfl
  rcases oneFormer with rfl | ⟨rfl, rfl⟩
  · exact between
  · rw [separate, if_pos isThere, between]
    nofun

private theorem untouched_stands (untouched : Untouched source node) :
    ∃ start finish, node.extent = (some start, some finish) ∧
      node.toFormer = .present (some start) (some finish) := by
  cases untouched with
  | read => exact ⟨_, _, rfl, rfl⟩

private theorem ofSlot_list (holds : node.kind? = some .program ∨ node.kind? = some .block) :
    Precedence.ofSlot node index = .ok 0 := by
  unfold Precedence.ofSlot
  rcases holds with isKind | isKind <;> rw [isKind] <;> rfl

/-- A statement that is untouched is copied from its source. -/
theorem emit_untouched {parent : Node}
    (holds : parent.kind? = some .program ∨ parent.kind? = some .block)
    (untouched : Untouched source node) (stood : node.extent = (some start, some finish)) :
    (emitter node).emit parent (some index) 0 = copy source start finish := by
  cases untouched with
  | @read kind flags place children level isSource isClean isLevel =>
      have bare : Precedence.needsParens (.tree kind flags (some place) children) parent
          (some index) 0 = .ok false := by
        unfold Precedence.needsParens
        rw [isLevel]
        rcases holds with isKind | isKind <;> rw [isKind] <;> rfl
      cases stood
      rw [emit_of_isClean isClean bare, enclose_false, isSource]

variable {statement other : Node} {seat : Option Nat}

/-- A statement behind the text that stood in front of the former one of its index. -/
private theorem statement_reaches_iff {second : Unit → Print Unit}
    (holds : node.kind? = some .program ∨ node.kind? = some .block)
    (untouched : Untouched source statement)
    (stood : statement.extent = (some start, some finish))
    (keptOrNew : seat = some index ∧ other = statement ∨ seat = none)
    (ends : ∀ middle, Reaches starts (second ()) middle text ↔
      PatchesTo node source stop finish (index + 1) originals children middle.text text) :
    Reaches starts (copy source position start >>= fun _ =>
        (emitter other).emit node (some index) 0 >>= second) page text ↔
      PatchesTo node source stop position index (⟨some index, statement⟩ :: originals)
        (⟨seat, other⟩ :: children) page.text text := by
  rcases keptOrNew with ⟨rfl, rfl⟩ | rfl
  · rw [patchesTo_same_iff stood, emit_untouched holds untouched stood]
    apply copy_bind_reaches_iff fun lead =>
      PatchesTo node source stop finish (index + 1) originals children
        (lead.beside (source.text.slice start finish)) text
    exact fun _ => copy_bind_reaches_iff (fun lead =>
      PatchesTo node source stop finish (index + 1) originals children lead text) ends
  · have isOther : (⟨none, other⟩ : Child Node) ≠ ⟨some index, statement⟩ := by
      rintro ⟨⟩
    rw [patchesTo_loose_iff (ofSlot_list holds) stood isOther]
    apply copy_bind_reaches_iff fun lead =>
      ∃ shown, Shown other node (some index) 0 lead shown ∧
        PatchesTo node source stop finish (index + 1) originals children (lead.beside shown) text
    exact fun _ => emit_bind_reaches_iff (fun lead =>
      PatchesTo node source stop finish (index + 1) originals children lead text) ends

private theorem patchStatements_separated {separator : Text} {head : Nat} {previous : Part}
    {next : Unit → Print Unit}
    (separates : separate source formers separator (formerIndex? head previous)
      (formerIndex? head ⟨other, seat, emitter other⟩) = copy source position start) :
    (patchStatements node source formers separator head index previous
        (⟨other, seat, emitter other⟩ :: parts) >>= next) =
      (copy source position start >>= fun _ => (emitter other).emit node (some index) 0 >>= fun _ =>
        patchStatements node source formers separator head (index + 1)
          ⟨other, seat, emitter other⟩ parts >>= next) := by
  rw [patchStatements, separates]
  simp only [bind_assoc]
  rfl

/-- The statements behind another one, up to the end of the list. -/
theorem patchStatements_reaches_iff {separator : Text} {before rest : List Node} {last : Node}
    {previous : Part} {afterNew : Bool}
    (holds : node.kind? = some .program ∨ node.kind? = some .block)
    (isFormer : formers = (before ++ last :: rest).map Node.toFormer)
    (lastFormer : last.toFormer = .present (some start) (some position))
    (untouched : ∀ statement, statement ∈ rest → Untouched source statement)
    (isPrevious : formerIndex? 0 previous = if afterNew then none else some before.length)
    (mixes : Mixes afterNew (before.length + 1) rest children) :
    Reaches starts (patchStatements node source formers separator 0 (before.length + 1) previous
        (partsOf children) >>= fun _ =>
          copyKnown source (formers.getLast?.bind formerStop?) (some stop)) page text ↔
      PatchesTo node source stop position (before.length + 1)
        (Node.seatFrom (before.length + 1) rest) children page.text text := by
  -- What has been printed grows by a statement, and its length is the former position of the last.
  induction rest generalizing before last previous afterNew children start position page with
  | nil =>
      cases mixes
      have ends : formers.getLast?.bind formerStop? = some position := by
        rw [isFormer, List.map_append, List.map_cons, List.map_nil, List.getLast?_concat,
          lastFormer]
        rfl
      rw [Node.seatFrom, patchesTo_nil_iff, ends, ← copy_reaches_iff]
      rfl
  | cons first more induction =>
      have isUntouched := untouched first List.mem_cons_self
      obtain ⟨nextStart, nextStop, stood, isNext⟩ := untouched_stands isUntouched
      have shifted : formers = ((before ++ [last]) ++ first :: more).map Node.toFormer := by
        rw [isFormer, List.append_assoc]
        rfl
      have isThere : before.length + 1 < formers.length := by
        rw [isFormer, List.length_map, List.length_append, List.length_cons, List.length_cons]
        omega
      have ends : formers[before.length]?.bind formerStop? = some position := by
        rw [isFormer, List.getElem?_map, List.getElem?_append_right (Nat.le_refl _),
          Nat.sub_self]
        exact congrArg formerStop? lastFormer
      have begins : formers[before.length + 1]?.bind formerStart? = some nextStart := by
        rw [isFormer, List.getElem?_map, List.getElem?_append_right (Nat.le_add_right _ 1),
          Nat.add_sub_cancel_left]
        exact congrArg formerStart? isNext
      have grows : (before ++ [last]).length = before.length + 1 := List.length_append
      obtain ⟨seat, other, others, rfl, keptOrNew, isPart, mixesOn⟩ := mixes_cons mixes
      have oneFormer : formerIndex? 0 ⟨other, seat, emitter other⟩ = some (before.length + 1) ∨
          formerIndex? 0 ⟨other, seat, emitter other⟩ = none ∧
            formerIndex? 0 previous = some before.length := by
        rcases keptOrNew with ⟨rfl, _⟩ | ⟨rfl, rfl⟩
        · exact .inl rfl
        · exact .inr ⟨rfl, isPrevious⟩
      rw [Node.seatFrom, partsOf,
        patchStatements_separated (separate_neighbours isThere ends begins oneFormer)]
      apply statement_reaches_iff holds isUntouched stood (keptOrNew.imp_right And.left)
      intro middle
      rw [← grows] at isPart mixesOn ⊢
      exact induction shifted isNext (fun _ there => untouched _ (.tail _ there)) isPart mixesOn

private theorem renew_list {kind : Kind} {flags : Flags} {place : Place} {stops : Option Nat}
    (holds : kind = .program ∨ kind = .block)
    (isFormer : place.former = .present (some start) stops :: formers) :
    renew node kind flags (some place) (⟨other, seat, emitter other⟩ :: parts) =
      (record place.source place.span.start >>= fun _ =>
        copy place.source place.span.start start >>= fun _ =>
          (emitter other).emit node (some 0) 0 >>= fun _ =>
            patchStatements node place.source place.former (newSeparator place.source start) 0 1
              ⟨other, seat, emitter other⟩ parts >>= fun _ =>
                copyKnown place.source (place.former.getLast?.bind formerStop?)
                  (some place.span.stop)) := by
  have isList : listHead? kind = some 0 := by
    rcases holds with rfl | rfl <;> rfl
  have begins : hasStart place.former 0 = true := by
    rw [isFormer]
    rfl
  unfold renew
  simp only [isList, begins, if_true]
  unfold patchList
  rw [isFormer]
  rfl

/-- Where no two new statements follow each other, a list of them is patched as other nodes are.
What stands between two statements is the text that stood between the former ones, whatever the
new ones end or begin with, and no `;` is put where the former ones needed none. -/
theorem statements_reaches_iff {kind : Kind} {flags : Flags} {place : Place} {nodes : List Node}
    (holds : kind = .program ∨ kind = .block)
    (isFormer : place.former = nodes.map Node.toFormer) (notEmpty : nodes ≠ [])
    (untouched : ∀ statement, statement ∈ nodes → Untouched place.source statement)
    (mixes : Mixes false 0 nodes children) :
    Reaches starts (renew (.tree kind flags (some place) children) kind flags (some place)
        (partsOf children)) page text ↔
      PatchesTo (.tree kind flags (some place) children) place.source place.span.stop
        place.span.start 0 (Node.seatFrom 0 nodes) children page.text text := by
  obtain ⟨first, rest, rfl⟩ := List.exists_cons_of_ne_nil notEmpty
  obtain ⟨firstStart, firstStop, stood, isFirst⟩ :=
    untouched_stands (untouched first List.mem_cons_self)
  have formerIs : place.former =
      .present (some firstStart) (some firstStop) :: rest.map Node.toFormer := by
    rw [isFormer, List.map_cons, isFirst]
  have inList : (Node.tree kind flags (some place) children).kind? = some .program ∨
      (Node.tree kind flags (some place) children).kind? = some .block :=
    holds.imp (congrArg some) (congrArg some)
  have startsList : place.former = ([] ++ first :: rest).map Node.toFormer := isFormer
  generalize isNode : Node.tree kind flags (some place) children = node at inList ⊢
  obtain ⟨seat, other, others, rfl, keptOrNew, isPart, mixesOn⟩ := mixes_cons mixes
  rw [Node.seatFrom, partsOf, renew_list holds formerIs]
  apply record_bind_reaches_iff fun lead =>
    PatchesTo node place.source place.span.stop place.span.start 0
      (⟨some 0, first⟩ :: Node.seatFrom 1 rest) (⟨seat, other⟩ :: others) lead text
  intro recorded
  apply statement_reaches_iff inList (untouched first List.mem_cons_self) stood
    (keptOrNew.imp_right And.left)
  intro middle
  exact patchStatements_reaches_iff inList startsList isFirst
    (fun _ there => untouched _ (.tail _ there)) isPart mixesOn

end Patching

end Printer

/-- Nodes of a tree as it is read are as they are read. -/
theorem Grammar.AsRead.within {root node : Node} (asRead : AsRead root)
    (within : root.Within node) : AsRead node := by
  induction within with
  | root => exact asRead
  | child _ there induction => exact induction.parts.2.1 _ there

theorem Node.Nested.within {root node : Node} (nested : root.Nested)
    (within : root.Within node) : node.Nested := by
  induction within with
  | root => exact nested
  | child _ there induction =>
      cases induction with
      | tree _ _ deeper => exact deeper _ there

theorem Node.Placed.within {fits : Place → Prop} {root node : Node} (placed : root.Placed fits)
    (within : root.Within node) : node.Placed fits := by
  induction within with
  | root => exact placed
  | child _ there induction => exact induction.all _ there

/-- A node of a script, as it stands in its source. -/
theorem parsed_node {source : Source} {root : Node} {kind : Kind} {flags : Flags} {place : Place}
    {children : List (Child Node)} (parsed : parseScript source = .ok root)
    (within : root.Within (.tree kind flags (some place) children)) :
    ∃ nodes, children = Node.seatFrom 0 nodes ∧ place.former = nodes.map Node.toFormer ∧
      place.source = source ∧ (∀ node, node ∈ nodes → node.isClean = true) ∧
      Node.Arranged place.span kind flags nodes := by
  obtain ⟨_, _, asRead⟩ := parseScript_asRead parsed
  have isSource : place.source = source := by
    cases (parseScript_source parsed).within within with
    | tree fits _ => exact fits place rfl
  have nested := (parseScript_nested parsed).2.within within
  have isRead := asRead.within within
  generalize isNode : Node.tree kind flags (some place) children = node at isRead
  cases isRead with
  | absent | leaf => cases isNode
  | @read _ _ _ _ nodes childrenAre _ =>
      cases isNode
      cases nested with
      | tree arranged _ _ =>
          rw [Grammar.map_node_seatFrom] at arranged
          exact ⟨nodes, rfl, rfl, isSource, fun node there => (childrenAre node there).isClean,
            arranged⟩

namespace Printer

/-- A node of a script of which some children are replaced is printed from its pieces: the text
between the original children, the text of those that are the same, and what the new ones are
shown as in their places, with a blank only where characters would be read as one token.  If
nothing is replaced, the pieces are those of the source and are copied as a whole. -/
theorem patched_reaches_iff {source : Source} {root : Node} {kind : Kind} {flags : Flags}
    {place : Place} {children others : List (Child Node)}
    (parsed : parseScript source = .ok root)
    (within : root.Within (.tree kind flags (some place) children))
    (patches : kind ∉ [Kind.program, .block, .switchCase, .unary])
    (notShorthand : ¬ (kind = .patternProperty ∧ flags.shorthand = true))
    (spans : ∀ child, child ∈ children → child.node ≠ .absent →
      ∃ start finish, child.node.extent = (some start, some finish))
    (replaces : Replaces 0 children others) :
    (∀ starts page text,
      Reaches starts ((emitter (.tree kind flags (some place) others)).emit .absent none 0) page
          text ↔
        (∃ level, Precedence.ofNode (.tree kind flags (some place) others) = .ok level) ∧
        (others = children ∧
            text = page.text.beside (source.text.slice place.span.start place.span.stop) ∨
          others ≠ children ∧ ∃ pieces,
            Pieces (.tree kind flags (some place) others) source place.span.stop
              place.span.start 0 children others page.text pieces ∧
            text = pieces.foldl Text.beside page.text)) ∧
    ∀ node lead pieces,
      Pieces node source place.span.stop place.span.start 0 children children lead pieces →
      pieces.flatten = source.text.slice place.span.start place.span.stop := by
  obtain ⟨nodes, rfl, isFormer, rfl, clean, arranged⟩ := parsed_node parsed within
  have nodeSpans : ∀ node, node ∈ nodes → node ≠ .absent →
      ∃ start finish, node.extent = (some start, some finish) := by
    intro node there present
    rw [← Grammar.map_node_seatFrom 0 nodes] at there
    obtain ⟨child, isChild, rfl⟩ := List.mem_map.mp there
    exact spans child isChild present
  constructor
  · intro starts page text
    cases isLevel : Precedence.ofNode (.tree kind flags (some place) others) with
    | error fault =>
        rw [emit_eq, reaches_calculate_iff]
        constructor
        · rintro ⟨_, needs, _⟩
          obtain ⟨_, isOk⟩ := ofNode_of_needsParens needs
          rw [isLevel] at isOk
          cases isOk
        · rintro ⟨⟨_, isOk⟩, _⟩
          cases isOk
    | ok level =>
        have alone := needsParens_alone isLevel
        by_cases same : others = Node.seatFrom 0 nodes
        · have isClean : (Node.tree kind flags (some place) others).isClean = true := by
            rw [Node.isClean, same, isFormer, Grammar.areClean_seatFrom clean,
              Grammar.length_seatFrom, List.length_map]
            simp
          rw [emit_of_isClean isClean alone, enclose_false, copy_reaches_iff]
          simp [same]
        · have notClean : (Node.tree kind flags (some place) others).isClean = false := by
            rw [Node.isClean, isFormer, not_areClean_of_replaces replaces same]
            simp
          rw [emit_of_not_isClean notClean alone, enclose_false,
            renew_reaches_iff patches isFormer replaces clean nodeSpans]
          simp [same, PatchesTo]
  · intro node lead pieces areSame
    have laid : Laid place.span.stop place.span.start (nodes.map Node.toFormer) := by
      cases arranged with
      | laid laid => exact laid
      | shorthand isShorthand _ => exact absurd ⟨rfl, isShorthand⟩ notShorthand
      | @words _ token former =>
          have present : Node.leaf token ≠ .absent := nofun
          obtain ⟨_, _, stood⟩ := nodeSpans _ List.mem_cons_self present
          rw [Node.toFormer_of_ne present, stood] at former
          cases former
    exact flatten_of_same laid areSame

def commented : Source :=
  ⟨Text.ofString "x /* kept */;", none, .script⟩

/-- Whether a script is a name as a statement, and prints the comment when `3` is put in place of
the name. -/
def keepsComment : Node → Bool
  | .tree .program _ _ [⟨_, .tree .exprStmt flags (some place)
      [⟨some 0, .tree .ident _ (some _) _⟩]⟩] =>
      ((((emitter (.tree .exprStmt flags (some place) [⟨none, three⟩])).emit .absent none 0).run
        none).run {}).toOption.map (fun printed => printed.2.text) ==
          some (Text.ofString "3 /* kept */;")
  | _ => false

/-- What is printed comes from the pieces: what stands for the name, the text behind the name. -/
theorem commented_reaches_iff : ∃ root flags place child,
    parseScript commented = .ok root ∧
    root.Within (.tree .exprStmt flags (some place) [child]) ∧
    Replaces 0 [child] [⟨none, three⟩] ∧
    ∃ pieces,
      Pieces (.tree .exprStmt flags (some place) [⟨none, three⟩]) commented place.span.stop
        place.span.start 0 [child] [⟨none, three⟩] [] pieces ∧
      Text.ofString "3 /* kept */;" = pieces.foldl Text.beside [] := by
  have reads : (parseScript commented).toOption.any keepsComment = true := by decide +kernel
  cases parsed : parseScript commented with
  | error failure =>
      rw [parsed] at reads
      cases reads
  | ok root =>
      rw [parsed] at reads
      replace reads : keepsComment root = true := reads
      unfold keepsComment at reads
      split at reads
      case h_2 => cases reads
      case h_1 seat flags place nameFlags inner letters =>
        have replaces : Replaces 0 [⟨some 0, .tree .ident nameFlags (some inner) letters⟩]
            [⟨none, three⟩] :=
          .replaced nofun nofun nofun .nil
        refine ⟨_, flags, place, _, rfl, .child .root List.mem_cons_self, replaces, ?_⟩
        have printed : Reaches none ((emitter (.tree .exprStmt flags (some place)
            [⟨none, three⟩])).emit .absent none 0) {} (Text.ofString "3 /* kept */;") := by
          obtain ⟨⟨_, after⟩, turns, isText⟩ := Option.map_eq_some_iff.mp (beq_iff_eq.mp reads)
          exact ⟨after, Calculation.eq_ok_of_toOption turns, isText⟩
        obtain ⟨_, ⟨unchanged, _⟩ | ⟨_, pieces⟩⟩ := ((patched_reaches_iff parsed
          (.child .root List.mem_cons_self) (by decide) (fun both => nomatch both.1) (by
            intro child there _
            cases List.mem_singleton.mp there
            exact ⟨_, _, rfl⟩) replaces).1 _ _ _).mp printed
        · cases unchanged
        · exact pieces

end Printer

end ScriptFold
