import ScriptFold.Printer.Generic

/-!
# Printing trees

A node that is just as it was read is copied from its source.  A node of which
only some children are new is patched: the text between its former children is
kept.  All other nodes are written anew.
-/

namespace ScriptFold

namespace Printer

/-- The offsets of a former child, if it has both. -/
def formerSpan? : FormerChild → Option (Nat × Nat)
  | .present (some start) (some stop) => some (start, stop)
  | _ => none

/-- Whether the text between former children can be kept around the present ones. -/
def sameShape : List FormerChild → List (Child Node) → Bool
  | [], [] => true
  | .absent :: formers, child :: children => child.node.isAbsent && sameShape formers children
  | former :: formers, child :: children =>
      !child.node.isAbsent && (formerSpan? former).isSome && sameShape formers children
  | _, _ => false

/-- The number of children before the statements of a node that holds a list of them. -/
def listHead? : Kind → Option Nat
  | .program | .block => some 0
  | .switchCase => some 1
  | _ => none

/-- Whether the former child at an index has a start. -/
def hasStart (former : List FormerChild) (index : Nat) : Bool :=
  match former[index]? with
  | some (.present (some _) _) => true
  | _ => false

/-- The present parts of a patched node, with the text between the former ones. -/
def patchParts (node : Node) (source : Source) (stop : Nat) :
    (position index : Nat) → List FormerChild → List Part → Print Unit
  | position, index, former :: formers, part :: parts =>
      match formerSpan? former with
      | none => patchParts node source stop position (index + 1) formers parts
      | some (start, finish) => do
          copy source position start
          if part.seat == some index && part.node.isClean then
            copy source start finish
          else
            part.emit node index (← calculate (Precedence.ofSlot node index))
          patchParts node source stop finish (index + 1) formers parts
  | position, _, _, _ => copy source position stop

/-- The offset just past the first colon from an offset on. -/
def afterColon (source : Source) (offset : Nat) : Print Nat :=
  match Text.indexOf? [.char ':'] (source.text.drop offset) offset with
  | some colon => pure (colon + 1)
  | none => Printer.stop .malformed

/-- Copy a stretch of a source between two offsets that must be known. -/
def copyKnown (source : Source) (start stop : Option Nat) : Print Unit :=
  match start, stop with
  | some start, some stop => copy source start stop
  | _, _ => Printer.stop .missingPlace

/-- Print the head of a case and give the offset just past its colon. -/
def patchCaseHead (node : Node) (place : Place) (test : Option Part) : Print Nat := do
  match place.former.head? with
  | some (.present start finish) =>
      copyKnown place.source (some place.span.start) start
      match test with
      | some part => part.emit node 0 0
      | none => pure ()
      let stop ← afterColon place.source (finish.getD 0)
      copyKnown place.source finish (some stop)
      return stop
  | _ =>
      let stop ← afterColon place.source place.span.start
      copy place.source place.span.start stop
      return stop

/-- What separates new statements: a line end and the indentation of the first
former statement, if only blanks stand before it. -/
def newSeparator (source : Source) (firstStart : Nat) : Text :=
  let before := (source.text.take firstStart).reverse.takeWhile fun point => !point.is '\n'
  if before.all CodePoint.isBlank then .char '\n' :: before.reverse else [.char '\n']

/-- The former position of a statement that keeps its seat. -/
def formerIndex? (head : Nat) (part : Part) : Option Nat :=
  match part.seat with
  | some seat => if head ≤ seat then some (seat - head) else none
  | none => none

/-- The offset at which a former child starts. -/
def formerStart? : FormerChild → Option Nat
  | .present start _ => start
  | .absent => none

/-- The offset at which a former child stops. -/
def formerStop? : FormerChild → Option Nat
  | .present _ stop => stop
  | .absent => none

/-- Copy the text between two neighbouring former statements. -/
def copyBetween (source : Source) (formers : List FormerChild) (index : Nat) : Print Unit :=
  copyKnown source (formers[index]?.bind formerStop?) (formers[index + 1]?.bind formerStart?)

/-- Print what stands between two statements: the text before the second one if it
is a former statement, else the text after the first one, else a new separator. -/
def separate (source : Source) (formers : List FormerChild) (separator : Text)
    (previous current : Option Nat) : Print Unit :=
  match current, previous with
  | some (index + 1), _ => copyBetween source formers index
  | _, some index =>
      if index + 1 < formers.length then copyBetween source formers index else write separator
  | _, none => write separator

/-- Print the statements after the first one. -/
def patchStatements (node : Node) (source : Source) (formers : List FormerChild)
    (separator : Text) (head : Nat) : (index : Nat) → Part → List Part → Print Unit
  | _, _, [] => pure ()
  | index, previous, part :: rest => do
      separate source formers separator (formerIndex? head previous) (formerIndex? head part)
      part.emit node index 0
      patchStatements node source formers separator head (index + 1) part rest

/-- Print a node that holds statements, keeping the text between those it had. -/
def patchList (node : Node) (kind : Kind) (place : Place) (head : Nat) (parts : List Part) :
    Print Unit := do
  let source := place.source
  let formers := place.former.drop head
  let firstStart := (formers.head?.bind formerStart?).getD 0
  match parts.drop head with
  | [] =>
      match kind with
      | .block => write "\x7b\x7d"
      | .switchCase =>
          let _ ← patchCaseHead node place parts.head?
      | _ => pure ()
  | first :: rest =>
      let leadStart ←
        if head = 1 then patchCaseHead node place parts.head? else pure place.span.start
      copy source leadStart firstStart
      first.emit node head 0
      patchStatements node source formers (newSeparator source firstStart) head (head + 1) first
        rest
      copyKnown source (formers.getLast?.bind formerStop?) (some place.span.stop)

/-- Print a node of which something is new. -/
def renew (node : Node) (kind : Kind) (flags : Flags) (place : Option Place)
    (parts : List Part) : Print Unit := do
  match place with
  | none => generic kind flags node parts
  | some place =>
      record place.source place.span.start
      match listHead? kind with
      | some head =>
          if hasStart place.former head then patchList node kind place head parts
          else generic kind flags node parts
      | none =>
          if kind ≠ .unary && sameShape place.former node.seated then
            patchParts node place.source place.span.stop place.span.start 0 place.former parts
          else
            generic kind flags node parts

/-- Print a node in parentheses if it needs them. -/
def enclose (parens : Bool) (body : Print Unit) : Print Unit := do
  if parens then write "("
  body
  if parens then write ")"

mutual

/-- How a node is printed. -/
def emitter : Node → Emitter
  | .absent => ⟨fun _ _ _ => pure (), pure (), fun _ => pure ()⟩
  | .leaf token => ⟨fun _ _ _ => write token.text, pure (), fun _ => write token.text⟩
  | .tree kind flags place children =>
      let node := Node.tree kind flags place children
      let parts := partsOf children
      let body : Print Unit :=
        match place with
        | some known =>
            if node.isClean then copy known.source known.span.start known.span.stop
            else renew node kind flags place parts
        | none => renew node kind flags place parts
      let emit (parent : Node) (index : Option Nat) (least : Nat) : Print Unit := do
        enclose (← calculate (Precedence.needsParens node parent index least)) body
      let key (parent : Node) : Print Unit :=
        if kind = .computedKey then do
          write "["
          match parts with
          | part :: _ => part.emit node 0 Precedence.assign
          | [] => stop .missingItem
          write "]"
        else
          emit parent (some 0) 0
      ⟨emit, emitDeclaration node parts, key⟩

def partsOf : List (Child Node) → List Part
  | [] => []
  | ⟨seat, node⟩ :: rest => ⟨node, seat, emitter node⟩ :: partsOf rest

end

/-! ### The stack that printing takes -/

/-- The frames that a node of a kind adds to those of its children.  To ask whether it is just
as it was read takes a call, a question for all of its children and the loop behind that
question.  Braces and declarations are written anew by one call more. -/
def framesOf : Kind → Nat
  | .block | .classBody | .switchStmt | .varDecl => 4
  | _ => 3

mutual

/-- The frames that printing a node takes. -/
def frames : Node → Nat
  | .absent => 0
  | .leaf _ => 0
  | .tree kind _ _ children => framesOfAll children + framesOf kind

/-- The frames that the child takes that takes the most. -/
def framesOfAll : List (Child Node) → Nat
  | [] => 0
  | ⟨_, node⟩ :: rest => max (frames node) (framesOfAll rest)

end

private theorem framesOf_bounds (kind : Kind) : 3 ≤ framesOf kind ∧ framesOf kind ≤ 4 := by
  unfold framesOf
  split <;> decide

mutual

theorem frames_bounds : (node : Node) →
    3 * node.height ≤ frames node ∧ frames node ≤ 4 * node.height
  | .absent => by decide
  | .leaf _ => by simp [Node.height, frames]
  | .tree kind _ _ children => by
      have inner := framesOfAll_bounds children
      have outer := framesOf_bounds kind
      rw [Node.height, frames]
      omega

theorem framesOfAll_bounds : (children : List (Child Node)) →
    3 * Node.heightAll children ≤ framesOfAll children ∧
      framesOfAll children ≤ 4 * Node.heightAll children
  | [] => by decide
  | ⟨_, node⟩ :: rest => by
      have first := frames_bounds node
      have others := framesOfAll_bounds rest
      rw [Node.heightAll, framesOfAll]
      omega

end

private theorem framesOfAll_le {bound : Nat} {children : List (Child Node)}
    (each : ∀ child, child ∈ children → frames child.node ≤ bound) :
    framesOfAll children ≤ bound := by
  induction children with
  | nil => exact Nat.zero_le bound
  | cons first rest induction =>
      rw [List.forall_mem_cons] at each
      exact Nat.max_le.mpr ⟨each.1, induction each.2⟩

theorem frames_made_le (kind : Kind) {nodes : List Node} {bound : Nat}
    (each : ∀ node, node ∈ nodes → frames node ≤ bound) :
    frames (.made kind nodes) ≤ bound + framesOf kind := by
  refine Nat.add_le_add_right (framesOfAll_le fun child there => ?_) _
  obtain ⟨node, among, rfl⟩ := List.mem_map.mp there
  exact each node among

end Printer

/-- A printed text with its source map. -/
structure Printed where
  code : Text
  map : Option String

/-- The text of a tree, with a source map if a name of the source is given. -/
def layOut (tree : Node) (sourceName mapName : Option Text) : Except Failure Printed := do
  let source := tree.place?.map Place.source
  let lineStarts := if sourceName.isSome then source.map (·.text.lineStarts 0) else none
  let (_, page) ← ((Printer.emitter tree).emit .absent none 0).run lineStarts |>.run {}
  let map := sourceName.map fun name =>
    (SourceMap.mk name (source.map Source.text) mapName page.mappings.reverse).toJson
  return ⟨page.text, map⟩

/-- Print a tree on a stack that has the frames for it, or fail. -/
def printTree (tree : Node) (sourceName mapName : Option Text) (frames : Nat := Stack.limit) :
    Except Failure Printed :=
  Stack.within (.fault .stackExhausted) frames (Printer.frames tree)
    (layOut tree sourceName mapName)

section Printing

variable {tree : Node} {sourceName mapName : Option Text} {frames : Nat}

/-- A tree is printed as it is laid out on a stack that has the frames for it. -/
theorem printTree_of_le (fits : Printer.frames tree ≤ frames) :
    printTree tree sourceName mapName frames = layOut tree sourceName mapName :=
  Stack.within_of_le fits

theorem printTree_of_lt (exceeds : frames < Printer.frames tree) :
    printTree tree sourceName mapName frames = .error (.fault .stackExhausted) :=
  Stack.within_of_lt exceeds

theorem layOut_of_printTree {printed : Printed}
    (done : printTree tree sourceName mapName frames = .ok printed) :
    layOut tree sourceName mapName = .ok printed :=
  (Stack.of_within_eq_ok done).2

end Printing

end ScriptFold
