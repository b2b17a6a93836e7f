import ScriptFold.Proofs.Printer.Laying
import ScriptFold.Proofs.Reading.Spelling

/-!
# Printing operands

An expression without a place is written wherever an operand can stand.  Parentheses go
around it where it binds less tight than its position asks for, and at the positions where
its first or its last word would be taken for something else.
-/

namespace ScriptFold

open Word

namespace Edge

/-- The marks that can follow right behind an expression. -/
def dividers : List TokenType :=
  [.openParen, .closeParen, .openBracket, .closeBracket, .closeBrace, .comma, .semicolon, .colon]

/-- Every mark that divides can be written at an edge. -/
def Divides (edge : Edge) : Prop :=
  ∀ type, type ∈ dividers → edge.Takes (fixed type false)

theorem sound_divider {type : TokenType} (divides : type ∈ dividers) :
    Sound (fixed type false) := by
  have operators : ∀ type ∈ dividers, type.isOperator := by decide
  exact sound_operator (operators type divides) false

theorem Awaits.divides {edge : Edge} (awaits : edge.Awaits) : edge.Divides := by
  intro type divides
  have plain : ∀ type ∈ dividers, (type ≠ .slash ∧ type ≠ .slashAssign) ∧
      Lexer.startsIn (·.is '=') (Text.ofString type.spelling) = false := by
    decide
  exact awaits.takes ⟨sound_divider divides, rfl, (plain type divides).1, (plain type divides).2⟩

theorem divides_after {last : Word} (closes : last.Closes) : (after last).Divides := by
  intro type divides
  have plain : ∀ type ∈ dividers,
      (Text.ofString type.spelling).head?.any Lexer.isDivider := by
    decide
  obtain ⟨point, isHead, isDivider⟩ := (Option.any_eq_true _ _).mp (plain type divides)
  obtain ⟨rest, isText⟩ := List.head?_eq_some_iff.mp isHead
  exact closes.takes rfl isText isDivider

/-- An edge right behind an expression.  If it is `linked`, a dot or a sign can be written there. -/
def Closed (linked : Prop) (edge : Edge) : Prop :=
  ∃ last, edge = after last ∧ last.Closes ∧ (linked → last.Links)

theorem Closed.divides {linked : Prop} {edge : Edge} (closed : edge.Closed linked) :
    edge.Divides := by
  obtain ⟨last, rfl, closes, _⟩ := closed
  exact divides_after closes

theorem Closed.mono {linked stronger : Prop} {edge : Edge} (closed : edge.Closed linked)
    (implies : stronger → linked) : edge.Closed stronger := by
  obtain ⟨last, isEdge, closes, links⟩ := closed
  exact ⟨last, isEdge, closes, fun holds => links (implies holds)⟩

theorem closed_closing {type : TokenType} (closes : type ∈ closings) (joined : Bool) :
    (after (fixed type joined)).Closed True :=
  ⟨_, rfl, closes_closing closes joined, fun _ => links_closing closes joined⟩

end Edge

namespace Precedence

/-- What besides its precedence lets a node go without parentheses at an index of a parent. -/
def Fits (node parent : Node) (index : Option Nat) : Prop :=
  match parent.kind? with
  | some .exprStmt => node.leftmost.isKind .object = false
  | some .arrow => index = some 1 → node.leftmost.isKind .object = false
  | some .member | some .call | some .subscript => index = some 0 → isNumber node = .ok false
  | some .newExpr => index = some 0 → containsCall node = .ok false
  | _ => True

/-- Whether a node needs parentheses can be told if what that depends on can be told. -/
theorem needsParens_ok {node parent : Node} {index : Option Nat} {least binds : Nat}
    (isTree : node.isTree) (isBinds : ofNode node = .ok binds)
    (number : ∃ found, isNumber node = .ok found) (calls : ∃ found, containsCall node = .ok found)
    (operator : node.isKind .logical → ∃ op, operatorText node = .ok op)
    (parentOperator : parent.kind? = some .logical → ∃ op, operatorText parent = .ok op) :
    ∃ parens, needsParens node parent index least = .ok parens ∧
      (parens = false → least ≤ binds ∧ Fits node parent index) := by
  unfold needsParens
  simp only [isTree, Bool.not_true, Bool.false_eq_true, if_false, isBinds, Calculation.ok_bind]
  by_cases looser : binds < least
  · rw [if_pos looser]
    exact ⟨true, rfl, nofun⟩
  rw [if_neg looser]
  have tight : least ≤ binds := Nat.not_lt.mp looser
  unfold Fits
  split
  case h_1 isParent =>
    rw [isParent]
    refine ⟨_, rfl, fun isFalse => ⟨tight, ?_⟩⟩
    exact Bool.eq_false_iff.mpr (List.any_eq_false.mp isFalse .object List.mem_cons_self)
  case h_2 isParent =>
    rw [isParent]
    refine ⟨_, rfl, fun isFalse => ⟨tight, fun isBody => ?_⟩⟩
    simpa [isBody] using isFalse
  case h_3 isParent | h_4 isParent | h_5 isParent =>
    rw [isParent]
    split
    case isTrue =>
      obtain ⟨found, isNumber⟩ := number
      exact ⟨found, isNumber, fun isFalse => ⟨tight, fun _ => isFalse ▸ isNumber⟩⟩
    case isFalse notFirst =>
      exact ⟨false, rfl, fun _ => ⟨tight, fun isFirst => absurd (by simp [isFirst]) notFirst⟩⟩
  case h_6 isParent =>
    rw [isParent]
    split
    case isTrue =>
      obtain ⟨found, isCall⟩ := calls
      exact ⟨found, isCall, fun isFalse => ⟨tight, fun _ => isFalse ▸ isCall⟩⟩
    case isFalse notFirst =>
      exact ⟨false, rfl, fun _ => ⟨tight, fun isFirst => absurd (by simp [isFirst]) notFirst⟩⟩
  case h_7 isParent =>
    rw [isParent]
    split
    case isTrue => exact ⟨false, rfl, fun _ => ⟨tight, trivial⟩⟩
    case isFalse isLogical =>
      obtain ⟨op, isOp⟩ := operator (by simpa using isLogical)
      obtain ⟨parentOp, isParentOp⟩ := parentOperator isParent
      rw [isOp, isParentOp]
      exact ⟨_, rfl, fun _ => ⟨tight, trivial⟩⟩
  case h_8 =>
    refine ⟨false, rfl, fun _ => ⟨tight, ?_⟩⟩
    split <;> trivial

end Precedence

namespace Printer

open Precedence

/-- How a tree is written from its children. -/
def anew : Node → Print Unit
  | .tree kind flags place children =>
      generic kind flags (.tree kind flags place children) (partsOf children)
  | _ => pure ()

theorem emit_made {kind : Kind} {flags : Flags} {children : List (Child Node)} {parent : Node}
    {index : Option Nat} {least : Nat} {parens : Bool}
    (isParens : needsParens (.tree kind flags none children) parent index least = .ok parens) :
    (emitter (.tree kind flags none children)).emit parent index least =
      enclose parens (anew (.tree kind flags none children)) := by
  have emitted : (emitter (.tree kind flags none children)).emit parent index least =
      (calculate (needsParens (.tree kind flags none children) parent index least) >>= fun parens =>
        enclose parens (anew (.tree kind flags none children))) := by
    rw [emitter]
    rfl
  rw [emitted, isParens]
  rfl

theorem emit_bare {kind : Kind} {children : List Node} {parent : Node} {index : Option Nat}
    {least : Nat} (bare : needsParens (.made kind children) parent index least = .ok false) :
    (emitter (.made kind children)).emit parent index least = anew (.made kind children) := by
  rw [Node.made, emit_made bare, enclose_false]

/-- An action writes words wherever an operand can stand, up to an edge of some sort. -/
def Writes (action : Print Unit) (words : List Word) (ends : Edge → Prop) : Prop :=
  ∀ edge : Edge, edge.Awaits → ∃ next, Lays action edge words next ∧ ends next

theorem Writes.mono {action : Print Unit} {words : List Word} {ends weaker : Edge → Prop}
    (writes : Writes action words ends) (implies : ∀ edge, ends edge → weaker edge) :
    Writes action words weaker := by
  intro edge awaits
  obtain ⟨next, lays, is⟩ := writes edge awaits
  exact ⟨next, lays, implies next is⟩

namespace Lays

variable {edge : Edge}

/-- A word is written and nothing else. -/
theorem single {word : Word} {text : Text} (isText : word.text = text) (sound : word.Sound)
    (takes : edge.Takes word) : Lays (write text) edge [word] (.after word) := by
  have written : Lays (write (word.text ++ [])) edge [word] (.after word) :=
    .word sound takes .nothing
  rwa [List.append_nil, isText] at written

/-- A word is written with a blank after it. -/
theorem beforeBlank {word : Word} {text : Text} (isText : word.text ++ [.char ' '] = text)
    (sound : word.Sound) (takes : edge.Takes word) :
    Lays (write text) edge [word] ⟨some word, [.char ' ']⟩ := by
  rw [← isText]
  exact .word sound takes (.gap (by decide))

/-- A mark that divides is written. -/
theorem divider {type : TokenType} {text : Text} (among : type ∈ Edge.dividers)
    (isText : (fixed type false).text = text) (divides : edge.Divides) :
    Lays (write text) edge [fixed type false] (.after (fixed type false)) :=
  .single isText (Edge.sound_divider among) (divides type among)

/-- A mark that divides is written with a blank after it. -/
theorem dividerBlank {type : TokenType} {text : Text} (among : type ∈ Edge.dividers)
    (isText : (fixed type false).text ++ [.char ' '] = text) (divides : edge.Divides) :
    Lays (write text) edge [fixed type false] ⟨some (fixed type false), [.char ' ']⟩ :=
  .beforeBlank isText (Edge.sound_divider among) (divides type among)

/-- A word behind which an operand stands is written. -/
theorem opening {type : TokenType} {text : Text} (opens : type ∈ .openBrace :: openings)
    (isText : (fixed type false).text = text) (awaits : edge.Awaits) :
    Lays (write text) edge [fixed type false] (.after (fixed type false)) :=
  have begins := begins_operator opens
  .single isText begins.sound (awaits.takes begins)

/-- An operator is written between blanks. -/
theorem operator {linked : Prop} {type : TokenType} {joined : Bool} {text : Text}
    (isText : .char ' ' :: (fixed type joined).text ++ [.char ' '] = text)
    (sound : (fixed type joined).Sound) (closed : edge.Closed linked) :
    Lays (write text) edge [fixed type joined] ⟨some (fixed type joined), [.char ' ']⟩ := by
  obtain ⟨last, rfl, closes, _⟩ := closed
  have added : (Edge.after last).Adds ([.char ' '] ++ (fixed type joined).text ++ [.char ' '])
      ([] ++ [fixed type joined] ++ []) ⟨some (fixed type joined), [.char ' ']⟩ :=
    ((Edge.Adds.gap (by decide)).append (.word sound (closes.meets _))).append
      (.gap (by decide))
  rw [← isText]
  exact .spaced (by decide) added

end Lays

/-- An expression in parentheses is written as such. -/
theorem Writes.enclosed {action : Print Unit} {words : List Word}
    (writes : Writes action words Edge.Divides) :
    Writes (enclose true action)
      (fixed .openParen false :: (words ++ [fixed .closeParen false])) (Edge.Closed True) := by
  intro edge awaits
  have opened : (Edge.after (fixed .openParen false)).Awaits :=
    Edge.awaits_opening (by decide) false
  obtain ⟨next, lays, divides⟩ := writes _ opened
  refine ⟨.after (fixed .closeParen false), ?_, Edge.closed_closing (by decide) false⟩
  exact (Lays.opening (by decide) (by decide) awaits).andThen
    (lays.andThen (.divider (by decide) (by decide) divides))

/-- The first word opens a brace. -/
def OpensBrace (words : List Word) : Prop :=
  ∃ first, words.head? = some first ∧ first.type = .openBrace

structure Prints (node : Node) (spelling : Spelling) : Prop where
  made : ∃ kind flags children, node = .tree kind flags none children
  binds : ofNode node = .ok spelling.binds
  number : ∃ found, isNumber node = .ok found
  calls : ∃ found, containsCall node = .ok found ∧ (found = false → spelling.free)
  operator : node.isKind .logical → ∃ op, operatorText node = .ok op
  brace : OpensBrace spelling.words → node.leftmost.isKind .object
  writes : Writes (anew node) spelling.words
    (Edge.Closed (19 ≤ spelling.binds ∧ isNumber node = .ok false))

/-- An operand as it stands at a position: how it is written there, and how that is read. -/
structure Placed (node value : Node) (action : Print Unit) (linked : Prop) (cost : Nat)
    (spelling : Spelling) : Prop where
  writes : Writes action spelling.words (Edge.Closed linked)
  reads : Grammar.Reads value spelling cost
  calls : ∃ found, containsCall node = .ok found ∧ (found = false → spelling.free)
  brace : OpensBrace spelling.words → node.leftmost.isKind .object

/-- An operand at an index of a parent, in parentheses where it needs them. -/
theorem Prints.placed {node value : Node} {spelling : Spelling} {cost : Nat}
    (prints : Prints node spelling) (reads : Grammar.Reads value spelling cost)
    (isExpression : value.isExpression) (parent : Node) (index : Option Nat) (least : Nat)
    (parentOperator : parent.kind? = some .logical → ∃ op, operatorText parent = .ok op) :
    ∃ parens, Placed node value ((emitter node).emit parent index least)
        (parens = false → 19 ≤ spelling.binds ∧ isNumber node = .ok false) (cost + 5)
        (spelling.placed parens) ∧
      (parens = false → least ≤ spelling.binds ∧ Fits node parent index) := by
  obtain ⟨kind, flags, children, rfl⟩ := prints.made
  obtain ⟨found, isCall, isFree⟩ := prints.calls
  obtain ⟨parens, needed, fits⟩ := needsParens_ok rfl prints.binds prints.number
    ⟨found, isCall⟩ prints.operator parentOperator
  refine ⟨parens, ?_, fits⟩
  rw [emit_made needed]
  have placed := reads.placed isExpression parens
  cases parens with
  | true =>
      refine ⟨?_, placed, ⟨found, isCall, fun _ => rfl⟩, ?_⟩
      · have writes := (prints.writes.mono fun _ closed => closed.divides).enclosed
        exact writes.mono fun _ closed => closed.mono fun _ => trivial
      · rintro ⟨first, isFirst, isBrace⟩
        cases isFirst
        cases isBrace
  | false =>
      refine ⟨?_, placed, ⟨found, isCall, isFree⟩, prints.brace⟩
      rw [enclose_false]
      exact prints.writes.mono fun _ closed => closed.mono fun isLinked => isLinked rfl

/-- A node is printed in words that are read as another expression. -/
def Spells (node value : Node) (cost : Nat) : Prop :=
  value.isExpression ∧ ∃ spelling, Prints node spelling ∧ Grammar.Reads value spelling cost

namespace Spells

variable {node value : Node} {cost : Nat}

theorem mono (spells : Spells node value cost) {other : Nat} (atMost : cost ≤ other) :
    Spells node value other := by
  obtain ⟨isExpression, spelling, prints, reads⟩ := spells
  exact ⟨isExpression, spelling, prints, reads.mono atMost⟩

/-- An operand at a position that asks for a precedence.  Behind a tight operand that is no number
a dot or a sign can stand. -/
theorem operand (spells : Spells node value cost) (parent : Node) (index : Option Nat) {least : Nat}
    (bounded : least ≤ 20)
    (parentOperator : parent.kind? = some .logical → ∃ op, operatorText parent = .ok op)
    {linked : Prop} (links : linked → 19 ≤ least ∧ (Fits node parent index → isNumber node = .ok false)) :
    ∃ spelling, Placed node value ((emitter node).emit parent index least) linked (cost + 5)
        spelling ∧ least ≤ spelling.binds ∧
      (spelling.free ∧ ¬ OpensBrace spelling.words ∨ Fits node parent index) := by
  obtain ⟨isExpression, spelling, prints, reads⟩ := spells
  obtain ⟨parens, placed, fits⟩ := prints.placed reads isExpression parent index least parentOperator
  have isLinked : linked → parens = false → 19 ≤ spelling.binds ∧ isNumber node = .ok false := by
    intro holds unenclosed
    obtain ⟨tight, fitting⟩ := fits unenclosed
    exact ⟨Nat.le_trans (links holds).1 tight, (links holds).2 fitting⟩
  refine ⟨spelling.placed parens, ⟨placed.writes.mono fun _ closed => closed.mono isLinked,
    placed.reads, placed.calls, placed.brace⟩, ?_⟩
  cases parens with
  | true =>
      refine ⟨bounded, .inl ⟨rfl, ?_⟩⟩
      rintro ⟨first, isFirst, isBrace⟩
      cases isFirst
      cases isBrace
  | false => exact ⟨(fits rfl).1, .inr (fits rfl).2⟩

end Spells

end Printer

end ScriptFold
