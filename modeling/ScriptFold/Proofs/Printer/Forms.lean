import ScriptFold.Proofs.Printer.Operand
import ScriptFold.Proofs.Reading.Assignment

/-!
# Printing expressions

Every form of an expression is printed in words that are read as that form again.
-/

namespace ScriptFold

namespace Printer

open Word Precedence Grammar

/-- A node that is printed as one word. -/
theorem prints_word {node : Node} {word : Word}
    (made : ∃ kind flags children, node = .tree kind flags none children)
    (binds : ofNode node = .ok 20) (number : ∃ found, isNumber node = .ok found)
    (noCall : containsCall node = .ok false) (notLogical : node.isKind .logical = false)
    (printed : anew node = write word.text) (begins : word.Begins) (closes : word.Closes)
    (links : isNumber node = .ok false → word.Links) (notBrace : word.type ≠ .openBrace) :
    Prints node ⟨[word], 20, true⟩ := by
  refine ⟨made, binds, number, ⟨false, noCall, fun _ => rfl⟩, ?_, ?_, ?_⟩
  · rw [notLogical]
    nofun
  · rintro ⟨first, isFirst, isBrace⟩
    cases isFirst
    exact absurd isBrace notBrace
  · intro edge awaits
    rw [printed]
    exact ⟨_, .single rfl begins.sound (awaits.takes begins), _, rfl, closes,
      fun linked => links linked.2⟩

theorem spells_name {text : Text} (lexes : LexesAs .ident text) (cost : Nat) :
    Spells (.made .ident [.word .name text]) (.made .ident [.word .name text]) cost := by
  have begins := begins_of_lexesAs lexes (by decide) (sound_name lexes)
  exact ⟨rfl, _, prints_word ⟨_, _, _, rfl⟩ rfl ⟨false, rfl⟩ rfl rfl rfl begins (closes_name lexes)
    (fun _ => links_name lexes) nofun, reads_name text cost⟩

theorem spells_this (cost : Nat) :
    Spells (.made .thisExpr []) (.made .thisExpr []) cost :=
  ⟨rfl, ⟨[fixed .kwThis false], 20, true⟩, prints_word ⟨_, _, _, rfl⟩ rfl ⟨false, rfl⟩ rfl rfl rfl
    (begins_keyword (by decide)) (closes_keyword (by decide) (by decide))
    (fun _ => links_keyword (by decide)) nofun, reads_this cost⟩

/-- The words of literals. -/
theorem literal_word {type : TokenType} (isLiteral : type ∈ literals) {text : Text}
    (lexes : LexesAs type text) : Begins ⟨type, text, false⟩ ∧ Closes ⟨type, text, false⟩ ∧
      (type ≠ .number → Links ⟨type, text, false⟩) := by
  have plain : ∀ type ∈ literals, Lexer.isOther type = false := by decide
  have begins := begins_of_lexesAs lexes (plain type isLiteral)
  have reserved : ∀ type ∈ [TokenType.kwTrue, .kwFalse, .kwNull],
      type.isKeyword ∧ type.endsValue := by
    decide
  have ofKeyword : type ∈ [TokenType.kwTrue, .kwFalse, .kwNull] →
      Begins ⟨type, text, false⟩ ∧ Closes ⟨type, text, false⟩ ∧ Links ⟨type, text, false⟩ := by
    intro among
    obtain ⟨isKeyword, endsValue⟩ := reserved type among
    rw [text_of_keyword isKeyword lexes]
    exact ⟨begins_keyword isKeyword, closes_keyword isKeyword endsValue, links_keyword isKeyword⟩
  simp only [literals, List.mem_cons, List.not_mem_nil, or_false] at isLiteral
  rcases isLiteral with rfl | rfl | among
  · exact ⟨begins (sound_number lexes), closes_number lexes, fun notNumber => absurd rfl notNumber⟩
  · exact ⟨begins (sound_string lexes), closes_string lexes, fun _ => links_string lexes⟩
  · obtain ⟨begins, closes, links⟩ := ofKeyword (by simpa using among)
    exact ⟨begins, closes, fun _ => links⟩

/-- A literal binds like any primary expression: it has no sign. -/
theorem ofNode_literal {type : TokenType} (isLiteral : type ∈ literals) {text : Text}
    (lexes : LexesAs type text) :
    ofNode (.made .literal [.word (literalLeaf type) text]) = .ok 20 := by
  have plain : ∀ type ∈ literals, Lexer.isOther type = false := by decide
  have unsigned : (text.head? == some (.char '-')) = false := by
    have notMinus := not_startsIn_of_lexesAs lexes (plain type isLiteral) (.inr rfl)
    rw [Bool.eq_false_iff]
    intro isMinus
    rw [Lexer.startsIn, eq_of_beq isMinus] at notMinus
    cases notMinus
  have binds : ofNode (.made .literal [.word (literalLeaf type) text]) =
      .ok (if text.head? == some (.char '-') then Precedence.unary else primary) := rfl
  rw [binds, unsigned]
  rfl

theorem spells_literal {type : TokenType} (isLiteral : type ∈ literals) {text : Text}
    (lexes : LexesAs type text) (cost : Nat) :
    Spells (.made .literal [.word (literalLeaf type) text])
      (.made .literal [.word (literalLeaf type) text]) cost := by
  obtain ⟨begins, closes, links⟩ := literal_word isLiteral lexes
  have plain : ∀ type ∈ literals, type ≠ .openBrace ∧
      (type = .number → literalLeaf type = .number) := by
    decide
  obtain ⟨notBrace, ofNumber⟩ := plain type isLiteral
  refine ⟨rfl, _, prints_word ⟨_, _, _, rfl⟩ (ofNode_literal isLiteral lexes) ⟨_, rfl⟩ rfl rfl rfl begins
    closes ?_ notBrace, reads_literal isLiteral text cost⟩
  intro notNumber
  refine links fun isNumber => ?_
  have isFalse : (literalLeaf type == .number) = false := Except.ok.inj notNumber
  rw [ofNumber isNumber] at isFalse
  cases isFalse

/-- Words behind one that opens no brace. -/
theorem not_opensBrace {word : Word} {words : List Word} (notBrace : word.type ≠ .openBrace) :
    ¬ OpensBrace (word :: words) := by
  rintro ⟨first, isFirst, isBrace⟩
  cases isFirst
  exact notBrace isBrace

/-- The text in front of the operand of a unary operator. -/
theorem writes_unary {type : TokenType} (isOperator : isUnary type) {edge : Edge}
    (awaits : edge.Awaits) :
    ∃ next, Lays (write (if isWordOperator (Text.ofString type.spelling) then
        Text.ofString type.spelling ++ Text.ofString " " else Text.ofString type.spelling))
      edge [fixed type false] next ∧ next.Awaits := by
  have sorts : isWordOperator (Text.ofString type.spelling) = true ∧ type.isKeyword ∨
      isWordOperator (Text.ofString type.spelling) = false ∧ type ∈ openings := by
    revert isOperator
    cases type <;> decide
  rcases sorts with ⟨isWord, isKeyword⟩ | ⟨notWord, opens⟩
  · rw [isWord]
    have begins := begins_keyword isKeyword
    refine ⟨_, .beforeBlank rfl begins.sound (awaits.takes begins), ?_⟩
    refine Edge.awaits_gap ?_ ?_ (List.cons_ne_nil _ _) <;> rintro rfl <;> cases isOperator
  · rw [notWord]
    exact ⟨_, .opening (.tail _ opens) rfl awaits, Edge.awaits_opening opens false⟩

theorem Spells.unary {operand value : Node} {cost : Nat} (spells : Spells operand value cost)
    {type : TokenType} (isOperator : isUnary type) :
    Spells (.made .unary [.word .op (Text.ofString type.spelling), operand])
      (.made .unary [.word .op (Text.ofString type.spelling), value]) (cost + 10) := by
  let op := Node.word .op (Text.ofString type.spelling)
  obtain ⟨spelling, placed, tight, _⟩ := spells.operand (.made .unary [op, operand]) (some 1)
    (show Precedence.unary ≤ 20 by decide) nofun False.elim
  have printed : anew (.made .unary [op, operand]) = (do
      write (if isWordOperator (Text.ofString type.spelling) then
        Text.ofString type.spelling ++ Text.ofString " " else Text.ofString type.spelling)
      (emitter operand).emit (.made .unary [op, operand]) (some 1) Precedence.unary) := rfl
  refine ⟨rfl, _, ⟨⟨_, _, _, rfl⟩, rfl, ⟨false, rfl⟩, ⟨false, rfl, fun _ => rfl⟩, nofun, ?_, ?_⟩,
    (placed.reads.unaryOperator tight isOperator).mono (by omega)⟩
  · refine fun brace => absurd brace (not_opensBrace ?_)
    rintro rfl
    cases isOperator
  · intro edge awaits
    obtain ⟨middle, opened, awaitsOn⟩ := writes_unary isOperator awaits
    obtain ⟨next, lays, closed⟩ := placed.writes middle awaitsOn
    rw [printed]
    exact ⟨next, opened.andThen lays,
      closed.mono fun linked => absurd linked.1 (show ¬ 19 ≤ 17 by decide)⟩

theorem Spells.prefixUpdate {target value : Node} {cost : Nat} (spells : Spells target value cost)
    {type : TokenType} (isUpdate : type = .increment ∨ type = .decrement) :
    Spells (.made .prefixUpdate [.word .op (Text.ofString type.spelling), target])
      (.made .prefixUpdate [.word .op (Text.ofString type.spelling), value]) (cost + 10) := by
  let op := Node.word .op (Text.ofString type.spelling)
  have opens : type ∈ openings ∧ type ≠ .openBrace := by
    rcases isUpdate with rfl | rfl <;> decide
  obtain ⟨spelling, placed, tight, _⟩ := spells.operand (.made .prefixUpdate [op, target]) (some 1)
    (show afterOperand ≤ 20 by decide) nofun False.elim
  have printed : anew (.made .prefixUpdate [op, target]) = (do
      write (Text.ofString type.spelling)
      (emitter target).emit (.made .prefixUpdate [op, target]) (some 1) afterOperand) := rfl
  refine ⟨rfl, _, ⟨⟨_, _, _, rfl⟩, rfl, ⟨false, rfl⟩, ⟨false, rfl, fun _ => rfl⟩, nofun,
    fun brace => absurd brace (not_opensBrace opens.2), ?_⟩,
    (placed.reads.prefixUpdate (Nat.le_trans (by decide) tight) isUpdate).mono (by omega)⟩
  intro edge awaits
  obtain ⟨next, lays, closed⟩ := placed.writes _ (Edge.awaits_opening opens.1 false)
  rw [printed]
  exact ⟨next, (Lays.opening (.tail _ opens.1) rfl awaits).andThen lays,
    closed.mono fun linked => absurd linked.1 (show ¬ 19 ≤ 17 by decide)⟩

/-- What begins with an operand opens a brace if the operand does. -/
theorem Placed.brace_append {node value : Node} {action : Print Unit} {linked : Prop} {cost : Nat}
    {spelling : Spelling} (placed : Placed node value action linked cost spelling)
    {more : List Word} (brace : OpensBrace (spelling.words ++ more)) {kind : Kind}
    (leftHeavy : Node.isLeftHeavy kind) (flags : Flags) (others : List Node) :
    (Node.tree kind flags none (Node.unseated (node :: others))).leftmost.isKind .object := by
  obtain ⟨first, following, isWords, _⟩ := placed.reads.worded.starts
  have isObject : node.leftmost.isKind .object := by
    apply placed.brace
    rw [isWords] at brace ⊢
    exact brace
  have present : node.isAbsent = false := by
    cases node with
    | absent => cases isObject
    | leaf | tree => rfl
  rw [Node.unseated, List.map_cons, Node.leftmost]
  simp only [leftHeavy, present, Bool.not_false, Bool.and_self, if_true]
  exact isObject

private theorem isNumber_of_plain {node : Node} (plain : isPlainTarget node) :
    isNumber node = .ok false := by
  have notLiteral : node.isKind .literal = false := by
    cases node with
    | absent | leaf => rfl
    | tree kind flags place children =>
        cases kind
        case literal => cases plain
        all_goals rfl
  rw [isNumber, notLiteral]
  rfl

theorem Spells.postfixUpdate {target value : Node} {cost : Nat} (spells : Spells target value cost)
    (plain : isPlainTarget target) {type : TokenType}
    (isUpdate : type = .increment ∨ type = .decrement) :
    Spells (.made .postfixUpdate [target, .word .op (Text.ofString type.spelling)])
      (.made .postfixUpdate [value, .word .op (Text.ofString type.spelling)]) (cost + 10) := by
  let op := Node.word .op (Text.ofString type.spelling)
  have closes : type ∈ closings := by
    rcases isUpdate with rfl | rfl <;> decide
  obtain ⟨spelling, placed, tight, _⟩ := spells.operand (.made .postfixUpdate [target, op]) (some 0)
    (show Precedence.call ≤ 20 by decide) nofun
    (fun _ : True => ⟨Nat.le_refl 19, fun _ => isNumber_of_plain plain⟩)
  have printed : anew (.made .postfixUpdate [target, op]) = (do
      (emitter target).emit (.made .postfixUpdate [target, op]) (some 0) Precedence.call
      write (Text.ofString type.spelling)) := rfl
  refine ⟨rfl, _, ⟨⟨_, _, _, rfl⟩, rfl, ⟨false, rfl⟩, ⟨false, rfl, fun _ => rfl⟩, nofun,
    fun brace => placed.brace_append brace rfl {} [op], ?_⟩,
    (placed.reads.postfixUpdate tight isUpdate).mono (by omega)⟩
  intro edge awaits
  obtain ⟨_, lays, last, rfl, isLast, links⟩ := placed.writes edge awaits
  have takes : (Edge.after last).Takes (fixed type true) := by
    rcases isUpdate with rfl | rfl
    · exact isLast.takes_link (links trivial) rfl (by decide)
    · exact isLast.takes_link (links trivial) rfl (by decide)
  rw [printed]
  exact ⟨_, lays.andThen (.single rfl (closes_closing closes true).sound takes),
    (Edge.closed_closing closes true).mono fun _ => trivial⟩

/-- The two tables of precedences agree, and operators are written as they are read. -/
theorem binary_spelling {type : TokenType} {precedence : Nat}
    (isBinary : binaryPrecedence? type = some precedence) :
    ofOperator (Text.ofString type.spelling) = precedence + 4 ∧
      (Text.ofString type.spelling).isString "**" = decide (type = .pow) ∧
      (type.isOperator ∨ type.isKeyword) ∧ type ≠ .dot ∧ type ≠ .optionalDot := by
  cases type <;> cases isBinary <;> decide

theorem sound_fixed {type : TokenType} (isFixed : type.isOperator ∨ type.isKeyword) :
    (fixed type false).Sound :=
  isFixed.elim (fun isOperator => sound_operator isOperator false) sound_keyword

/-- How an operator between two operands is printed. -/
theorem anew_binary {type : TokenType} {left right : Node} {leftLeast rightLeast : Nat}
    (isLeft : ofSlot (binaryNode type left right) 0 = .ok leftLeast)
    (isRight : ofSlot (binaryNode type left right) 2 = .ok rightLeast) :
    anew (binaryNode type left right) = (do
      (emitter left).emit (binaryNode type left right) (some 0) leftLeast
      write (Text.ofString " " ++ Text.ofString type.spelling ++ Text.ofString " ")
      (emitter right).emit (binaryNode type left right) (some 2) rightLeast) := by
  have unfolded : anew (binaryNode type left right) = (do
      let leftLeast ← calculate (ofSlot (binaryNode type left right) 0)
      (emitter left).emit (binaryNode type left right) (some 0) leftLeast
      write (Text.ofString " " ++ Text.ofString type.spelling ++ Text.ofString " ")
      let rightLeast ← calculate (ofSlot (binaryNode type left right) 2)
      (emitter right).emit (binaryNode type left right) (some 2) rightLeast) := by
    -- The node is given a name, so that the two sides are compared without looking into it.
    generalize isNode : binaryNode type left right = node
    have written : anew node = generic (if isLogical type then .logical else .binary) {} node
        (partsOf (Node.unseated [left, .word .op (Text.ofString type.spelling), right])) := by
      rw [← isNode]
      rfl
    rw [written]
    cases isLogical type <;> rfl
  rw [unfolded, isLeft, isRight]
  rfl

/-- What the operands of an operator must bind like. -/
theorem ofSlot_binary {type : TokenType} {precedence : Nat}
    (isBinary : binaryPrecedence? type = some precedence) (left right : Node) :
    ofNode (binaryNode type left right) = .ok (precedence + 4) ∧
    ofSlot (binaryNode type left right) 0 =
      .ok (if type = .pow then 18 else precedence + 4) ∧
    ofSlot (binaryNode type left right) 2 =
      .ok (if type = .pow then 16 else precedence + 5) := by
  obtain ⟨isPrecedence, isPow, _⟩ := binary_spelling isBinary
  have node : ofNode (binaryNode type left right) =
      .ok (ofOperator (Text.ofString type.spelling)) := by
    unfold binaryNode
    cases isLogical type <;> rfl
  have slot : ∀ index, ofSlot (binaryNode type left right) index =
      .ok (if (Text.ofString type.spelling).isString "**" then
          if index = 0 then afterOperand else ofOperator (Text.ofString type.spelling)
        else if index = 0 then ofOperator (Text.ofString type.spelling)
        else ofOperator (Text.ofString type.spelling) + 1) := by
    intro index
    have unfolded : ofSlot (binaryNode type left right) index = (
        if (Text.ofString type.spelling).isString "**" then
          .ok (if index = 0 then afterOperand else ofOperator (Text.ofString type.spelling))
        else .ok (if index = 0 then ofOperator (Text.ofString type.spelling)
          else ofOperator (Text.ofString type.spelling) + 1)) := by
      unfold binaryNode
      cases isLogical type <;> rfl
    rw [unfolded]
    split <;> rfl
  rw [node, slot, slot, isPrecedence, isPow]
  refine ⟨rfl, ?_, ?_⟩
  · by_cases isPower : type = .pow <;> simp [isPower, afterOperand]
  · by_cases isPower : type = .pow
    · subst isPower
      cases isBinary
      rfl
    · simp [isPower]

theorem Spells.binary {left right leftValue rightValue : Node} {cost : Nat}
    (leftSpells : Spells left leftValue cost) (rightSpells : Spells right rightValue cost)
    {type : TokenType} {precedence : Nat} (isBinary : binaryPrecedence? type = some precedence) :
    Spells (binaryNode type left right) (binaryNode type leftValue rightValue) (cost + 10) := by
  obtain ⟨_, isFixed, notDot, notOptional⟩ := (binary_spelling isBinary).2
  obtain ⟨isNode, isLeft, isRight⟩ := ofSlot_binary isBinary left right
  obtain ⟨positive, range⟩ := binaryPrecedence?_range isBinary
  have operator : ∀ left right : Node, operatorText (binaryNode type left right) =
      .ok (Text.ofString type.spelling) := by
    intro left right
    unfold binaryNode
    cases isLogical type <;> rfl
  have bounded : (if type = .pow then 18 else precedence + 4) ≤ 20 ∧
      (if type = .pow then 16 else precedence + 5) ≤ 20 := by
    split <;> omega
  obtain ⟨leftSpelling, leftPlaced, leftTight, _⟩ := leftSpells.operand
    (binaryNode type left right) (some 0) bounded.1 (fun _ => ⟨_, operator left right⟩) False.elim
  obtain ⟨rightSpelling, rightPlaced, rightTight, _⟩ := rightSpells.operand
    (binaryNode type left right) (some 2) bounded.2 (fun _ => ⟨_, operator left right⟩) False.elim
  have reads := leftPlaced.reads.binaryOperator rightPlaced.reads isBinary leftTight rightTight
  refine ⟨?_, _, ⟨⟨_, _, _, rfl⟩, isNode, ⟨false, ?_⟩, ⟨false, ?_, fun _ => rfl⟩,
    fun _ => ⟨_, operator left right⟩, fun brace => ?_, ?_⟩, reads.mono (by omega)⟩
  · unfold binaryNode
    cases isLogical type <;> rfl
  · unfold binaryNode
    cases isLogical type <;> rfl
  · unfold binaryNode
    cases isLogical type <;> rfl
  · refine leftPlaced.brace_append brace ?_ {} [_, right]
    cases isLogical type <;> rfl
  · intro edge awaits
    obtain ⟨middle, leftLays, leftClosed⟩ := leftPlaced.writes edge awaits
    obtain ⟨next, rightLays, rightClosed⟩ := rightPlaced.writes
      ⟨some (fixed type false), [.char ' ']⟩
      (Edge.awaits_gap notDot notOptional (List.cons_ne_nil _ _))
    rw [anew_binary isLeft isRight]
    refine ⟨next, leftLays.andThen ((Lays.operator rfl (sound_fixed isFixed) leftClosed).andThen
      rightLays), rightClosed.mono fun linked => ?_⟩
    have tight : 19 ≤ precedence + 4 := linked.1
    omega

theorem Spells.conditional {test consequent alternate testValue consequentValue alternateValue : Node}
    {cost : Nat} (testSpells : Spells test testValue cost)
    (consequentSpells : Spells consequent consequentValue cost)
    (alternateSpells : Spells alternate alternateValue cost) :
    Spells (.made .conditional [test, consequent, alternate])
      (.made .conditional [testValue, consequentValue, alternateValue]) (cost + 10) := by
  let node := Node.made .conditional [test, consequent, alternate]
  obtain ⟨testSpelling, testPlaced, testTight, _⟩ := testSpells.operand node (some 0)
    (show Precedence.conditional + 1 ≤ 20 by decide) nofun False.elim
  obtain ⟨consequentSpelling, consequentPlaced, consequentTight, _⟩ :=
    consequentSpells.operand node (some 1) (show Precedence.assign ≤ 20 by decide) nofun False.elim
  obtain ⟨alternateSpelling, alternatePlaced, alternateTight, _⟩ :=
    alternateSpells.operand node (some 2) (show Precedence.assign ≤ 20 by decide) nofun False.elim
  have printed : anew node = (do
      (emitter test).emit node (some 0) (Precedence.conditional + 1)
      write " ? "
      (emitter consequent).emit node (some 1) Precedence.assign
      write " : "
      (emitter alternate).emit node (some 2) Precedence.assign) := rfl
  have reads := testPlaced.reads.conditional consequentPlaced.reads alternatePlaced.reads testTight
    consequentTight alternateTight
  refine ⟨rfl, _, ⟨⟨_, _, _, rfl⟩, rfl, ⟨false, rfl⟩, ⟨false, rfl, fun _ => rfl⟩, nofun,
    fun brace => testPlaced.brace_append brace rfl {} [consequent, alternate], ?_⟩,
    reads.mono (by omega)⟩
  intro edge awaits
  have spaced : ∀ type : TokenType, type ≠ .dot → type ≠ .optionalDot →
      Edge.Awaits ⟨some (fixed type false), [.char ' ']⟩ :=
    fun _ notDot notOptional => Edge.awaits_gap notDot notOptional (List.cons_ne_nil _ _)
  obtain ⟨first, testLays, testClosed⟩ := testPlaced.writes edge awaits
  obtain ⟨second, consequentLays, consequentClosed⟩ :=
    consequentPlaced.writes _ (spaced .question nofun nofun)
  obtain ⟨third, alternateLays, alternateClosed⟩ :=
    alternatePlaced.writes _ (spaced .colon nofun nofun)
  rw [printed]
  refine ⟨third, ?_, alternateClosed.mono fun linked => absurd linked.1 (show ¬ 19 ≤ 4 by decide)⟩
  exact testLays.andThen ((Lays.operator (by decide) (sound_fixed (by decide)) testClosed).andThen
    (consequentLays.andThen ((Lays.operator (by decide) (sound_fixed (by decide))
      consequentClosed).andThen alternateLays)))

private theorem assignment_spelling {type : TokenType} (assigns : type.isAssignment) :
    type.isOperator ∧ type ≠ .dot ∧ type ≠ .optionalDot := by
  revert assigns
  cases type <;> decide

theorem Spells.assign {target value targetRead valueRead : Node} {cost : Nat}
    (targetSpells : Spells target targetRead cost) (valueSpells : Spells value valueRead cost)
    (plain : isPlainTarget targetRead) {type : TokenType} (assigns : type.isAssignment) :
    Spells (.made .assign [target, .word .assignOp (Text.ofString type.spelling), value])
      (.made .assign [targetRead, .word .assignOp (Text.ofString type.spelling), valueRead])
      (cost + 10) := by
  let op := Node.word .assignOp (Text.ofString type.spelling)
  let node := Node.made .assign [target, op, value]
  obtain ⟨isOperator, notDot, notOptional⟩ := assignment_spelling assigns
  obtain ⟨targetSpelling, targetPlaced, targetTight, _⟩ := targetSpells.operand node (some 0)
    (show Precedence.call ≤ 20 by decide) nofun False.elim
  obtain ⟨valueSpelling, valuePlaced, valueTight, _⟩ := valueSpells.operand node (some 2)
    (show Precedence.assign ≤ 20 by decide) nofun False.elim
  have printed : anew node = (do
      (emitter target).emit node (some 0) Precedence.call
      write (Text.ofString " " ++ Text.ofString type.spelling ++ Text.ofString " ")
      (emitter value).emit node (some 2) Precedence.assign) := rfl
  have reads := targetPlaced.reads.assign valuePlaced.reads targetTight valueTight plain assigns
  refine ⟨rfl, _, ⟨⟨_, _, _, rfl⟩, rfl, ⟨false, rfl⟩, ⟨false, rfl, fun _ => rfl⟩, nofun,
    fun brace => targetPlaced.brace_append brace rfl {} [op, value], ?_⟩, reads.mono (by omega)⟩
  intro edge awaits
  obtain ⟨middle, targetLays, targetClosed⟩ := targetPlaced.writes edge awaits
  obtain ⟨next, valueLays, valueClosed⟩ := valuePlaced.writes
    ⟨some (fixed type false), [.char ' ']⟩
    (Edge.awaits_gap notDot notOptional (List.cons_ne_nil _ _))
  rw [printed]
  exact ⟨next, targetLays.andThen ((Lays.operator rfl (sound_operator isOperator false)
    targetClosed).andThen valueLays),
    valueClosed.mono fun linked => absurd linked.1 (show ¬ 19 ≤ 3 by decide)⟩

end Printer

end ScriptFold
