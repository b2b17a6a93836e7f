import ScriptFold.Proofs.Printer.Aggregates
import ScriptFold.Proofs.Token.Literal
import ScriptFold.Text.StringLiteral
import ScriptFold.Tree.Literal

/-!
# Values as literals

The values whose literals are exact: no functions, no doubles and no integers beyond 2^53.
Each of them has a literal that writes it, and the literal is printed in words that are read
as its image, in which the sign of a number is an operator.
-/

namespace ScriptFold

open Grammar

/-- The values whose literals are exact. -/
inductive Value.Portable : Value → Prop where
  | undefined : Portable .undefined
  | null : Portable .null
  | bool (b : Bool) : Portable (.bool b)
  | int {n : Int} : n.natAbs ≤ Num.greatestSafe → Portable (.int n)
  | str (text : Text) : Portable (.str text)
  | list {items : List Value} : (∀ item, item ∈ items → Portable item) → Portable (.list items)
  | record {entries : List (Text × Value)} : (entries.map Prod.fst).Nodup →
      (∀ entry, entry ∈ entries → Portable entry.2) →
      Portable (.record (entries.map fun entry => (.str entry.1, entry.2)))

namespace Literal

/-- A value with the literal that writes it and the image that the literal is read as. -/
structure Item where
  value : Value
  node : Node
  image : Node

/-- The property that writes an item under a key, and the one that it is read as. -/
def Item.property (key : Text) (node : Node) : Node :=
  stringProperty (StringLiteral.encode key) node

def natural (n : Nat) : Node :=
  ofWord .number (Text.ofString (digitsOf n))

/-- The literal of a number below zero. -/
def signed (n : Nat) : Node :=
  ofWord .number (.char '-' :: Text.ofString (digitsOf n))

/-- A number below zero as it is read. -/
def negation (n : Nat) : Node :=
  .made .unary [.word .op (Text.ofString "-"), natural n]

/-- A value, its literal and the image of the literal. -/
inductive Written : Item → Prop where
  | undefined : Written ⟨.undefined, voidZero, voidZero⟩
  | null : Written ⟨.null, ofWord .nullWord "null", ofWord .nullWord "null"⟩
  | yes : Written ⟨.bool true, ofWord .trueWord "true", ofWord .trueWord "true"⟩
  | no : Written ⟨.bool false, ofWord .falseWord "false", ofWord .falseWord "false"⟩
  | natural {n : Nat} : n ≤ Num.greatestSafe → Written ⟨.int n, natural n, natural n⟩
  | negative {n : Nat} : n + 1 ≤ Num.greatestSafe →
      Written ⟨.int (-(n + 1 : Nat)), signed (n + 1), negation (n + 1)⟩
  | str (text : Text) : Written ⟨.str text, ofWord .string (StringLiteral.encode text),
      ofWord .string (StringLiteral.encode text)⟩
  | list {items : List Item} : (∀ item, item ∈ items → Written item) →
      Written ⟨.list (items.map Item.value), .made .array (items.map Item.node),
        .made .array (items.map Item.image)⟩
  | record {entries : List (Text × Item)} : (entries.map Prod.fst).Nodup →
      (∀ entry, entry ∈ entries → Written entry.2) →
      Written ⟨.record (entries.map fun entry => (.str entry.1, entry.2.value)),
        .made .object (entries.map fun entry => Item.property entry.1 entry.2.node),
        .made .object (entries.map fun entry => Item.property entry.1 entry.2.image)⟩

/-- Items for values that each have one. -/
theorem exists_items {α : Type} {values : List α} {valueOf : α → Value}
    (written : ∀ value, value ∈ values → ∃ item, Written item ∧ item.value = valueOf value) :
    ∃ items : List (α × Item), items.map Prod.fst = values ∧
      ∀ entry, entry ∈ items → Written entry.2 ∧ entry.2.value = valueOf entry.1 := by
  induction values with
  | nil => exact ⟨[], rfl, nofun⟩
  | cons value values induction =>
      obtain ⟨item, isWritten, isValue⟩ := written value List.mem_cons_self
      obtain ⟨items, areValues, are⟩ := induction fun other there => written other (.tail _ there)
      refine ⟨(value, item) :: items, by rw [List.map_cons, areValues], fun entry there => ?_⟩
      cases there with
      | head => exact ⟨isWritten, isValue⟩
      | tail _ there => exact are entry there

/-- Every portable value has a literal with an image. -/
theorem exists_written {value : Value} (portable : value.Portable) :
    ∃ item, Written item ∧ item.value = value := by
  induction portable with
  | undefined => exact ⟨_, .undefined, rfl⟩
  | null => exact ⟨_, .null, rfl⟩
  | bool b =>
      cases b with
      | true => exact ⟨_, .yes, rfl⟩
      | false => exact ⟨_, .no, rfl⟩
  | @int n safe =>
      cases n with
      | ofNat n => exact ⟨_, .natural safe, rfl⟩
      | negSucc n => exact ⟨_, .negative safe, rfl⟩
  | str text => exact ⟨_, .str text, rfl⟩
  | @list items _ are =>
      obtain ⟨found, rfl, written⟩ := exists_items are
      refine ⟨_, @Written.list (found.map Prod.snd) ?_, ?_⟩
      · intro item there
        obtain ⟨entry, isEntry, rfl⟩ := List.mem_map.mp there
        exact (written entry isEntry).1
      · simp only [List.map_map, Value.list.injEq]
        exact List.map_congr_left fun entry there => (written entry there).2
  | @record entries distinct _ are =>
      obtain ⟨found, rfl, written⟩ := exists_items are
      refine ⟨_, @Written.record (found.map fun entry => (entry.1.1, entry.2)) ?_ ?_, ?_⟩
      · simpa only [List.map_map, Function.comp_def] using distinct
      · intro item there
        obtain ⟨entry, isEntry, rfl⟩ := List.mem_map.mp there
        exact (written entry isEntry).1
      · simp only [List.map_map, Value.record.injEq]
        exact List.map_congr_left fun entry there => by
          simp only [Function.comp_apply, (written entry there).2]

theorem ofItems?_map {items : List Item}
    (are : ∀ item, item ∈ items → ofValue? item.value = .ok (some item.node)) :
    ofItems? (items.map Item.value) = .ok (some (items.map Item.node)) := by
  induction items with
  | nil => rfl
  | cons item items induction =>
      have later := induction fun other there => are other (.tail _ there)
      simp only [List.map_cons, ofItems?, are item List.mem_cons_self, later, Calculation.ok_bind]
      rfl

theorem ofEntries?_map {entries : List (Text × Item)}
    (are : ∀ entry, entry ∈ entries → ofValue? entry.2.value = .ok (some entry.2.node)) :
    ofEntries? (entries.map fun entry => (.str entry.1, entry.2.value)) =
      .ok (some (entries.map fun entry => Item.property entry.1 entry.2.node)) := by
  induction entries with
  | nil => rfl
  | cons entry entries induction =>
      have later := induction fun other there => are other (.tail _ there)
      simp only [List.map_cons, ofEntries?, are entry List.mem_cons_self, later,
        Calculation.ok_bind, keyText]
      rfl

theorem ofValue?_int {n : Int} (safe : n.natAbs ≤ Num.greatestSafe) :
    ofValue? (.int n) = .ok (some (ofWord .number (Text.ofString (intText n)))) := by
  have plain : n.natAbs < Num.plainLimit := Nat.lt_of_le_of_lt safe (by decide)
  have isText : (Num.int n).literalText = .ok (intText n) := if_pos plain
  have unfolded : ofValue? (.int n) =
      ((Num.int n).literalText >>= fun text => pure (some (ofWord .number (Text.ofString text)))) :=
    rfl
  rw [unfolded, isText]
  rfl

theorem intText_negative (n : Nat) : Text.ofString (intText (-(n + 1 : Nat))) =
    .char '-' :: Text.ofString (digitsOf (n + 1)) := by
  have negative : (-(n + 1 : Nat) : Int) < 0 := by omega
  rw [intText, if_pos negative, Text.ofString_append]
  rfl

/-- A value is written by its literal. -/
theorem ofValue?_of_written {item : Item} (written : Written item) :
    ofValue? item.value = .ok (some item.node) := by
  induction written with
  | undefined | null | yes | no | str => rfl
  | @natural n safe =>
      have isSafe : (n : Int).natAbs ≤ Num.greatestSafe := safe
      rw [ofValue?_int isSafe, intText, if_neg (by omega)]
      rfl
  | @negative n safe =>
      have isSafe : (-(n + 1 : Nat) : Int).natAbs ≤ Num.greatestSafe := by
        rw [Int.natAbs_neg]
        exact safe
      rw [ofValue?_int isSafe, intText_negative]
      rfl
  | list _ are =>
      rw [ofValue?, ofItems?_map are]
      rfl
  | record _ _ are =>
      rw [ofValue?, ofEntries?_map are]
      rfl

private theorem frames_property (key : Text) (node : Node) :
    Printer.frames (Item.property key node) = max 3 (max (Printer.frames node) 0) + 3 := rfl

private theorem height_lt_property (key : Text) (node : Node) :
    node.height < (Item.property key node).height :=
  height_lt_of_mem_unseated (.tail _ (.head _))

/-- Writing a value takes no more frames than its literal has levels, and printing the literal
takes six for each level of the value. -/
theorem Written.fits {item : Item} (written : Written item) :
    writingFrames item.value ≤ item.node.height ∧
      Printer.frames item.node ≤ 6 * item.value.depth + 6 := by
  have word : ∀ type text, Printer.frames (ofWord type text) ≤ 6 * 0 + 6 :=
    fun _ _ => show 3 ≤ 6 by decide
  induction written with
  | undefined => decide
  | null | yes | no | natural | negative | str => exact ⟨Nat.zero_le _, word _ _⟩
  | @list items _ are =>
      have each : ∀ value, value ∈ items.map Item.value →
          writingFrames value ≤ Node.heightAll (Node.unseated (items.map Item.node)) := by
        intro value there
        obtain ⟨item, among, rfl⟩ := List.mem_map.mp there
        have higher : item.node.height < (Node.made .array (items.map Item.node)).height :=
          height_lt_of_mem_unseated (List.mem_map_of_mem among)
        exact Nat.le_trans (are item among).1 (Nat.lt_succ_iff.mp higher)
      have prints : ∀ node, node ∈ items.map Item.node →
          Printer.frames node ≤ 6 * Value.depthOfItems (items.map Item.value) + 6 := by
        intro node there
        obtain ⟨item, among, rfl⟩ := List.mem_map.mp there
        have below : item.value.depth ≤ Value.depthOfItems (items.map Item.value) :=
          Value.depth_le_depthOfItems (List.mem_map_of_mem among)
        have inner := (are item among).2
        omega
      have array := Printer.frames_made_le .array prints
      have three : Printer.framesOf .array = 3 := rfl
      refine ⟨Nat.succ_le_succ (writingFramesOfItems_le each), Nat.le_trans array ?_⟩
      rw [Value.depth, three]
      omega
  | @record entries _ _ are =>
      let values := entries.map fun entry => (Value.str entry.1, entry.2.value)
      let members := entries.map fun entry => Item.property entry.1 entry.2.node
      have each : ∀ entry, entry ∈ values →
          entry.1.textFrames ≤ Node.heightAll (Node.unseated members) ∧
            writingFrames entry.2 ≤ Node.heightAll (Node.unseated members) := by
        intro value there
        obtain ⟨entry, among, rfl⟩ := List.mem_map.mp there
        have inner := height_lt_property entry.1 entry.2.node
        have outer : (Item.property entry.1 entry.2.node).height <
            (Node.made .object members).height :=
          height_lt_of_mem_unseated (List.mem_map_of_mem among)
        refine ⟨Nat.zero_le _, Nat.le_trans (are entry among).1 ?_⟩
        exact Nat.le_trans inner.le (Nat.lt_succ_iff.mp outer)
      have prints : ∀ member, member ∈ members →
          Printer.frames member ≤ 6 * Value.depthOfEntries values + 9 := by
        intro member there
        obtain ⟨entry, among, rfl⟩ := List.mem_map.mp there
        have seated : (Value.str entry.1, entry.2.value) ∈ values := List.mem_map_of_mem among
        have below : entry.2.value.depth ≤ Value.depthOfEntries values :=
          Value.depth_le_depthOfEntries seated
        have inner := (are entry among).2
        rw [frames_property]
        omega
      have object := Printer.frames_made_le .object prints
      have three : Printer.framesOf .object = 3 := rfl
      refine ⟨Nat.succ_le_succ (writingFramesOfEntries_le each), Nat.le_trans object ?_⟩
      change _ ≤ 6 * (Value.depthOfEntries values + 1) + 6
      rw [three]
      omega

/-- An element of an array, or any other child, writes a value. -/
def Writes (value : Value) (child : Child Node) : Prop :=
  value? child.node = .ok (some value)

theorem values?_of_writes {values : List Value} {children : List (Child Node)}
    (writes : List.Forall₂ Writes values children) : values? children = .ok (some values) := by
  induction writes with
  | nil => rfl
  | cons first _ later =>
      rw [Writes] at first
      simp only [values?, first, later, Calculation.ok_bind]
      rfl

/-- A member of an object writes an entry. -/
inductive WritesEntry (key : Text) (value : Value) : Child Node → Prop where
  | mk {seat : Option Nat} {flags : Flags} {place : Option Place} {first second : Child Node} :
      first.node.isTree → first.node.isKind .computedKey = false → Writes (.str key) first →
      Writes value second →
      WritesEntry key value ⟨seat, .tree .property flags place [first, second]⟩

/-- An entry of a new key goes to the end. -/
theorem insert_new {key : Text} {value : Value} {earlier : List (Text × Value)}
    (isNew : key ∉ earlier.map Prod.fst) :
    Value.insert (.str key) value (earlier.map fun entry => (.str entry.1, entry.2)) =
      (earlier ++ [(key, value)]).map fun entry => (.str entry.1, entry.2) := by
  induction earlier with
  | nil => rfl
  | cons entry earlier induction =>
      rw [List.map_cons, List.mem_cons, not_or] at isNew
      have other : Value.sameKey (.str entry.1) (.str key) = false := by
        rw [Value.sameKey, beq_eq_false_iff_ne]
        exact fun same => isNew.1 same.symm
      simp only [List.map_cons, Value.insert, other, Bool.false_eq_true, if_false,
        induction isNew.2, List.cons_append]

/-- The first of some properties, with a key that is an expression of its own. -/
theorem entries?_property {seat : Option Nat} {flags : Flags} {place : Option Place}
    {first second : Child Node} (isTree : first.node.isTree)
    (notComputed : first.node.isKind .computedKey = false) (earlier : List (Value × Value))
    (rest : List (Child Node)) :
    entries? earlier (⟨seat, .tree .property flags place [first, second]⟩ :: rest) = (do
      match ← keyName? (← value? first.node) with
      | none => return none
      | some name =>
          match ← value? second.node with
          | none => return none
          | some known => entries? (Value.insert (.str name) known earlier) rest) := by
  obtain ⟨firstSeat, firstNode⟩ := first
  obtain ⟨secondSeat, secondNode⟩ := second
  cases firstNode with
  | absent | leaf => cases isTree
  | tree kind =>
      cases kind
      case computedKey => cases notComputed
      all_goals rfl

private theorem entries?_cons {key : Text} {value : Value} {child : Child Node}
    (writes : WritesEntry key value child) (earlier : List (Value × Value))
    (rest : List (Child Node)) :
    entries? earlier (child :: rest) = entries? (Value.insert (.str key) value earlier) rest := by
  obtain ⟨isTree, notComputed, isKey, isValue⟩ := writes
  rw [Writes] at isKey isValue
  have isName : keyName? (some (.str key)) = .ok (some key) := by
    simp [keyName?, Value.propertyKey, Value.isPrimitive, Value.toText, Except.map]
  simp only [entries?_property isTree notComputed, isKey, isValue, isName, Calculation.ok_bind]

private theorem entries?_of_writes {entries : List (Text × Value)} {children : List (Child Node)}
    (writes : List.Forall₂ (fun entry child => WritesEntry entry.1 entry.2 child) entries children)
    (earlier : List (Text × Value)) (distinct : ((earlier ++ entries).map Prod.fst).Nodup) :
    entries? (earlier.map fun entry => (.str entry.1, entry.2)) children =
      .ok (some ((earlier ++ entries).map fun entry => (.str entry.1, entry.2))) := by
  induction writes generalizing earlier with
  | nil =>
      rw [List.append_nil]
      rfl
  | @cons entry child entries children first _ later =>
      have isNew : entry.1 ∉ earlier.map Prod.fst := by
        rw [List.map_append, List.map_cons] at distinct
        intro there
        exact (List.nodup_append.mp distinct).2.2 _ there _ List.mem_cons_self rfl
      rw [List.append_cons] at distinct ⊢
      rw [entries?_cons first, insert_new isNew, later _ distinct]

/-- An object whose members write entries of distinct keys writes these entries. -/
theorem value?_object {entries : List (Text × Value)} {children : List (Child Node)}
    (writes : List.Forall₂ (fun entry child => WritesEntry entry.1 entry.2 child) entries children)
    (distinct : (entries.map Prod.fst).Nodup) (flags : Flags) (place : Option Place) :
    value? (.tree .object flags place children) =
      .ok (some (.record (entries.map fun entry => (.str entry.1, entry.2)))) := by
  have isEntries := entries?_of_writes writes [] distinct
  rw [List.map_nil, List.nil_append] at isEntries
  rw [value?, isEntries]
  rfl

theorem value?_array {values : List Value} {children : List (Child Node)}
    (writes : List.Forall₂ Writes values children) (flags : Flags) (place : Option Place) :
    value? (.tree .array flags place children) = .ok (some (.list values)) := by
  rw [value?, values?_of_writes writes]
  rfl

theorem value?_string (text : Text) :
    value? (ofWord .string (StringLiteral.encode text)) = .ok (some (.str text)) := by
  have unfolded : value? (ofWord .string (StringLiteral.encode text)) =
      (StringLiteral.decode (StringLiteral.encode text) >>= fun text => pure (some (.str text))) :=
    rfl
  rw [unfolded, StringLiteral.decode_encode]
  rfl

theorem value?_number {text : Text} {number : Num} (isNumber : Numeral.literal text = .ok number) :
    value? (ofWord .number text) = .ok (some (.num number)) := by
  have unfolded : value? (ofWord .number text) =
      (Numeral.literal text >>= fun number => pure (some (.num number))) := rfl
  rw [unfolded, isNumber]
  rfl

/-- The literal of a value writes that value. -/
theorem value?_of_written {item : Item} (written : Written item) :
    value? item.node = .ok (some item.value) := by
  induction written with
  | undefined => rfl
  | null | yes | no => rfl
  | natural safe => exact value?_number (Numeral.literal_digitsOf safe)
  | @negative n safe =>
      have isSafe : (-(n + 1 : Nat) : Int).natAbs ≤ Num.greatestSafe := by
        rw [Int.natAbs_neg]
        exact safe
      have isNumber := Numeral.literal_intText isSafe
      rw [intText_negative] at isNumber
      exact value?_number isNumber
  | str text => exact value?_string text
  | @list items _ are =>
      refine value?_array ?_ _ _
      rw [Node.unseated, List.forall₂_map_left_iff, List.map_map, List.forall₂_map_right_iff,
        List.forall₂_same]
      exact are
  | @record entries distinct _ are =>
      have writes : List.Forall₂ (fun entry child => WritesEntry entry.1 entry.2 child)
          (entries.map fun entry => (entry.1, entry.2.value))
          (Node.unseated (entries.map fun entry => Item.property entry.1 entry.2.node)) := by
        rw [Node.unseated, List.forall₂_map_left_iff, List.map_map, List.forall₂_map_right_iff,
          List.forall₂_same]
        exact fun entry there => ⟨rfl, rfl, value?_string entry.1, are entry there⟩
      have isRecord := value?_object writes (by simpa [Function.comp_def] using distinct) {} none
      rw [List.map_map] at isRecord
      exact isRecord

end Literal

namespace Printer

open Word Precedence Literal

/-- The literal of a number below zero is printed as a sign and digits. -/
theorem spells_signed (n cost : Nat) : Spells (signed n) (negation n) (cost + 10) := by
  let digits : Word := ⟨.number, Text.ofString (digitsOf n), false⟩
  have lexes : LexesAs .number digits.text := Lexer.lexesAs_digitsOf n
  obtain ⟨begins, closes, _⟩ := literal_word (show TokenType.number ∈ literals by decide) lexes
  have opens : (fixed .minus false).Begins := begins_operator (by decide)
  have meets : (Edge.after (fixed .minus false)).Meets digits := by
    have takes :=
      (Edge.awaits_opening (show TokenType.minus ∈ openings by decide) false).takes begins
    refine ⟨takes.follows, takes.onLine, fun last isLast isGap => takes.apart last isLast isGap ?_⟩
    intro point first isPoint isFirst
    cases isLast
    have isMinus : point = .char '-' := (Option.some.inj isPoint).symm
    have notMinus := Word.not_startsIn_of_lexesAs lexes (by decide) (.inr rfl)
    rw [Lexer.startsIn, isFirst, Option.any_some, CodePoint.is] at notMinus
    have notWord : Page.isWordChar (.char '-') = false := by decide
    simp [isMinus, Page.fuses, notMinus, notWord]
  have reads :=
    (reads_literal (show TokenType.number ∈ literals by decide) digits.text cost).unaryOperator
      (show 17 ≤ 20 by decide) (show isUnary .minus by decide)
  refine ⟨rfl, _, ⟨⟨_, _, _, rfl⟩, rfl, ⟨true, rfl⟩, ⟨false, rfl, fun _ => rfl⟩, ?_, ?_, ?_⟩,
    reads.mono (by omega)⟩
  · intro isLogical
    cases isLogical
  · exact fun brace => absurd brace (not_opensBrace (by decide))
  · intro edge awaits
    have printed : anew (signed n) = write ((fixed .minus false).text ++ digits.text) := rfl
    rw [printed]
    refine ⟨_, .word opens.sound (awaits.takes opens) (.word begins.sound meets),
      _, rfl, closes, ?_⟩
    exact fun linked => absurd linked.1 (show ¬ 19 ≤ 17 by decide)

/-- The literal of a value is printed in words that are read as its image. -/
theorem spells_written {item : Item} (written : Written item) :
    Spells item.node item.image (10 * item.node.height) := by
  have ofLiteral : ∀ {type : TokenType} {text : Text}, type ∈ literals → LexesAs type text →
      Spells (ofWord (literalLeaf type) text) (ofWord (literalLeaf type) text) 10 :=
    fun isLiteral lexes => spells_literal isLiteral lexes 10
  induction written with
  | undefined =>
      have zero := ofLiteral (show TokenType.number ∈ literals by decide) (Lexer.lexesAs_digitsOf 0)
      have spelled := zero.unary (show isUnary .kwVoid by decide)
      exact spelled
  | null => exact ofLiteral (show TokenType.kwNull ∈ literals by decide) (Lexer.lexesAs_keyword rfl)
  | yes => exact ofLiteral (show TokenType.kwTrue ∈ literals by decide) (Lexer.lexesAs_keyword rfl)
  | no => exact ofLiteral (show TokenType.kwFalse ∈ literals by decide) (Lexer.lexesAs_keyword rfl)
  | natural =>
      exact ofLiteral (show TokenType.number ∈ literals by decide) (Lexer.lexesAs_digitsOf _)
  | negative => exact spells_signed _ 0
  | str text =>
      exact ofLiteral (show TokenType.string ∈ literals by decide) (Lexer.lexesAs_encode text)
  | @list items _ are =>
      let nodes := items.map Item.node
      let pairs := items.map fun item => (item.node, item.image)
      have spells : ∀ pair, pair ∈ pairs →
          pair = (.absent, .absent) ∨ SpellsItem pair.1 pair.2 (room nodes + 5) := by
        intro pair there
        obtain ⟨item, isItem, rfl⟩ := List.mem_map.mp there
        have fits : 10 * item.node.height ≤ room nodes :=
          height_le_room (List.mem_map_of_mem isItem)
        exact .inr ((are item isItem).mono fits).item
      have spelled := spells_array spells
      rw [List.map_map, List.map_map] at spelled
      exact spelled
  | @record entries _ _ are =>
      let nodes := entries.map fun entry => Item.property entry.1 entry.2.node
      let pairs := entries.map fun entry =>
        (Item.property entry.1 entry.2.node, Item.property entry.1 entry.2.image)
      have spells : ∀ pair, pair ∈ pairs → SpellsMember pair.1 pair.2 (room nodes + 5) := by
        intro pair there
        obtain ⟨entry, isEntry, rfl⟩ := List.mem_map.mp there
        have lower : entry.2.node.height < (Item.property entry.1 entry.2.node).height :=
          height_lt_of_mem_unseated (by simp)
        have fits : 10 * (Item.property entry.1 entry.2.node).height ≤ room nodes :=
          height_le_room (List.mem_map_of_mem isEntry)
        exact ((are entry isEntry).mono (by omega)).property (Lexer.lexesAs_encode entry.1)
      have spelled := spells_object spells
      rw [List.map_map, List.map_map] at spelled
      exact spelled

end Printer

end ScriptFold
