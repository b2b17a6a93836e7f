import ScriptFold.Proofs.Reading.Script

/-!
# Patterns

A pattern is a list of elements in brackets or of properties in braces, with names, defaults,
rest elements and further patterns in it.  `IsPart role cost part` says that words can stand in
that role in a pattern, and which node they say, apart from places.  In a declaration every pattern
is read as the node that its words say.
-/

namespace ScriptFold

namespace Node

mutual

/-- A node without places. -/
def unplaced : Node → Node
  | .absent => .absent
  | .leaf token => .leaf { token with place := none }
  | .tree kind flags _ children => .tree kind flags none (unplacedAll children)

/-- Children without places. -/
def unplacedAll : List (Child Node) → List (Child Node)
  | [] => []
  | ⟨_, node⟩ :: rest => ⟨none, unplaced node⟩ :: unplacedAll rest

end

private theorem unplacedAll_seatFrom (index : Nat) (nodes : List Node) :
    unplacedAll (seatFrom index nodes) = unseated (nodes.map unplaced) := by
  induction nodes generalizing index with
  | nil => rfl
  | cons node rest induction =>
      simp only [seatFrom, unplacedAll, induction]
      rfl

@[simp] theorem unplaced_read (kind : Kind) (flags : Flags) (source : Source) (span : Span)
    (nodes : List Node) : (read kind flags source span nodes).unplaced =
      .tree kind flags none (unseated (nodes.map unplaced)) := by
  rw [read, unplaced, unplacedAll_seatFrom]

end Node

namespace Grammar

open Word

/-- A node says what another one says, apart from places. -/
def Says (node value : Node) : Prop :=
  value.unplaced = node

/-- Words are read as an assignment expression that says what a node says. -/
structure Assignable (cost : Nat) (words : List Word) (node : Node) : Prop where
  reads : FormsAssignment (Says node) words cost
  balanced : Balanced words

/-- Words that stand before the colon of a property, and the key that they say. -/
inductive IsKeyPart (cost : Nat) : List Word → Node → Prop
  | name {type : TokenType} (isName : type.isName) (text : Text) :
      IsKeyPart cost [⟨type, text, false⟩] (.word .name text)
  | literal {type : TokenType} (isLiteral : type ∈ [.string, .number, .bigint]) (text : Text) :
      IsKeyPart cost [⟨type, text, false⟩] (.made .literal [.word (literalLeaf type) text])
  | computed {words : List Word} {node : Node} (inner : Assignable cost words node) :
      IsKeyPart cost (indexWords words) (.made .computedKey [node])

/-- Where a part of a pattern stands: alone, or as a target, an element with an optional default,
an item in brackets or a property in braces. -/
inductive PatternRole
  | pattern
  | target
  | element
  | item
  | property
  deriving DecidableEq

/-- A part of a pattern: its words, what they say, and whether no property in it has a default but
no colon. -/
structure Part where
  words : List Word
  node : Node
  plain : Bool

def bindingNode (name : Text) : Node :=
  .made .binding [.word .name name]

/-- A property of a pattern that is only a name, maybe with a default. -/
def shorthandNode (name : Text) (target : Node) : Node :=
  .tree .patternProperty { shorthand := true } none
    (Node.unseated [.word .name name, target])

inductive IsPart : PatternRole → (cost : Nat) → Part → Prop
  | array {cost : Nat} {items : List Part} {trailing : Bool}
      (are : ∀ item, item ∈ items → IsPart .item cost item) :
      IsPart .pattern (cost + 4) ⟨indexWords (joinItems (items.map Part.words) trailing),
        .made .arrayPattern (items.map Part.node), items.all Part.plain⟩
  | object {cost : Nat} {items : List Part} {trailing : Bool}
      (are : ∀ item, item ∈ items → IsPart .property cost item) :
      IsPart .pattern (cost + 4) ⟨braceWords (joinItems (items.map Part.words) trailing),
        .made .objectPattern (items.map Part.node), items.all Part.plain⟩
  | name {cost : Nat} (text : Text) :
      IsPart .target cost ⟨[nameWord text], bindingNode text, true⟩
  | pattern {cost : Nat} {part : Part} (is : IsPart .pattern cost part) : IsPart .target cost part
  | bare {cost : Nat} {part : Part} (is : IsPart .target cost part) : IsPart .element cost part
  | defaulted {cost : Nat} {part : Part} {words : List Word} {node : Node}
      (is : IsPart .target cost part) (default : Assignable cost words node) :
      IsPart .element (cost + 1) ⟨part.words ++ fixed .assign false :: words,
        .made .assignPattern [part.node, node], part.plain⟩
  | hole {cost : Nat} : IsPart .item cost ⟨[], .absent, true⟩
  | element {cost : Nat} {part : Part} (is : IsPart .element cost part) : IsPart .item cost part
  | restItem {cost : Nat} {part : Part} (is : IsPart .target cost part) :
      IsPart .item cost ⟨fixed .ellipsis false :: part.words, .made .rest [part.node], part.plain⟩
  | restProperty {cost : Nat} {part : Part} (is : IsPart .target cost part) :
      IsPart .property cost
        ⟨fixed .ellipsis false :: part.words, .made .rest [part.node], part.plain⟩
  | keyed {cost : Nat} {keyWords : List Word} {key : Node} {part : Part}
      (isKey : IsKeyPart cost keyWords key) (is : IsPart .element cost part) :
      IsPart .property cost ⟨keyWords ++ fixed .colon false :: part.words,
        .made .patternProperty [key, part.node], part.plain⟩
  | shorthand {cost : Nat} (text : Text) :
      IsPart .property cost ⟨[nameWord text], shorthandNode text (bindingNode text), true⟩
  | shorthandDefault {cost : Nat} {words : List Word} {node : Node} (text : Text)
      (default : Assignable cost words node) :
      IsPart .property cost ⟨nameWord text :: fixed .assign false :: words,
        shorthandNode text (.made .assignPattern [bindingNode text, node]), false⟩

section Declaring

variable {cost level : Nat}

theorem Says.read {kind : Kind} {flags : Flags} {source : Source} {span : Span}
    {nodes values : List Node} (areSaid : List.Forall₂ Says nodes values) :
    Says (.tree kind flags none (Node.unseated nodes)) (.read kind flags source span values) := by
  rw [Says, Node.unplaced_read]
  congr 2
  induction areSaid with
  | nil => rfl
  | cons isSaid _ induction => rw [List.map_cons, induction, isSaid]

theorem says_leafOf {type : LeafType} {token : Token} {text : Text} (isText : token.text = text) :
    Says (.word type text) (leafOf type token) := by
  rw [← isText]
  rfl

theorem propertyKey_name {rules : Rules} {token : Token} (isName : token.type.isName)
    (next : Token) (rest : List Token) :
    Steps (propertyKey rules) (token :: next :: rest) (leafOf .name token) (next :: rest) := by
  refine (Steps.current token _).bind ?_
  rw [if_pos isName]
  exact (Steps.advance token next rest).bind (.of_pure _)

/-- A key is read as what it says. -/
theorem IsKeyPart.runs {words : List Word} {key : Node} (isKey : IsKeyPart cost words key)
    {tokens : List Token} {next : Token} {rest : List Token}
    (spelled : Spelled words tokens (next :: rest)) :
    Runs (level < cost + 4) (propertyKey (rulesAt level)) tokens fun value after =>
      Says key value ∧ after = next :: rest := by
  cases isKey with
  | name isName text =>
      obtain ⟨token, _, rfl, isWord, rfl⟩ := spelled
      have isName : token.type.isName := by rwa [isWord.type]
      exact .of_steps (propertyKey_name isName next rest) ⟨says_leafOf isWord.text, rfl⟩
  | @literal type isLiteral text =>
      obtain ⟨token, _, rfl, isWord, rfl⟩ := spelled
      obtain rfl : token.type = type := isWord.type
      have finished : Runs (level < cost + 4) (do
          let _ ← advance
          finish .literal [leafOf (literalLeaf token.type) token] token) (token :: next :: rest)
          fun value after => Says (.made .literal [.word (literalLeaf token.type) text]) value ∧
            after = next :: rest :=
        .step (.advance token next rest) (.finishRead fun source span =>
          ⟨.read (.cons (says_leafOf isWord.text) .nil), rfl⟩)
      refine .step (.current token _) ?_
      simp only [List.mem_cons, List.not_mem_nil, or_false] at isLiteral
      rcases isLiteral with isType | isType | isType <;>
        simp only [isType] at finished ⊢ <;> exact finished
  | computed inner =>
      obtain ⟨opener, others, rfl, isOpener, spelled⟩ := spelled
      obtain ⟨_, innerSpelled, closer, _, rfl, isCloser, rfl⟩ := Spelled.append_iff.mp spelled
      have openType : opener.type = .openBracket := isOpener.type
      have closeType : closer.type = .closeBracket := isCloser.type
      have closes : Next 2 (closer :: next :: rest) := ⟨closer, _, rfl, by rw [closeType]; decide⟩
      have value := inner.reads level others _ innerSpelled closes
      obtain ⟨second, more, rfl⟩ := closes.cons innerSpelled
      refine .step (.current opener _) ?_
      rw [openType]
      refine .step (.advance opener second more) (.bind value.allowingIn ?_)
      rintro result _ ⟨isSaid, rfl⟩
      refine .step (.expect closeType next rest) (.finishRead fun source span => ?_)
      exact ⟨.read (.cons isSaid .nil), rfl⟩

/-- A property of a pattern, or a rest element. -/
def patternMember (rules : Rules) : Reader Node := do
  let first ← current
  if ← accept .ellipsis then restElement rules first else patternProperty rules

/-- How a part of a pattern is read in a declaration. -/
def DeclaredAs (cost : Nat) (part : Part) : PatternRole → Prop
  | .pattern | .target =>
      ∀ level, GivesForm (level < cost + 4) (rulesAt level).target part.words (Says part.node) 3
  | .element =>
      ∀ level, GivesForm (level < cost + 4) (parameter (rulesAt level)) part.words
        (Says part.node) 2
  | .item => Says part.node .absent ∧ part.words = [] ∨
      ∀ level, FormsItem (level < cost + 4) (parameter (rulesAt level)) .closeBracket
        (fun _ => True) (Says part.node) part.words
  | .property =>
      ∀ level, FormsItem (level < cost + 4) (patternMember (rulesAt level)) .closeBrace
        (· ≠ .colon) (Says part.node) part.words

/-- The items of a list, with what they are read as. -/
def formsOf (form : Node → Node → Prop) (items : List Part) :
    List ((Node → Prop) × List Word) :=
  items.map fun item => (form item.node, item.words)

theorem words_formsOf (form : Node → Node → Prop) (items : List Part) :
    (formsOf form items).map Prod.snd = items.map Part.words :=
  List.map_map

theorem forall_formsOf {form : Node → Node → Prop} {items : List Part} {values : List Node}
    (are : List.Forall₂ (fun form value => form value) ((formsOf form items).map Prod.fst) values) :
    List.Forall₂ form (items.map Part.node) values := by
  rw [formsOf, List.map_map, List.forall₂_map_left_iff] at are
  exact List.forall₂_map_left_iff.mpr are

theorem target_name (text : Text) (level : Nat) :
    GivesForm (level < cost + 4) (rulesAt level).target [nameWord text] (Says (bindingNode text))
      3 := by
  rcases level with _ | level
  · exact fun _ _ _ _ => .refused (Nat.succ_pos _)
  · rintro _ rest ⟨token, _, rfl, isName, rfl⟩ ⟨next, following, rfl, _⟩
    have isType : token.type = .ident := isName.type
    refine .step (.current token _) ?_
    rw [isType]
    refine .step (.advance token next following) (.finishRead fun source span => ?_)
    exact ⟨.read (.cons (says_leafOf isName.text) .nil), rfl⟩

/-- Parts in brackets, each read as an item. -/
theorem brackets_runs {deep : Prop} {item : Reader Node} {form : Node → Node → Prop}
    {items : List Part} {trailing : Bool}
    (are : ∀ part, part ∈ items → form part.node .absent ∧ part.words = [] ∨
      FormsItem deep item .closeBracket (fun _ => True) (form part.node) part.words)
    {kind : Kind} {whole : Node → Prop}
    (makes : ∀ source span values, List.Forall₂ form (items.map Part.node) values →
      whole (.read kind {} source span values))
    {tokens : List Token} {next : Token} {rest : List Token}
    (spelled : Spelled (indexWords (joinItems (items.map Part.words) trailing)) tokens
      (next :: rest)) :
    Runs deep (between .openBracket .closeBracket (holedList .closeBracket item) kind) tokens
      fun value after => whole value ∧ after = next :: rest := by
  have reads : ∀ entry, entry ∈ formsOf form items → (entry.1 .absent ∧ entry.2 = []) ∨
      FormsItem deep item .closeBracket (fun _ => True) entry.1 entry.2 := by
    intro entry there
    obtain ⟨part, isPart, rfl⟩ := List.mem_map.mp there
    exact are part isPart
  refine between_runs rfl (fun tokens token rest spelled => ?_)
    (fun source span values areForms => makes source span values (forall_formsOf areForms)) spelled
  rw [← words_formsOf form] at spelled
  exact holedList_forms (by decide) reads trivial trivial spelled

/-- Parts in braces, each read as a property. -/
theorem braces_runs {deep : Prop} {member : Reader Node} {form : Node → Node → Prop}
    {items : List Part} {trailing : Bool}
    (are : ∀ part, part ∈ items →
      FormsItem deep member .closeBrace (· ≠ .colon) (form part.node) part.words)
    {kind : Kind} {whole : Node → Prop}
    (makes : ∀ source span values, List.Forall₂ form (items.map Part.node) values →
      whole (.read kind {} source span values))
    {tokens : List Token} {next : Token} {rest : List Token}
    (spelled : Spelled (braceWords (joinItems (items.map Part.words) trailing)) tokens
      (next :: rest)) :
    Runs deep (between .openBrace .closeBrace (commaList .closeBrace member) kind) tokens
      fun value after => whole value ∧ after = next :: rest := by
  have reads : ∀ entry, entry ∈ formsOf form items →
      FormsItem deep member .closeBrace (· ≠ .colon) entry.1 entry.2 := by
    intro entry there
    obtain ⟨part, isPart, rfl⟩ := List.mem_map.mp there
    exact are part isPart
  refine between_runs rfl (fun tokens token rest spelled => ?_)
    (fun source span values areForms => makes source span values (forall_formsOf areForms)) spelled
  rw [← words_formsOf form] at spelled
  exact commaList_forms reads nofun nofun spelled

theorem target_array {items : List Part} {trailing : Bool}
    (are : ∀ item, item ∈ items → DeclaredAs cost item .item) (level : Nat) :
    GivesForm (level < cost + 4 + 4) (rulesAt level).target
      (indexWords (joinItems (items.map Part.words) trailing))
      (Says (.made .arrayPattern (items.map Part.node))) 3 := by
  rcases level with _ | level
  · exact fun _ _ _ _ => .refused (Nat.succ_pos _)
  · rintro tokens _ spelled ⟨next, rest, rfl, _⟩
    have list : Runs (level < cost + 4) (arrayPattern (rulesAt level)) tokens fun value after =>
        Says (.made .arrayPattern (items.map Part.node)) value ∧ after = next :: rest :=
      brackets_runs (fun item there => (are item there).imp_right fun forms => forms level)
        (fun _ _ _ areSaid => .read areSaid) spelled
    obtain ⟨opener, others, rfl, isOpener, _⟩ := spelled
    have openType : opener.type = .openBracket := isOpener.type
    refine .step (.current opener _) ?_
    rw [openType]
    exact list.mono (fun less => by omega) fun _ _ is => is

theorem target_object {items : List Part} {trailing : Bool}
    (are : ∀ item, item ∈ items → DeclaredAs cost item .property) (level : Nat) :
    GivesForm (level < cost + 4 + 4) (rulesAt level).target
      (braceWords (joinItems (items.map Part.words) trailing))
      (Says (.made .objectPattern (items.map Part.node))) 3 := by
  rcases level with _ | level
  · exact fun _ _ _ _ => .refused (Nat.succ_pos _)
  · rintro tokens _ spelled ⟨next, rest, rfl, _⟩
    have list : Runs (level < cost + 4) (objectPattern (rulesAt level)) tokens fun value after =>
        Says (.made .objectPattern (items.map Part.node)) value ∧ after = next :: rest :=
      braces_runs (fun item there => are item there level) (fun _ _ _ areSaid => .read areSaid)
        spelled
    obtain ⟨opener, others, rfl, isOpener, _⟩ := spelled
    have openType : opener.type = .openBrace := isOpener.type
    refine .step (.current opener _) ?_
    rw [openType]
    exact list.mono (fun less => by omega) fun _ _ is => is

/-- A target, with or without a default, begins with a name or a bracket. -/
theorem IsPart.begins {role : PatternRole} {part : Part} (is : IsPart role cost part)
    (isElement : role ∈ [.pattern, .target, .element]) : ∃ first more,
      part.words = first :: more ∧ first.type ∈ [.ident, .openBracket, .openBrace] := by
  induction is with
  | array | object => exact ⟨_, _, rfl, by decide⟩
  | name => exact ⟨_, _, rfl, by simp [nameWord]⟩
  | pattern _ induction | bare _ induction => exact induction (by decide)
  | defaulted _ _ induction =>
      obtain ⟨first, more, isWords, isOne⟩ := induction (by decide)
      exact ⟨first, _, by rw [isWords, List.cons_append], isOne⟩
  | hole | element | restItem | restProperty | keyed | shorthand | shorthandDefault =>
      simp at isElement

/-- An element does not begin like the end of a list, a hole or a rest element. -/
theorem IsPart.element_begins {part : Part} (is : IsPart .element cost part) : ∃ first more,
    part.words = first :: more ∧ first.type ≠ .closeBracket ∧ first.type ≠ .comma ∧
      first.type ≠ .ellipsis := by
  obtain ⟨first, more, isWords, isOne⟩ := is.begins (by decide)
  refine ⟨first, more, isWords, ?_⟩
  simp only [List.mem_cons, List.not_mem_nil, or_false] at isOne
  rcases isOne with isType | isType | isType <;> simp [isType]

theorem spelled_begins {words more : List Word} {first : Word} {types : List TokenType}
    (isWords : words = first :: more) (isOne : first.type ∈ types) {tokens rest : List Token}
    (spelled : Spelled words tokens rest) :
    ∃ token others, tokens = token :: others ∧ token.type ∈ types := by
  rw [isWords] at spelled
  obtain ⟨token, others, rfl, isFirst, _⟩ := spelled
  exact ⟨token, others, rfl, by rwa [isFirst.type]⟩

private theorem Next.not_assign {tokens : List Token} (next : Next 2 tokens) :
    ∃ token rest, tokens = token :: rest ∧ token.type ≠ .assign := by
  obtain ⟨token, rest, rfl, weak⟩ := next
  refine ⟨token, rest, rfl, fun isAssign => ?_⟩
  rw [isAssign] at weak
  exact absurd weak (by decide)

section Elements

variable {part : Part} {words : List Word} {node : Node}

theorem parameter_bare (is : IsPart .target cost part) (reads : DeclaredAs cost part .target) :
    DeclaredAs cost part .element := by
  intro level tokens rest spelled next
  obtain ⟨first, more, isWords, isOne⟩ := is.begins (by decide)
  obtain ⟨token, others, rfl, isToken⟩ := spelled_begins isWords isOne spelled
  have target := reads level _ rest spelled (next.mono (by decide))
  have notDots : token.type ≠ .ellipsis := by
    intro isDots
    rw [isDots] at isToken
    simp at isToken
  obtain ⟨after, following, rfl, notAssign⟩ := next.not_assign
  refine .step (.current token _) (.step (.not_accept notDots _) (.bind target ?_))
  rintro value _ ⟨isSaid, rfl⟩
  exact .step (.not_accept notAssign _) (.of_pure ⟨isSaid, rfl⟩)

theorem parameter_defaulted (is : IsPart .target cost part)
    (reads : DeclaredAs cost part .target) (default : Assignable cost words node) :
    DeclaredAs (cost + 1) ⟨part.words ++ fixed .assign false :: words,
      .made .assignPattern [part.node, node], part.plain⟩ .element := by
  intro level tokens rest spelled next
  obtain ⟨_, targetSpelled, assign, others, rfl, isAssign, defaultSpelled⟩ :=
    Spelled.append_iff.mp spelled
  have assignType : assign.type = .assign := isAssign.type
  have assignNext : Next 3 (assign :: others) := ⟨assign, others, rfl, by rw [assignType]; decide⟩
  obtain ⟨first, more, isWords, isOne⟩ := is.begins (by decide)
  obtain ⟨token, tail, rfl, isToken⟩ := spelled_begins isWords isOne targetSpelled
  have target := reads level _ _ targetSpelled assignNext
  have value := default.reads level others rest defaultSpelled next
  have notDots : token.type ≠ .ellipsis := by
    intro isDots
    rw [isDots] at isToken
    simp at isToken
  obtain ⟨second, following, rfl⟩ := next.cons defaultSpelled
  refine .step (.current token _) (.step (.not_accept notDots _)
    (.bind (target.mono (fun less => by omega) fun _ _ is => is) ?_))
  rintro targetNode _ ⟨isSaid, rfl⟩
  refine .step (.accept assignType second following)
    (.bind (value.mono (fun less => by omega) fun _ _ is => is) ?_)
  rintro defaultNode _ ⟨isDefault, rfl⟩
  exact .finishRead fun source span => ⟨.read (.cons isSaid (.cons isDefault .nil)), rfl⟩

/-- A reader that goes on in another way after three dots. -/
def afterDots (spread other : Token → Reader Node) : Reader Node := do
  let start ← current
  if ← accept .ellipsis then spread start else other start

/-- A rest element is read as one wherever one can stand. -/
theorem rest_forms {other : Token → Reader Node} {closer : TokenType} {before : TokenType → Prop}
    (isCloser : closer ≠ .ellipsis) (reads : DeclaredAs cost part .target) (level : Nat) :
    FormsItem (level < cost + 4) (afterDots (restElement (rulesAt level)) other) closer before
      (Says (.made .rest [part.node])) (fixed .ellipsis false :: part.words) := by
  refine ⟨⟨_, _, rfl, isCloser.symm, by nofun⟩, ?_⟩
  rintro _ token rest ⟨dots, others, rfl, isDots, spelled⟩ weak _
  have next : Next 3 (token :: rest) := ⟨token, rest, rfl, Nat.le_succ_of_le weak⟩
  have target := reads level _ _ spelled next
  obtain ⟨second, following, rfl⟩ := next.cons spelled
  refine .step (.current dots _) (.step (.accept isDots.type second following) (.bind target ?_))
  rintro value _ ⟨isSaid, rfl⟩
  exact .finishRead fun source span => ⟨.read (.cons isSaid .nil), rfl⟩

theorem declared_element (is : IsPart .element cost part)
    (reads : DeclaredAs cost part .element) : DeclaredAs cost part .item := by
  obtain ⟨first, more, isWords, notCloser, notComma, _⟩ := is.element_begins
  exact .inr fun level => ⟨⟨first, more, isWords, notCloser, notComma⟩,
    fun tokens token rest spelled weak _ =>
      reads level tokens _ spelled ⟨token, rest, rfl, weak⟩⟩

/-- A property of a pattern begins with its key. -/
theorem IsKeyPart.begins {keyWords : List Word} {key : Node} (isKey : IsKeyPart cost keyWords key) :
    ∃ first more, keyWords = first :: more ∧
      (first.type.isName ∨ first.type ∈ [.string, .number, .bigint, .openBracket]) := by
  cases isKey with
  | name isName => exact ⟨_, _, rfl, .inl isName⟩
  | literal isLiteral =>
      refine ⟨_, _, rfl, .inr ?_⟩
      simp only [List.mem_cons, List.not_mem_nil, or_false] at isLiteral ⊢
      rcases isLiteral with isType | isType | isType <;> simp [isType]
  | computed => exact ⟨_, _, rfl, .inr (by decide)⟩

theorem key_not {type : TokenType}
    (isKey : type.isName ∨ type ∈ [.string, .number, .bigint, .openBracket]) :
    type ∉ [.ellipsis, .star, .closeBrace, .comma] := by
  intro among
  simp only [List.mem_cons, List.not_mem_nil, or_false] at among
  rcases among with rfl | rfl | rfl | rfl <;>
    · revert isKey
      decide

theorem declared_keyed {keyWords : List Word} {key : Node} (isKey : IsKeyPart cost keyWords key)
    (reads : DeclaredAs cost part .element) :
    DeclaredAs cost ⟨keyWords ++ fixed .colon false :: part.words,
      .made .patternProperty [key, part.node], part.plain⟩ .property := by
  intro level
  obtain ⟨first, more, isWords, isFirst⟩ := isKey.begins
  have plain := key_not isFirst
  simp only [List.mem_cons, List.not_mem_nil, or_false, not_or] at plain
  refine ⟨⟨first, _, by rw [isWords, List.cons_append], plain.2.2⟩, ?_⟩
  intro tokens after rest spelled weak _
  have next : Next 2 (after :: rest) := ⟨after, rest, rfl, weak⟩
  obtain ⟨_, keySpelled, colon, others, rfl, isColon, valueSpelled⟩ := Spelled.append_iff.mp spelled
  have colonType : colon.type = .colon := isColon.type
  have keyed : Runs (level < cost + 4) (propertyKey (rulesAt level)) tokens _ :=
    isKey.runs keySpelled
  have value := reads level others _ valueSpelled next
  rw [isWords] at keySpelled
  obtain ⟨token, tail, rfl, isToken, _⟩ := keySpelled
  have notDots : token.type ≠ .ellipsis := by
    rw [isToken.type]
    exact plain.1
  obtain ⟨second, following, rfl⟩ := next.cons valueSpelled
  refine .step (.current token _) (.step (.not_accept notDots _) (.step (.current token _)
    (.bind keyed ?_)))
  rintro keyNode _ ⟨isSaid, rfl⟩
  refine .step (.accept colonType second following) (.bind value ?_)
  rintro valueNode _ ⟨isValue, rfl⟩
  exact .finishRead fun source span => ⟨.read (.cons isSaid (.cons isValue .nil)), rfl⟩

theorem nameWord_matches {text : Text} {token : Token} (isToken : (nameWord text).Matches token) :
    token.type.isName ∧ token.type ≠ .ellipsis ∧ token.type ≠ .star := by
  have isIdent : token.type = .ident := isToken.type
  rw [isIdent]
  decide

/-- A property that is a name: the name is its key and its binding. -/
theorem patternMember_named {deep : Prop} {rules : Rules} {text : Text} {token next : Token}
    {rest : List Token} {gives : Node → List Token → Prop} (isToken : (nameWord text).Matches token)
    (notColon : next.type ≠ .colon)
    (goes : ∀ key name, Says (.word .name text) key → Says (bindingNode text) name →
      Runs deep (do
        let target ←
          if ← accept .assign then
            let default ← rules.assignment
            finish .assignPattern [name, default] token
          else
            pure name
        finishWith { shorthand := true } .patternProperty [key, target] token) (next :: rest)
        gives) :
    Runs deep (patternMember rules) (token :: next :: rest) gives := by
  obtain ⟨isName, notDots, _⟩ := nameWord_matches isToken
  have isKey : Says (.word .name text) (leafOf .name token) := says_leafOf isToken.text
  have bound : Runs deep (finish .binding [leafOf .name token] token) (next :: rest)
      fun value after => Says (bindingNode text) value ∧ after = next :: rest :=
    .finishRead fun source span => ⟨.read (.cons isKey .nil), rfl⟩
  refine .step (.current token _) (.step (.not_accept notDots _) (.step (.current token _)
    (.step (propertyKey_name isName next rest) (.step (.not_accept notColon _) (.bind bound ?_)))))
  rintro name _ ⟨isBinding, rfl⟩
  exact goes _ name isKey isBinding

theorem declared_shorthand (text : Text) :
    DeclaredAs cost ⟨[nameWord text], shorthandNode text (bindingNode text), true⟩ .property := by
  refine fun level => ⟨⟨_, _, rfl, by simp [nameWord], by simp [nameWord]⟩, ?_⟩
  rintro _ next rest ⟨token, _, rfl, isToken, rfl⟩ weak notColon
  have notAssign : next.type ≠ .assign := by
    intro isAssign
    rw [isAssign] at weak
    exact absurd weak (by decide)
  refine patternMember_named isToken notColon fun key name isKey isBinding => ?_
  refine .step (.not_accept notAssign _) (.step (.of_pure name) (.finishRead fun source span => ?_))
  exact ⟨.read (.cons isKey (.cons isBinding .nil)), rfl⟩

private theorem declared_shorthandDefault (text : Text) (default : Assignable cost words node) :
    DeclaredAs cost ⟨nameWord text :: fixed .assign false :: words,
      shorthandNode text (.made .assignPattern [bindingNode text, node]), false⟩ .property := by
  refine fun level => ⟨⟨_, _, rfl, by simp [nameWord], by simp [nameWord]⟩, ?_⟩
  rintro _ after rest ⟨token, _, rfl, isToken, assign, others, rfl, isAssign, spelled⟩ weak _
  have assignType : assign.type = .assign := isAssign.type
  have next : Next 2 (after :: rest) := ⟨after, rest, rfl, weak⟩
  have value := default.reads level others _ spelled next
  obtain ⟨second, following, rfl⟩ := next.cons spelled
  refine patternMember_named isToken (by rw [assignType]; decide) fun key name isKey isBinding => ?_
  refine .step (.accept assignType second following) (.bind value ?_)
  rintro defaultNode _ ⟨isDefault, rfl⟩
  have target : Runs (level < cost + 4) (finish .assignPattern [name, defaultNode] token)
      (after :: rest) fun value left =>
        Says (.made .assignPattern [bindingNode text, node]) value ∧ left = after :: rest :=
    .finishRead fun source span => ⟨.read (.cons isBinding (.cons isDefault .nil)), rfl⟩
  refine .bind target ?_
  rintro targetNode _ ⟨isTarget, rfl⟩
  exact .finishRead fun source span => ⟨.read (.cons isKey (.cons isTarget .nil)), rfl⟩

end Elements

/-- A pattern is declared as it is written. -/
theorem IsPart.declared {role : PatternRole} {part : Part} (is : IsPart role cost part) :
    DeclaredAs cost part role := by
  induction is with
  | array _ induction => exact target_array induction
  | object _ induction => exact target_object induction
  | name text => exact target_name text
  | pattern _ induction => exact induction
  | bare is induction => exact parameter_bare is induction
  | defaulted is default induction => exact parameter_defaulted is induction default
  | hole => exact .inl ⟨rfl, rfl⟩
  | element is induction => exact declared_element is induction
  | restItem _ induction => exact .inr fun level => rest_forms (by decide) induction level
  | restProperty _ induction => exact fun level => rest_forms (by decide) induction level
  | keyed isKey _ induction => exact declared_keyed isKey induction
  | shorthand text => exact declared_shorthand text
  | shorthandDefault text default => exact declared_shorthandDefault text default

end Declaring

end Grammar

end ScriptFold
