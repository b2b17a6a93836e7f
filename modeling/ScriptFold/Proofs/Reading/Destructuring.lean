import ScriptFold.Proofs.Reading.Pattern
import ScriptFold.Proofs.Reading.Refusal

/-!
# Patterns before an assignment

Before an assignment a pattern is first read as an expression, which is then taken as a target.
That gives the target that a declaration reads directly, with one exception: an object has no
property that is a name with a default, so a pattern with one in it is not read at all.  The
elements of a pattern are not taken on their own: `TakenBy` keeps the siblings, and the target of
a default is taken twice, once when the assignment is read and once inside of the pattern.
-/

namespace ScriptFold

namespace Grammar

open Word

/-- A node that, inside of a pattern, is taken as a target that says what another one says. -/
def Becomes (node value : Node) : Prop :=
  ∃ target, toTarget true value = .ok target ∧ Says node target

/-- An array or an object that is taken as a pattern, once for all. -/
structure PatternRead (node value : Node) : Prop where
  isLiteral : value.isOneOf [.array, .object]
  becomes : ∀ nested, ∃ target, toTarget nested value = .ok target ∧ Says node target ∧
    toTarget true target = .ok target

/-- What can stand before an assignment inside of a pattern, and can be a target there. -/
structure TargetRead (node value : Node) : Prop where
  isTarget : value.isOneOf [.ident, .array, .object]
  inside : Becomes node value
  outside : ∃ middle, toTarget false value = .ok middle ∧ Becomes node middle

/-- An element of a pattern: a target or an assignment to one. -/
structure ElementRead (node value : Node) : Prop where
  isElement : value.isOneOf [.ident, .array, .object, .assign]
  becomes : Becomes node value

/-- A child that is taken as a part of a pattern, wherever it stands among its siblings. -/
def TakenBy (convert : List (Child Node) → Except ParseError (List Node))
    (node value : Node) : Prop :=
  ∀ seat rest targets, convert rest = .ok targets →
    ∃ target, convert (⟨seat, value⟩ :: rest) = .ok (target :: targets) ∧ Says node target

/-- An item of an array that is taken as one of a pattern. -/
abbrev ItemRead : Node → Node → Prop :=
  TakenBy toElements

/-- A member of an object that is taken as a property of a pattern. -/
abbrev PropertyRead : Node → Node → Prop :=
  TakenBy toProperties

section Conversion

variable {node key default value : Node} {nodes values : List Node} {source : Source} {span : Span}

theorem PatternRead.target (read : PatternRead node value) : TargetRead node value where
  isTarget := by
    have isLiteral := read.isLiteral
    simp only [Node.isOneOf, List.any_cons, List.any_nil, Bool.or_false, Bool.or_eq_true]
      at isLiteral ⊢
    exact .inr isLiteral
  inside := by
    obtain ⟨target, isTarget, isSaid, _⟩ := read.becomes true
    exact ⟨target, isTarget, isSaid⟩
  outside := by
    obtain ⟨target, isTarget, isSaid, stays⟩ := read.becomes false
    exact ⟨target, isTarget, target, stays, isSaid⟩

theorem TargetRead.element (read : TargetRead node value) : ElementRead node value where
  isElement := by
    have isTarget := read.isTarget
    simp only [Node.isOneOf, List.any_cons, List.any_nil, Bool.or_false, Bool.or_eq_true]
      at isTarget ⊢
    rcases isTarget with is | is | is <;> simp [is]
  becomes := read.inside

theorem ElementRead.item (read : ElementRead node value) : ItemRead node value := by
  intro seat rest targets later
  obtain ⟨target, isTarget, isSaid⟩ := read.becomes
  have notSpread : ∀ flags place s inner,
      value = .tree .spread flags place [⟨s, inner⟩] → False := by
    rintro flags place s inner rfl
    cases read.isElement
  refine ⟨target, ?_, isSaid⟩
  rw [toElements.eq_3 _ _ _ notSpread, isTarget, later]
  rfl

theorem ItemRead.absent : ItemRead .absent .absent := by
  intro seat rest targets later
  refine ⟨.absent, ?_, rfl⟩
  rw [toElements.eq_3 seat .absent rest (fun _ _ _ _ same => nomatch same), later]
  rfl

theorem ItemRead.rest (becomes : Becomes node value) :
    ItemRead (.made .rest [node]) (.read .spread {} source span [value]) := by
  intro seat rest targets later
  obtain ⟨target, isTarget, isSaid⟩ := becomes
  refine ⟨.read .rest {} source span [target], ?_, .read (.cons isSaid .nil)⟩
  rw [Node.read, Node.seatFrom, Node.seatFrom, toElements.eq_2, isTarget, later]
  rfl

theorem PropertyRead.rest (becomes : Becomes node value) :
    PropertyRead (.made .rest [node]) (.read .spread {} source span [value]) := by
  intro seat rest targets later
  obtain ⟨target, isTarget, isSaid⟩ := becomes
  refine ⟨.read .rest {} source span [target], ?_, .read (.cons isSaid .nil)⟩
  rw [Node.read, Node.seatFrom, Node.seatFrom, toProperties, isTarget, later]
  rfl

theorem PropertyRead.keyed {keyNode : Node} (isKey : Says key keyNode)
    (becomes : Becomes node value) :
    PropertyRead (.made .patternProperty [key, node])
      (.read .property {} source span [keyNode, value]) := by
  intro seat rest targets later
  obtain ⟨target, isTarget, isSaid⟩ := becomes
  refine ⟨.read .patternProperty {} source span [keyNode, target], ?_,
    .read (.cons isKey (.cons isSaid .nil))⟩
  rw [Node.read, Node.seatFrom, Node.seatFrom, Node.seatFrom, toProperties, isTarget, later]
  rfl

theorem PropertyRead.shorthand {text : Text} {name : Node} (isName : Says (.word .name text) name)
    {identSource : Source} {identSpan : Span} :
    PropertyRead (shorthandNode text (bindingNode text))
      (.read .shorthandProperty {} source span [.read .ident {} identSource identSpan [name]]) := by
  intro seat rest targets later
  let binding := Node.read .binding {} identSource identSpan [name]
  refine ⟨.read .patternProperty { shorthand := true } source span [name, binding], ?_,
    .read (.cons isName (.cons (.read (.cons isName .nil)) .nil))⟩
  rw [Node.read, Node.seatFrom, Node.seatFrom, toProperties, later]
  rfl

theorem convert_of_forall {convert : List (Child Node) → Except ParseError (List Node)}
    (none : convert [] = .ok []) (are : List.Forall₂ (TakenBy convert) nodes values)
    (index : Nat) :
    ∃ targets, convert (Node.seatFrom index values) = .ok targets ∧
      List.Forall₂ Says nodes targets := by
  induction are generalizing index with
  | nil => exact ⟨[], none, .nil⟩
  | cons isTaken _ induction =>
      obtain ⟨targets, areTargets, areSaid⟩ := induction (index + 1)
      obtain ⟨target, isTargets, isSaid⟩ := isTaken (some index) _ _ areTargets
      exact ⟨target :: targets, isTargets, .cons isSaid areSaid⟩

theorem PatternRead.array (are : List.Forall₂ ItemRead nodes values) :
    PatternRead (.made .arrayPattern nodes) (.read .array {} source span values) where
  isLiteral := rfl
  becomes nested := by
    obtain ⟨targets, areTargets, areSaid⟩ := convert_of_forall rfl are 0
    refine ⟨.read .arrayPattern {} source span targets, ?_, .read areSaid, rfl⟩
    rw [Node.read, toTarget, areTargets]
    rfl

theorem PatternRead.object (are : List.Forall₂ PropertyRead nodes values) :
    PatternRead (.made .objectPattern nodes) (.read .object {} source span values) where
  isLiteral := rfl
  becomes nested := by
    obtain ⟨targets, areTargets, areSaid⟩ := convert_of_forall rfl are 0
    refine ⟨.read .objectPattern {} source span targets, ?_, .read areSaid, rfl⟩
    rw [Node.read, toTarget, areTargets]
    rfl

theorem TargetRead.name {text : Text} {name : Node} (isName : Says (.word .name text) name) :
    TargetRead (bindingNode text) (.read .ident {} source span [name]) := by
  have inside : Becomes (bindingNode text) (.read .ident {} source span [name]) :=
    ⟨.read .binding {} source span [name], rfl, .read (.cons isName .nil)⟩
  exact ⟨rfl, inside, _, rfl, inside⟩

/-- A default: an assignment to what is taken as a target, with a plain operator. -/
theorem ElementRead.defaulted {left right : Node} {op : Token} (isOp : op.text = Text.ofString "=")
    (becomes : Becomes node left) (isSaid : Says default right) :
    ElementRead (.made .assignPattern [node, default])
      (.read .assign {} source span [left, leafOf .assignOp op, right]) where
  isElement := rfl
  becomes := by
    obtain ⟨target, isTarget, isNode⟩ := becomes
    refine ⟨.read .assignPattern {} source span [target, right], ?_,
      .read (.cons isNode (.cons isSaid .nil))⟩
    have isPlain : (true && ((leafOf .assignOp op).leafText?.any fun text => text.isString "=")) =
        true := by
      rw [leafOf, isOp]
      rfl
    rw [Node.read, Node.seatFrom, Node.seatFrom, Node.seatFrom, Node.seatFrom, toTarget]
    rw [if_pos isPlain, isTarget]
    rfl

end Conversion

/-- How a part of a pattern is read before an assignment, and what it is taken as. -/
def AssignedAs (cost : Nat) (part : Part) : PatternRole → Prop
  | .pattern => FormsPrimary (PatternRead part.node) part.words cost
  | .target => FormsPrimary (TargetRead part.node) part.words cost
  | .element => FormsAssignment (ElementRead part.node) part.words cost
  | .item => ItemRead part.node .absent ∧ part.words = [] ∨
      ∀ level, FormsItem (level < cost + 4) (spreadable (rulesAt level)) .closeBracket
        (fun _ => True) (ItemRead part.node) part.words
  | .property =>
      ∀ level, FormsItem (level < cost + 4) (objectMember (rulesAt level)) .closeBrace
        (· ≠ .colon) (PropertyRead part.node) part.words

section Assigning

variable {cost : Nat} {part : Part} {words : List Word} {node : Node}

theorem forms_arrayLiteral {items : List Part} {trailing : Bool}
    (are : ∀ item, item ∈ items → AssignedAs cost item .item) :
    FormsPrimary (PatternRead (.made .arrayPattern (items.map Part.node)))
      (indexWords (joinItems (items.map Part.words) trailing)) (cost + 4) := by
  rintro level tokens _ spelled ⟨next, rest, rfl, _⟩
  have list : Runs (level < cost + 4) (arrayLiteral (rulesAt level)) tokens fun value after =>
      PatternRead (.made .arrayPattern (items.map Part.node)) value ∧ after = next :: rest :=
    brackets_runs (fun item there => (are item there).imp_right fun forms => forms level)
      (fun _ _ _ areRead => .array areRead) spelled
  obtain ⟨opener, others, rfl, isOpener, _⟩ := spelled
  have openType : opener.type = .openBracket := isOpener.type
  refine .step (.current opener _) ?_
  rw [openType]
  exact list

theorem forms_objectLiteral {items : List Part} {trailing : Bool}
    (are : ∀ item, item ∈ items → AssignedAs cost item .property) :
    FormsPrimary (PatternRead (.made .objectPattern (items.map Part.node)))
      (braceWords (joinItems (items.map Part.words) trailing)) (cost + 4) := by
  rintro level tokens _ spelled ⟨next, rest, rfl, _⟩
  have list : Runs (level < cost + 4) (objectLiteral (rulesAt level)) tokens fun value after =>
      PatternRead (.made .objectPattern (items.map Part.node)) value ∧ after = next :: rest :=
    braces_runs (fun item there => are item there level) (fun _ _ _ areRead => .object areRead)
      spelled
  obtain ⟨opener, others, rfl, isOpener, _⟩ := spelled
  have openType : opener.type = .openBrace := isOpener.type
  refine .step (.current opener _) ?_
  rw [openType]
  exact list

theorem FormsPrimary.imp {form other : Node → Prop} (reads : FormsPrimary form words cost)
    (implies : ∀ value, form value → other value) : FormsPrimary other words cost :=
  fun level => (reads level).mono implies

theorem FormsAssignment.imp {form other : Node → Prop} (reads : FormsAssignment form words cost)
    (implies : ∀ value, form value → other value) : FormsAssignment other words cost :=
  fun level => (reads level).mono implies

theorem forms_targetName (text : Text) :
    FormsPrimary (TargetRead (bindingNode text)) [nameWord text] cost := by
  apply FormsPrimary.imp (forms_name text cost)
  rintro _ ⟨source, span, token, isText, rfl⟩
  exact .name (says_leafOf isText)

/-- A target does not begin like an arrow function. -/
theorem IsPart.opens (is : IsPart .target cost part) : Opens part.words := by
  cases is with
  | name text => exact .name rfl .nil
  | pattern is =>
      cases is with
      | array | object => exact .other (by nofun) (by nofun)

theorem IsPart.chain {form : Node → Prop} (is : IsPart .target cost part)
    (reads : FormsPrimary form part.words cost) : FormsChain form part.words true 19 cost := by
  obtain ⟨first, more, isWords, isOne⟩ := is.begins (by decide)
  refine reads.chain isWords (fun isNew => ?_) true
  rw [isNew] at isOne
  simp at isOne

theorem IsPart.begins_chain (is : IsPart .target cost part) : ∃ first more,
    part.words = first :: more ∧ startsChain first.type := by
  obtain ⟨first, more, isWords, isOne⟩ := is.begins (by decide)
  refine ⟨first, more, isWords, ?_⟩
  simp only [List.mem_cons, List.not_mem_nil, or_false] at isOne
  rcases isOne with isType | isType | isType <;> rw [isType] <;> rfl

/-- A target is read where an assignment expression can stand. -/
theorem IsPart.assignment {form : Node → Prop} (is : IsPart .target cost part)
    (reads : FormsPrimary form part.words cost) : FormsAssignment form part.words cost := by
  obtain ⟨first, more, isWords, starts⟩ := is.begins_chain
  exact (is.chain reads).assignment is.opens isWords starts

/-- An assignment with a plain operator, as it is read. -/
def IsAssignmentRead (target value : Node → Prop) (node : Node) : Prop :=
  ∃ source span left op right, target left ∧ op.text = Text.ofString "=" ∧ value right ∧
    node = .read .assign {} source span [left, leafOf .assignOp op, right]

theorem IsAssignmentRead.says {target value : Node}
    (read : IsAssignmentRead (Says target) (Says value) node) :
    Says (.made .assign [target, .word .assignOp (Text.ofString "="), value]) node := by
  obtain ⟨source, span, left, op, right, isTarget, isOp, isSaid, rfl⟩ := read
  exact .read (.cons isTarget (.cons (says_leafOf isOp) (.cons isSaid .nil)))

/-- A target, an assignment operator and a value are read as an assignment. -/
theorem IsPart.assign {form aim : Node → Prop} (is : IsPart .target cost part)
    (reads : FormsPrimary form part.words cost)
    (takes : ∀ value, form value → ∃ target, toTarget false value = .ok target ∧ aim target)
    (value : Assignable cost words node) :
    FormsAssignment (IsAssignmentRead aim (Says node)) (part.words ++ fixed .assign false :: words)
      (cost + 1) := by
  obtain ⟨first, more, isWords, starts⟩ := is.begins_chain
  have left : FormsBinary form part.words 20 cost :=
    ((is.chain reads).unary (by decide) isWords starts).binary
  have opens : Opens (part.words ++ fixed .assign false :: words) :=
    is.opens.append (.link (by decide))
  rintro (_ | level) tokens rest spelled next
  · exact .refused (Nat.succ_pos _)
  have notArrow := opens.not_arrow spelled (next.noArrow (by decide))
  obtain ⟨_, leftSpelled, op, others, rfl, isOp, rightSpelled⟩ := Spelled.append_iff.mp spelled
  have opType : op.type = .assign := isOp.type
  have opNext : Next 3 (op :: others) := ⟨op, others, rfl, by rw [opType]; decide⟩
  have leftValue := left.conditional (by decide) level tokens _ leftSpelled opNext
  have rightValue := value.reads level others rest rightSpelled next
  obtain ⟨second, following, rfl⟩ := next.cons rightSpelled
  rw [isWords] at leftSpelled
  obtain ⟨start, tail, rfl, isFirst, _⟩ := leftSpelled
  have notYield : start.type ≠ .kwYield := by
    intro isYield
    rw [← isFirst.type, isYield] at starts
    cases starts
  refine .step (.current start tail) ?_
  rw [if_neg notYield]
  refine .step notArrow (.bind (leftValue.mono (fun less => by omega) fun _ _ is => is) ?_)
  rintro leftNode _ ⟨isForm, rfl⟩
  obtain ⟨target, isTarget, isAim⟩ := takes leftNode isForm
  refine .step (.current op _) ?_
  rw [opType]
  refine .step (.advance op second following) ?_
  have taken : Steps (asTarget leftNode) (second :: following) target (second :: following) := by
    rw [asTarget, isTarget]
    exact .of_pure target
  refine .step taken (.bind (rightValue.mono (fun less => by omega) fun _ _ is => is) ?_)
  rintro rightNode _ ⟨isSaid, rfl⟩
  exact .finishRead fun source span =>
    ⟨⟨source, span, target, op, rightNode, isAim, isOp.text, isSaid, rfl⟩, rfl⟩

theorem forms_bare (is : IsPart .target cost part) (reads : AssignedAs cost part .target) :
    AssignedAs cost part .element :=
  (is.assignment reads).imp fun _ read => read.element

theorem forms_defaulted (is : IsPart .target cost part) (reads : AssignedAs cost part .target)
    (default : Assignable cost words node) :
    AssignedAs (cost + 1) ⟨part.words ++ fixed .assign false :: words,
      .made .assignPattern [part.node, node], part.plain⟩ .element := by
  have assigned := is.assign reads (fun _ read => read.outside) default
  apply assigned.imp
  rintro _ ⟨source, span, left, op, right, becomes, isOp, isSaid, rfl⟩
  exact .defaulted isOp becomes isSaid

theorem forms_item (is : IsPart .element cost part) (reads : AssignedAs cost part .element) :
    AssignedAs cost part .item := by
  obtain ⟨first, more, isWords, notCloser, notComma, notDots⟩ := is.element_begins
  refine .inr fun level => ⟨⟨first, more, isWords, notCloser, notComma⟩, ?_⟩
  intro tokens token rest spelled weak _
  have value := FormsAssignment.spreadable reads isWords notDots level tokens _ spelled
    ⟨token, rest, rfl, weak⟩
  exact value.mono id fun _ _ isRead => ⟨isRead.1.item, isRead.2⟩

/-- What is spread, after its dots. -/
def spread (rules : Rules) (start : Token) : Reader Node := do
  let value ← rules.assignment
  finish .spread [value] start

/-- What is spread is a rest element. -/
theorem spread_forms {other : Token → Reader Node} {closer : TokenType}
    {before : TokenType → Prop} (isCloser : closer ≠ .ellipsis) (is : IsPart .target cost part)
    (reads : AssignedAs cost part .target) {form : Node → Prop}
    (takes : ∀ source span value, Becomes part.node value →
      form (.read .spread {} source span [value])) (level : Nat) :
    FormsItem (level < cost + 4) (afterDots (spread (rulesAt level)) other) closer before form
      (fixed .ellipsis false :: part.words) := by
  refine ⟨⟨_, _, rfl, isCloser.symm, by nofun⟩, ?_⟩
  rintro _ token rest ⟨dots, others, rfl, isDots, spelled⟩ weak _
  have next : Next 2 (token :: rest) := ⟨token, rest, rfl, weak⟩
  have value := is.assignment reads level others _ spelled next
  obtain ⟨second, following, rfl⟩ := next.cons spelled
  refine .step (.current dots _) (.step (.accept isDots.type second following) (.bind value ?_))
  rintro result _ ⟨isRead, rfl⟩
  exact .finishRead fun source span => ⟨takes source span result isRead.inside, rfl⟩

/-- `async`, `get` and `set` are names unless a key comes after them. -/
theorem modifiers_none {token next : Token} (notStar : token.type ≠ .star)
    (notKey : token.type = .ident → isKeyStart next = false) (rest : List Token) :
    Steps modifiers (token :: next :: rest) ⟨"method", false, false⟩ (token :: next :: rest) := by
  have unnamed : ∀ name, (token.isNamed name && isKeyStart next) = false := by
    intro name
    by_cases isName : token.type = .ident
    · rw [notKey isName, Bool.and_false]
    · rw [Token.isNamed, beq_false_of_ne isName, Bool.false_and, Bool.false_and]
  refine (Steps.current token _).bind ((Steps.peek token next rest).bind ?_)
  simp only [Bool.and_or_distrib_right, unnamed, Bool.false_and, Bool.or_self, Bool.false_eq_true,
    if_false]
  exact (Steps.not_accept notStar _).bind (.of_pure _)

theorem IsKeyPart.modifiers {keyWords : List Word} {key : Node}
    (isKey : IsKeyPart cost keyWords key)
    {tokens : List Token} {colon : Token} {rest : List Token} (isColon : colon.type = .colon)
    (spelled : Spelled keyWords tokens (colon :: rest)) :
    Steps modifiers tokens ⟨"method", false, false⟩ tokens := by
  have notKey : isKeyStart colon = false := by
    rw [isKeyStart, isColon]
    rfl
  obtain ⟨first, more, isWords, isFirst⟩ := isKey.begins
  have notStar : first.type ≠ .star := fun isStar => key_not isFirst (by simp [isStar])
  cases isKey with
  | name | literal =>
      obtain ⟨token, _, rfl, isToken, rfl⟩ := spelled
      cases isWords
      exact modifiers_none (isToken.type ▸ notStar) (fun _ => notKey) rest
  | computed =>
      obtain ⟨token, others, rfl, isToken, spelled⟩ := spelled
      have isOpen : token.type = .openBracket := isToken.type
      obtain ⟨next, following, rfl⟩ := (Next.cons ⟨colon, rest, rfl, Nat.le_refl _⟩ spelled)
      refine modifiers_none (by rw [isOpen]; nofun) (fun isName => ?_) following
      rw [isOpen] at isName
      cases isName

/-- Tokens that end an item begin no key. -/
theorem weak_plain {token : Token} (weak : strength token.type ≤ 2) :
    isKeyStart token = false ∧ token.type ≠ .openParen := by
  unfold isKeyStart
  revert weak
  cases token.type <;> decide

theorem forms_keyed {keyWords : List Word} {key : Node} (isKey : IsKeyPart cost keyWords key)
    (reads : AssignedAs cost part .element) :
    AssignedAs cost ⟨keyWords ++ fixed .colon false :: part.words,
      .made .patternProperty [key, part.node], part.plain⟩ .property := by
  intro level
  obtain ⟨first, more, isWords, isFirst⟩ := isKey.begins
  have plain := key_not isFirst
  simp only [List.mem_cons, List.not_mem_nil, or_false, not_or] at plain
  refine ⟨⟨first, _, by rw [isWords, List.cons_append], plain.2.2⟩, ?_⟩
  intro tokens after rest spelled weak _
  have next : Next 2 (after :: rest) := ⟨after, rest, rfl, weak⟩
  obtain ⟨_, keySpelled, colon, others, rfl, isColon, valueSpelled⟩ := Spelled.append_iff.mp spelled
  have colonType : colon.type = .colon := isColon.type
  have keyed : Runs (level < cost + 4) (propertyKey (rulesAt level)) tokens _ :=
    isKey.runs keySpelled
  have value := reads level others _ valueSpelled next
  have noModifiers := isKey.modifiers colonType keySpelled
  rw [isWords] at keySpelled
  obtain ⟨token, tail, rfl, isToken, _⟩ := keySpelled
  have notDots : token.type ≠ .ellipsis := by
    rw [isToken.type]
    exact plain.1
  obtain ⟨second, following, rfl⟩ := next.cons valueSpelled
  refine .step (.current token _) (.step (.not_accept notDots _) (.step noModifiers
    (.bind keyed ?_)))
  rintro keyNode _ ⟨isSaid, rfl⟩
  refine .step (.check _ colon _) ?_
  rw [not_contains_of_ne (by rw [colonType]; nofun)]
  refine .step (.accept colonType second following) (.bind value ?_)
  rintro valueNode _ ⟨isRead, rfl⟩
  exact .finishRead fun source span => ⟨.keyed isSaid isRead.becomes, rfl⟩

theorem forms_shorthand (text : Text) :
    AssignedAs cost ⟨[nameWord text], shorthandNode text (bindingNode text), true⟩ .property := by
  refine fun level => ⟨⟨_, _, rfl, by simp [nameWord], by simp [nameWord]⟩, ?_⟩
  rintro _ next rest ⟨token, _, rfl, isToken, rfl⟩ weak notColon
  obtain ⟨isName, notDots, notStar⟩ := nameWord_matches isToken
  have plain := weak_plain weak
  have isKey : Says (.word .name text) (leafOf .name token) := says_leafOf isToken.text
  refine .step (.current token _) (.step (.not_accept notDots _)
    (.step (modifiers_none notStar (fun _ => plain.1) rest)
      (.step (propertyKey_name isName next rest) (.step (.check _ next _) ?_))))
  rw [not_contains_of_ne plain.2]
  refine .step (.not_accept notColon _) ?_
  have ident : Runs (level < cost + 4) (finish .ident [leafOf .name token] token) (next :: rest)
      fun value after => (∃ source span, value = .read .ident {} source span [leafOf .name token]) ∧
        after = next :: rest :=
    .finishRead fun source span => ⟨⟨source, span, rfl⟩, rfl⟩
  refine .bind ident ?_
  rintro _ _ ⟨⟨source, span, rfl⟩, rfl⟩
  exact .finishRead fun source span => ⟨.shorthand isKey, rfl⟩

/-- A pattern without shorthand defaults is read before an assignment, and taken as it is
written. -/
theorem IsPart.assigned {role : PatternRole} (is : IsPart role cost part)
    (isPlain : part.plain = true) : AssignedAs cost part role := by
  induction is with
  | array _ induction =>
      exact forms_arrayLiteral fun item there =>
        induction item there (List.all_eq_true.mp isPlain item there)
  | object _ induction =>
      exact forms_objectLiteral fun item there =>
        induction item there (List.all_eq_true.mp isPlain item there)
  | name text => exact forms_targetName text
  | pattern _ induction => exact (induction isPlain).imp fun _ read => read.target
  | bare is induction => exact forms_bare is (induction isPlain)
  | defaulted is default induction => exact forms_defaulted is (induction isPlain) default
  | hole => exact .inl ⟨.absent, rfl⟩
  | element is induction => exact forms_item is (induction isPlain)
  | restItem is induction =>
      exact .inr fun level =>
        spread_forms (by decide) is (induction isPlain) (fun _ _ _ becomes => .rest becomes) level
  | restProperty is induction =>
      exact fun level =>
        spread_forms (by decide) is (induction isPlain) (fun _ _ _ becomes => .rest becomes) level
  | keyed isKey _ induction => exact forms_keyed isKey (induction isPlain)
  | shorthand text => exact forms_shorthand text
  | shorthandDefault => cases isPlain

end Assigning

/-- How a part of a pattern is missed before an assignment. -/
def MissedAs (part : Part) : PatternRole → Prop
  | .pattern | .target =>
      ∀ level tokens rest, Spelled part.words tokens rest → Fails (primary (rulesAt level)) tokens
  | .element =>
      ∀ level tokens rest, Spelled part.words tokens rest → Fails (rulesAt level).assignment tokens
  | .item => ∀ level, MissesItem (spreadable (rulesAt level)) .closeBracket part.words
  | .property => ∀ level, MissesItem (objectMember (rulesAt level)) .closeBrace part.words

section Misses

variable {cost : Nat} {part : Part} {words : List Word} {node : Node} {items : List Part}

theorem exists_missed {misses : Part → Prop} (some : items.all Part.plain = false)
    (missed : ∀ item, item ∈ items → item.plain = false → misses item) :
    ∃ item, item ∈ items ∧ misses item := by
  obtain ⟨item, there, notPlain⟩ := List.all_eq_false.mp some
  exact ⟨item, there, missed item there (Bool.not_eq_true _ |>.mp notPlain)⟩

theorem missed_array (are : ∀ item, item ∈ items → IsPart .item cost item)
    (missed : ∀ item, item ∈ items → item.plain = false → MissedAs item .item)
    (some : items.all Part.plain = false) (trailing : Bool) :
    MissedAs ⟨indexWords (joinItems (items.map Part.words) trailing),
      .made .arrayPattern (items.map Part.node), false⟩ .pattern := by
  intro level tokens rest spelled
  have literal : Fails (arrayLiteral (rulesAt level)) tokens := by
    refine @between_fails .closeBracket .openBracket (by decide) _ _ _
      (fun tokens next rest spelled => ?_) tokens rest spelled
    refine @holedList_misses (spreadable (rulesAt level)) .closeBracket (fun _ => True)
      (level < cost + 4) (by decide) _ _ trivial ?_ ?_ _ _ _ spelled
    · intro words there
      obtain ⟨item, isItem, rfl⟩ := List.mem_map.mp there
      cases isPlain : item.plain with
      | true =>
          rcases (are item isItem).assigned isPlain with ⟨_, noWords⟩ | forms
          · exact .inl noWords
          · exact .inr (.inl ⟨_, forms level⟩)
      | false => exact .inr (.inr (missed item isItem isPlain level))
    · obtain ⟨item, isItem, isMissed⟩ := exists_missed some missed
      exact ⟨_, List.mem_map_of_mem isItem, isMissed level⟩
  obtain ⟨opener, others, rfl, isOpener, _⟩ := spelled
  have openType : opener.type = .openBracket := isOpener.type
  refine .step (.current opener _) ?_
  rw [openType]
  exact literal

theorem missed_object (are : ∀ item, item ∈ items → IsPart .property cost item)
    (missed : ∀ item, item ∈ items → item.plain = false → MissedAs item .property)
    (some : items.all Part.plain = false) (trailing : Bool) :
    MissedAs ⟨braceWords (joinItems (items.map Part.words) trailing),
      .made .objectPattern (items.map Part.node), false⟩ .pattern := by
  intro level tokens rest spelled
  have literal : Fails (objectLiteral (rulesAt level)) tokens := by
    refine @between_fails .closeBrace .openBrace (by decide) _ _ _
      (fun tokens next rest spelled => ?_) tokens rest spelled
    refine @commaList_misses (objectMember (rulesAt level)) .closeBrace (· ≠ .colon)
      (level < cost + 4) _ _ nofun ?_ ?_ _ _ _ spelled
    · intro words there
      obtain ⟨item, isItem, rfl⟩ := List.mem_map.mp there
      cases isPlain : item.plain with
      | true => exact .inl ⟨_, (are item isItem).assigned isPlain level⟩
      | false => exact .inr (missed item isItem isPlain level)
    · obtain ⟨item, isItem, isMissed⟩ := exists_missed some missed
      exact ⟨_, List.mem_map_of_mem isItem, isMissed level⟩
  obtain ⟨opener, others, rfl, isOpener, _⟩ := spelled
  have openType : opener.type = .openBrace := isOpener.type
  refine .step (.current opener _) ?_
  rw [openType]
  exact literal

/-- A target that is missed begins with a bracket or a brace. -/
theorem IsPart.missed_begins (is : IsPart .target cost part) (notPlain : part.plain = false) :
    ∃ first more, part.words = first :: more ∧ first.type ∈ [.openBracket, .openBrace] := by
  cases is with
  | name => cases notPlain
  | pattern is =>
      cases is with
      | array | object => exact ⟨_, _, rfl, by decide⟩

/-- A target that is missed is missed where an assignment expression can stand, whatever comes
after it. -/
theorem IsPart.assignment_fails (is : IsPart .target cost part) (notPlain : part.plain = false)
    (missed : MissedAs part .target) (level : Nat) {tokens rest : List Token}
    (spelled : Spelled part.words tokens rest) : Fails (rulesAt level).assignment tokens := by
  obtain ⟨first, more, isWords, isOne⟩ := is.missed_begins notPlain
  have fails := fun level => missed level _ _ spelled
  obtain ⟨token, others, rfl, isToken⟩ := spelled_begins isWords isOne spelled
  have plain : startsChain token.type ∧ token.type ≠ .kwNew ∧ token.type ≠ .ident ∧
      token.type ≠ .openParen := by
    simp only [List.mem_cons, List.not_mem_nil, or_false] at isToken
    rcases isToken with isType | isType <;> rw [isType] <;> decide
  have notArrow : Steps isArrowStart (token :: others) false (token :: others) := by
    have steps := isArrowStart_steps (token :: others)
    rw [asyncAt_of_not_name plain.2.2.1] at steps
    rwa [if_neg (by nofun), arrowFrom_other plain.2.2.1 plain.2.2.2] at steps
  exact Grammar.assignment_fails plain.1 plain.2.1 notArrow fails level

theorem missed_item (is : IsPart .element cost part) (missed : MissedAs part .element) :
    MissedAs part .item := by
  obtain ⟨first, more, isWords, notCloser, notComma, firstNotDots⟩ := is.element_begins
  refine fun level => ⟨⟨first, more, isWords, notCloser, notComma⟩, ?_⟩
  intro tokens next rest spelled
  have fails := missed level tokens _ spelled
  rw [isWords] at spelled
  obtain ⟨token, others, rfl, isToken, _⟩ := spelled
  have notDots : token.type ≠ .ellipsis := by
    rw [isToken.type]
    exact firstNotDots
  exact .step (.current token others) (.step (.not_accept notDots others) fails.leaves)

/-- What cannot be read is not spread either. -/
theorem spread_misses {other : Token → Reader Node} {closer : TokenType}
    (isCloser : closer ≠ .ellipsis) (is : IsPart .target cost part) (notPlain : part.plain = false)
    (missed : MissedAs part .target) (level : Nat) :
    MissesItem (afterDots (spread (rulesAt level)) other) closer
      (fixed .ellipsis false :: part.words) := by
  refine ⟨⟨_, _, rfl, isCloser.symm, by nofun⟩, ?_⟩
  rintro _ next rest ⟨dots, others, rfl, isDots, spelled⟩
  have fails := is.assignment_fails notPlain missed level spelled
  obtain ⟨second, following, rfl⟩ := Next.cons ⟨next, rest, rfl, Nat.le_refl _⟩ spelled
  exact .step (.current dots _) (.step (.accept isDots.type second following) (fails.bind _))

theorem missed_keyed {keyWords : List Word} {key : Node} (isKey : IsKeyPart cost keyWords key)
    (missed : MissedAs part .element) :
    MissedAs ⟨keyWords ++ fixed .colon false :: part.words,
      .made .patternProperty [key, part.node], part.plain⟩ .property := by
  intro level
  obtain ⟨first, more, isWords, isFirst⟩ := isKey.begins
  have plain := key_not isFirst
  simp only [List.mem_cons, List.not_mem_nil, or_false, not_or] at plain
  refine ⟨⟨first, _, by rw [isWords, List.cons_append], plain.2.2⟩, ?_⟩
  intro tokens next rest spelled
  obtain ⟨_, keySpelled, colon, others, rfl, isColon, valueSpelled⟩ := Spelled.append_iff.mp spelled
  have colonType : colon.type = .colon := isColon.type
  have keyed : Runs (level < cost + 4) (propertyKey (rulesAt level)) tokens _ :=
    isKey.runs keySpelled
  have fails := missed level others _ valueSpelled
  have noModifiers := isKey.modifiers colonType keySpelled
  rw [isWords] at keySpelled
  obtain ⟨token, tail, rfl, isToken, _⟩ := keySpelled
  have notDots : token.type ≠ .ellipsis := by
    rw [isToken.type]
    exact plain.1
  obtain ⟨second, following, rfl⟩ := Next.cons ⟨next, rest, rfl, Nat.le_refl _⟩ valueSpelled
  refine .step (.current token _) (.step (.not_accept notDots _) (.step noModifiers
    (.bind (.of_runs keyed) ?_)))
  rintro keyNode _ ⟨_, rfl⟩
  refine .step (.check _ colon _) ?_
  rw [not_contains_of_ne (by rw [colonType]; nofun)]
  exact .step (.accept colonType second following) (fails.bind _)

/-- A name with a default but no colon is read as the name alone. -/
theorem missed_shorthandDefault (text : Text) (target : Node) :
    MissedAs ⟨nameWord text :: fixed .assign false :: words, target, false⟩ .property := by
  refine fun level => ⟨⟨_, _, rfl, by simp [nameWord], by simp [nameWord]⟩, ?_⟩
  rintro _ next rest ⟨token, _, rfl, isToken, assign, others, rfl, isAssign, _⟩
  obtain ⟨isName, notDots, notStar⟩ := nameWord_matches isToken
  have assignType : assign.type = .assign := isAssign.type
  have notKey : isKeyStart assign = false := by
    rw [isKeyStart, assignType]
    rfl
  refine .step (.current token _) (.step (.not_accept notDots _)
    (.step (modifiers_none notStar (fun _ => notKey) others)
      (.step (propertyKey_name isName assign others) (.step (.check _ assign _) ?_))))
  rw [not_contains_of_ne (by rw [assignType]; decide)]
  refine .step (.not_accept (by rw [assignType]; decide) _) ?_
  have ident : Runs False (finish .ident [leafOf .name token] token) (assign :: others)
      fun _ after => after = assign :: others :=
    .finishRead fun _ _ => rfl
  refine .bind (.of_runs ident) ?_
  rintro identNode _ rfl
  have property : Runs False (finish .shorthandProperty [identNode] token) (assign :: others)
      AtAssign :=
    .finishRead fun _ _ => ⟨assign, others, rfl, assignType⟩
  exact .of_runs property

/-- A pattern with a shorthand default somewhere is not read before an assignment. -/
theorem IsPart.missed {role : PatternRole} (is : IsPart role cost part)
    (notPlain : part.plain = false) : MissedAs part role := by
  induction is with
  | array are induction =>
      exact missed_array are (fun item there => induction item there) notPlain _
  | object are induction =>
      exact missed_object are (fun item there => induction item there) notPlain _
  | name => cases notPlain
  | pattern _ induction => exact induction notPlain
  | bare is induction =>
      exact fun level tokens rest => is.assignment_fails notPlain (induction notPlain) level
  | defaulted is _ induction =>
      intro level tokens rest spelled
      obtain ⟨_, targetSpelled, _⟩ := Spelled.append_iff.mp spelled
      exact is.assignment_fails notPlain (induction notPlain) level targetSpelled
  | hole => cases notPlain
  | element is induction => exact missed_item is (induction notPlain)
  | restItem is induction | restProperty is induction =>
      exact fun level => spread_misses (by decide) is notPlain (induction notPlain) level
  | keyed isKey _ induction => exact missed_keyed isKey (induction notPlain)
  | shorthand => cases notPlain
  | shorthandDefault text => exact missed_shorthandDefault text _

end Misses

/-! ### Scripts -/

section Scripts

variable {cost : Nat} {part : Part} {words : List Word} {node value : Node}

/-- A key has no parentheses but matched ones. -/
theorem IsKeyPart.balanced {keyWords : List Word} {key : Node}
    (isKey : IsKeyPart cost keyWords key) :
    Balanced keyWords := by
  cases isKey with
  | @name type isName =>
      refine .cons (fun among => ?_) .nil
      simp only [List.mem_cons, List.not_mem_nil, or_false] at among
      rcases among with rfl | rfl | rfl <;>
        · revert isName
          decide
  | @literal type isLiteral =>
      refine .cons (fun among => ?_) .nil
      simp only [List.mem_cons, List.not_mem_nil, or_false] at among
      rcases among with rfl | rfl | rfl <;> simp at isLiteral
  | computed inner => exact .cons (by decide) (inner.balanced.append (.cons (by decide) .nil))

theorem IsPart.balanced {role : PatternRole} (is : IsPart role cost part) :
    Balanced part.words := by
  have lists : ∀ (items : List Part) (trailing : Bool),
      (∀ item, item ∈ items → Balanced item.words) →
      Balanced (joinItems (items.map Part.words) trailing) := by
    intro items trailing balanced
    refine .joinItems fun words there => ?_
    obtain ⟨item, isItem, rfl⟩ := List.mem_map.mp there
    exact balanced item isItem
  induction is with
  | array _ induction | object _ induction =>
      exact .cons (by decide) ((lists _ _ induction).append (.cons (by decide) .nil))
  | name => exact .cons (by simp [nameWord]) .nil
  | pattern _ induction | bare _ induction | element _ induction => exact induction
  | defaulted _ default induction => exact induction.append (.cons (by decide) default.balanced)
  | hole => exact .nil
  | restItem _ induction | restProperty _ induction => exact .cons (by decide) induction
  | keyed isKey _ induction => exact isKey.balanced.append (.cons (by decide) induction)
  | shorthand => exact .cons (by simp [nameWord]) .nil
  | shorthandDefault _ default =>
      exact .cons (by simp [nameWord]) (.cons (by decide) default.balanced)

/-- A declarator, as it is read in a declaration. -/
def declarator (rules : Rules) : Reader Node := do
  let first ← current
  let target ← rules.target
  let initial ← if ← accept .assign then rules.assignment else pure .absent
  finish .declarator [target, initial] first

theorem declarator_gives (is : IsPart .pattern cost part) (isValue : Assignable cost words value)
    (level : Nat) :
    GivesForm (level < cost + 4) (declarator (rulesAt level))
      (part.words ++ fixed .assign false :: words)
      (Says (.made .declarator [part.node, value])) 2 := by
  intro tokens rest spelled next
  obtain ⟨_, targetSpelled, assign, others, rfl, isAssign, valueSpelled⟩ :=
    Spelled.append_iff.mp spelled
  have assignType : assign.type = .assign := isAssign.type
  have assignNext : Next 3 (assign :: others) := ⟨assign, others, rfl, by rw [assignType]; decide⟩
  have target := is.declared level _ _ targetSpelled assignNext
  have initial := isValue.reads level others rest valueSpelled next
  obtain ⟨first, tail, rfl⟩ := assignNext.cons targetSpelled
  obtain ⟨second, following, rfl⟩ := next.cons valueSpelled
  refine .step (.current first tail) (.bind target ?_)
  rintro targetNode _ ⟨isSaid, rfl⟩
  refine .step (.accept assignType second following) (.bind initial ?_)
  rintro initialNode _ ⟨isInitial, rfl⟩
  exact .finishRead fun source span => ⟨.read (.cons isSaid (.cons isInitial .nil)), rfl⟩

/-- A declaration of one target, as a statement. -/
def declarationNode (target value : Node) : Node :=
  .made .varDecl [.word .declKind (Text.ofString "let"), .made .declarator [target, value]]

/-- An assignment in parentheses, as a statement. -/
def assignmentNode (target value : Node) : Node :=
  .made .exprStmt [.made .paren [.made .assign
    [target, .word .assignOp (Text.ofString "="), value]]]

def declarationWords (pattern words : List Word) : List Word :=
  fixed .kwLet false :: (pattern ++ fixed .assign false :: words)

/-- The words of an assignment to a pattern, in parentheses. -/
def assignmentWords (pattern words : List Word) : List Word :=
  fixed .openParen false ::
    ((pattern ++ fixed .assign false :: words) ++ [fixed .closeParen false])

theorem declaration_runs (is : IsPart .pattern cost part) (isValue : Assignable cost words value)
    {tokens : List Token} {last : Token} (isLast : last.type = .endOfInput)
    (spelled : Spelled (declarationWords part.words words) tokens [last]) (level : Nat) :
    Runs (level < cost + 5) (rulesAt level).statement tokens fun statement after =>
      Says (declarationNode part.node value) statement ∧ after = [last] := by
  rcases level with _ | level
  · exact .refused (Nat.succ_pos _)
  obtain ⟨start, others, rfl, isStart, spelled⟩ := spelled
  have ends := endsStatement_end isLast
  have startType : start.type = .kwLet := isStart.type
  have list := commaItems_single (declarator_gives is isValue level) spelled ends.next.ends
  obtain ⟨second, following, rfl⟩ := ends.next.cons spelled
  have declared : Runs (level < cost + 4) (declaration (rulesAt level))
      (start :: second :: following) fun node after =>
        (∃ source span target, Says (.made .declarator [part.node, value]) target ∧
          node = .read .varDecl {} source span [leafOf .declKind start, target]) ∧
        after = [last] := by
    refine .step (.advance start second following) (.bind list ?_)
    rintro _ _ ⟨⟨target, rfl, isSaid⟩, rfl⟩
    exact .finishRead fun source span => ⟨⟨source, span, target, isSaid, rfl⟩, rfl⟩
  refine .step (.current start _) ?_
  rw [startType]
  refine .step (.current start _) (.bind (declared.mono Nat.succ_lt_succ fun _ _ is => is) ?_)
  rintro _ _ ⟨⟨source, span, target, isSaid, rfl⟩, rfl⟩
  refine .step ends.steps (.finishRead fun source span => ⟨?_, rfl⟩)
  exact .read (.cons (says_leafOf isStart.text) (.cons isSaid .nil))

theorem assignment_runs (is : IsPart .pattern cost part) (isPlain : part.plain = true)
    (isValue : Assignable cost words value) {tokens : List Token} {last : Token}
    (isLast : last.type = .endOfInput)
    (spelled : Spelled (assignmentWords part.words words) tokens [last]) (level : Nat) :
    Runs (level < cost + 12) (rulesAt level).statement tokens fun statement after =>
      Says (assignmentNode part.node value) statement ∧ after = [last] := by
  rcases level with _ | level
  · exact .refused (Nat.succ_pos _)
  have takes : ∀ left, PatternRead part.node left →
      ∃ target, toTarget false left = .ok target ∧ Says part.node target := by
    intro left read
    obtain ⟨target, isTarget, isSaid, _⟩ := read.becomes false
    exact ⟨target, isTarget, isSaid⟩
  have assigned := (IsPart.pattern is).assign (is.assigned isPlain) takes isValue
  have balanced : Balanced (part.words ++ fixed .assign false :: words) :=
    is.balanced.append (.cons (by decide) isValue.balanced)
  have enclosed := (assigned.expression.enclosed.chain rfl nofun true).assignment
    (.group balanced .nil) rfl rfl
  have statement := expressionStatement_runs enclosed.expression level spelled
    (endsStatement_end isLast)
  obtain ⟨start, others, rfl, isStart, _⟩ := spelled
  have startType : start.type = .openParen := isStart.type
  refine .step (.current start others) ?_
  rw [startType]
  apply statement.mono fun less => by omega
  rintro _ _ ⟨⟨_, _, _, ⟨_, _, inner, isAssignment, rfl⟩, rfl⟩, rfl⟩
  exact ⟨.read (.cons (.read (.cons isAssignment.says .nil)) .nil), rfl⟩

theorem expression_fails {tokens : List Token} {token : Token} {others : List Token}
    (isTokens : tokens = token :: others)
    (fails : ∀ level, Fails (rulesAt level).assignment tokens) (level : Nat) :
    Fails (rulesAt level).expression tokens := by
  rcases level with _ | level
  · exact .of_throw
  · subst isTokens
    have items : Fails (commaItems (rulesAt level).assignment) (token :: others) := by
      refine .withBudget fun budget => ?_
      rcases budget with _ | budget
      · exact .of_throw
      · exact (fails level).bind _
    exact .step (.current token others) (items.bind _)

theorem assignment_missed (is : IsPart .pattern cost part) (notPlain : part.plain = false)
    (isValue : Assignable cost words value) {tokens : List Token} {last : Token}
    (isLast : last.type = .endOfInput)
    (spelled : Spelled (assignmentWords part.words words) tokens [last]) (level : Nat) :
    Fails (rulesAt level).statement tokens := by
  have balanced : Balanced (part.words ++ fixed .assign false :: words) :=
    is.balanced.append (.cons (by decide) isValue.balanced)
  have opens : Opens (assignmentWords part.words words) := .group balanced .nil
  have notArrow := opens.not_arrow spelled ((endsStatement_end isLast).next.noArrow (by decide))
  obtain ⟨start, others, rfl, isStart, spelled⟩ := spelled
  have startType : start.type = .openParen := isStart.type
  obtain ⟨_, innerSpelled, _⟩ := Spelled.append_iff.mp spelled
  obtain ⟨_, patternSpelled, _⟩ := Spelled.append_iff.mp innerSpelled
  obtain ⟨first, more, isWords, isOne⟩ := is.begins (by decide)
  obtain ⟨second, following, rfl, _⟩ := spelled_begins isWords isOne patternSpelled
  have inner := expression_fails rfl fun level =>
    (IsPart.pattern is).assignment_fails notPlain (is.missed notPlain) level patternSpelled
  have enclosed : ∀ level, Fails (primary (rulesAt level)) (start :: second :: following) := by
    intro level
    refine .step (.current start _) ?_
    rw [startType]
    exact .step (.advance start second following) (Fails.bind (inner level).allowingIn _)
  have assigned := assignment_fails (by rw [startType]; rfl) (by rw [startType]; nofun) notArrow
    enclosed
  rcases level with _ | level
  · exact .of_throw
  · refine .step (.current start _) ?_
    rw [startType]
    have statement := (expression_fails rfl assigned level).allowingIn
    exact .step (.current start _) (Fails.bind statement _)

end Scripts

end Grammar

/-- A text is divided into tokens that say some words. -/
def TokenizesAs (text : Text) (words : List Word) : Prop :=
  ∃ tokens last, tokenize text = .ok (tokens ++ [last]) ∧ Holds words tokens ∧
    last.type = .endOfInput

private theorem tokenizesAs_iff {text : Text} {words : List Word} : TokenizesAs text words ↔
    ∃ tokens ∈ (tokenize text).toOption, Holds words tokens.dropLast ∧
      ∃ last ∈ tokens.getLast?, last.type = .endOfInput := by
  constructor
  · rintro ⟨tokens, last, tokenized, holds, isLast⟩
    refine ⟨tokens ++ [last], by rw [tokenized]; rfl, ?_, last, ?_, isLast⟩
    · rwa [List.dropLast_concat]
    · exact List.getLast?_concat
  · rintro ⟨tokens, found, holds, last, isLast, isEnd⟩
    refine ⟨tokens.dropLast, last, ?_, holds, isEnd⟩
    rw [List.dropLast_append_getLast? last isLast]
    exact Calculation.eq_ok_of_toOption found

instance (word : Word) (token : Token) : Decidable (word.Matches token) :=
  decidable_of_iff (token.type = word.type ∧ token.text = word.text ∧
      (word.joined → token.newlineBefore = false))
    ⟨fun ⟨type, text, joined⟩ => ⟨type, text, joined⟩, fun is => ⟨is.type, is.text, is.joined⟩⟩

instance (words : List Word) (tokens : List Token) : Decidable (Holds words tokens) :=
  inferInstanceAs (Decidable (List.Forall₂ Word.Matches words tokens))

instance (text : Text) (words : List Word) : Decidable (TokenizesAs text words) :=
  decidable_of_iff _ tokenizesAs_iff.symm

/-- A text whose constructs may nest to a number of levels is read as a script of one statement
that says what a node says, unless it nests too deep. -/
def Source.ReadsAs (source : Source) (levels cost : Nat) (statement : Node) : Prop :=
  (∃ tree, parseScript source levels = .ok tree ∧ tree.unplaced = .made .program [statement]) ∨
    levels < cost ∧ parseScript source levels = .error (.parse .nestingTooDeep)

theorem Source.ReadsAs.of_shallow {source : Source} {levels cost : Nat} {statement : Node}
    (reads : source.ReadsAs levels cost statement) (shallow : cost ≤ levels) :
    ∃ tree, parseScript source levels = .ok tree ∧ tree.unplaced = .made .program [statement] :=
  reads.resolve_right fun deep => absurd deep.1 (Nat.not_lt.mpr shallow)

open Grammar in
/-- A statement that is all of a text is read as a script. -/
theorem readsAs_of_statement {source : Source} {first : Word} {more : List Word}
    (begins : first.type ≠ .endOfInput) (tokenizes : TokenizesAs source.text (first :: more))
    {cost : Nat} {node : Node}
    (runs : ∀ tokens last, last.type = .endOfInput → Spelled (first :: more) tokens [last] →
      ∀ level, Runs (level < cost) (rulesAt level).statement tokens fun statement after =>
        Says node statement ∧ after = [last]) (levels : Nat) :
    source.ReadsAs levels cost node := by
  obtain ⟨tokens, last, tokenized, holds, isLast⟩ := tokenizes
  have spelled := Spelled.of_holds holds [last]
  have statement := runs _ last isLast spelled levels
  obtain ⟨token, following, isTokens, isToken, spelled⟩ := spelled
  obtain ⟨next, rest, rfl⟩ := (endsStatement_end isLast).next.cons spelled
  rw [isTokens] at tokenized statement
  have notEnd : token.type ≠ .endOfInput := by
    rw [isToken.type]
    exact begins
  rcases parseScript_of_statement tokenized (statements_single notEnd isLast statement) with
    ⟨value, isSaid, parsed⟩ | refused
  · refine .inl ⟨_, parsed, ?_⟩
    exact Says.read (.cons isSaid .nil)
  · exact .inr refused

open Grammar in
/-- A text whose only statement fails is no script. -/
theorem parseScript_of_fails {source : Source} {first : Word} {more : List Word}
    (begins : first.type ≠ .endOfInput) (tokenizes : TokenizesAs source.text (first :: more))
    (fails : ∀ tokens last, last.type = .endOfInput → Spelled (first :: more) tokens [last] →
      ∀ level, Fails (rulesAt level).statement tokens) (levels : Nat) :
    ∃ failure, parseScript source levels = .error (.parse failure) := by
  obtain ⟨tokens, last, tokenized, holds, isLast⟩ := tokenizes
  have spelled := Spelled.of_holds holds [last]
  have statement := fails _ last isLast spelled levels
  obtain ⟨token, following, isTokens, isToken, _⟩ := spelled
  rw [isTokens] at tokenized statement
  have goesOn : (token.type != .endOfInput) = true := by
    rw [isToken.type]
    exact bne_iff_ne.mpr begins
  have failing : Fails (statements levels) (token :: following) := by
    refine .withBudget fun budget => ?_
    rcases budget with _ | budget
    · exact .of_throw
    · refine .step ((Steps.current token following).bind (.of_pure _)) ?_
      rw [goesOn]
      exact statement.bind _
  have ready : Ready ⟨source, token :: following, none, false, (token :: following).length + 1⟩
      (token :: following) := ⟨rfl, rfl, Nat.lt_succ_self _⟩
  unfold parseScript
  simp only [tokenized]
  rcases failing _ ready with ⟨failure, failed⟩ | ⟨_, _, _, _, _, never⟩
  · rw [failed]
    exact ⟨failure, rfl⟩
  · cases never

namespace Grammar

/-- A pattern in a declaration is read as it is written.  Before an assignment in parentheses it is
read as the same target if no shorthand property in it has a default, and is no script if one
has. -/
theorem patterns_read_alike {part : Part} {cost : Nat} {words : List Word} {value : Node}
    {declared assigned : Source} (isPattern : IsPart .pattern cost part)
    (isValue : Assignable cost words value)
    (declares : TokenizesAs declared.text (declarationWords part.words words))
    (assigns : TokenizesAs assigned.text (assignmentWords part.words words)) (levels : Nat) :
    declared.ReadsAs levels (cost + 12) (declarationNode part.node value) ∧
      (part.plain = true → assigned.ReadsAs levels (cost + 12) (assignmentNode part.node value)) ∧
      (part.plain = false → ∃ failure, parseScript assigned levels = .error (.parse failure)) := by
  have declaring : (Word.fixed .kwLet false).type ≠ .endOfInput := by decide
  have assigning : (Word.fixed .openParen false).type ≠ .endOfInput := by decide
  refine ⟨readsAs_of_statement declaring declares ?_ levels, fun isPlain =>
    readsAs_of_statement assigning assigns ?_ levels, fun notPlain =>
    parseScript_of_fails assigning assigns ?_ levels⟩
  · intro tokens last isLast spelled level
    exact (declaration_runs isPattern isValue isLast spelled level).mono (fun less => by omega)
      fun _ _ is => is
  · intro tokens last isLast spelled level
    exact assignment_runs isPattern isPlain isValue isLast spelled level
  · intro tokens last isLast spelled level
    exact assignment_missed isPattern notPlain isValue isLast spelled level

/-- A name is read as a value that can be assigned. -/
theorem assignable_name (text : Text) (cost : Nat) :
    Assignable cost [nameWord text] (.made .ident [.word .name text]) where
  reads := by
    have primary := (forms_name text cost).chain rfl nofun true
    apply FormsAssignment.imp (primary.assignment (.name rfl .nil) rfl rfl)
    rintro _ ⟨source, span, token, isText, rfl⟩
    exact .read (.cons (says_leafOf isText) .nil)
  balanced := .cons (by simp [nameWord]) .nil

/-- An element in brackets with a default, as a property in braces beside another one. -/
def nestedPattern : Part where
  words := braceWords (joinItems [[nameWord (Text.ofString "a")],
    nameWord (Text.ofString "b") :: Word.fixed .colon false ::
      indexWords (joinItems [[nameWord (Text.ofString "c"), Word.fixed .assign false,
        nameWord (Text.ofString "d")]])])
  node := .made .objectPattern [
    shorthandNode (Text.ofString "a") (bindingNode (Text.ofString "a")),
    .made .patternProperty [.word .name (Text.ofString "b"),
      .made .arrayPattern [.made .assignPattern [bindingNode (Text.ofString "c"),
        .made .ident [.word .name (Text.ofString "d")]]]]]
  plain := true

private theorem nestedPattern_isPart : IsPart .pattern 9 nestedPattern := by
  have default := assignable_name (Text.ofString "d") 0
  have element := IsPart.element (.defaulted (.name (Text.ofString "c")) default)
  have array := @IsPart.array _ _ false (List.forall_mem_singleton.mpr element)
  have key : IsKeyPart 5 [nameWord (Text.ofString "b")] _ := .name rfl _
  exact .object (List.forall_mem_cons.mpr ⟨.shorthand (Text.ofString "a"),
    List.forall_mem_singleton.mpr (.keyed key (.bare (.pattern array)))⟩)

def nestedDeclared : Source :=
  ⟨Text.ofString "let \x7ba, b: [c = d]\x7d = x", none, .script⟩

def nestedAssigned : Source :=
  ⟨Text.ofString "(\x7ba, b: [c = d]\x7d = x)", none, .script⟩

theorem nestedPattern_read_alike :
    let value := Node.made .ident [.word .name (Text.ofString "x")]
    (∃ tree, parseScript nestedDeclared = .ok tree ∧
      tree.unplaced = .made .program [declarationNode nestedPattern.node value]) ∧
    ∃ tree, parseScript nestedAssigned = .ok tree ∧
      tree.unplaced = .made .program [assignmentNode nestedPattern.node value] := by
  intro value
  have isValue := assignable_name (Text.ofString "x") 9
  have declares : TokenizesAs nestedDeclared.text
      (declarationWords nestedPattern.words [nameWord (Text.ofString "x")]) := by decide +kernel
  have assigns : TokenizesAs nestedAssigned.text
      (assignmentWords nestedPattern.words [nameWord (Text.ofString "x")]) := by decide +kernel
  obtain ⟨declared, assigned, _⟩ :=
    patterns_read_alike nestedPattern_isPart isValue declares assigns nestingLimit
  exact ⟨declared.of_shallow (by decide), (assigned rfl).of_shallow (by decide)⟩

/-- A shorthand property with a default, in a declaration. -/
def defaultDeclared : Source :=
  ⟨Text.ofString "let \x7ba = 1\x7d = x;", none, .script⟩

/-- A shorthand property with a default, in an assignment. -/
def defaultAssigned : Source :=
  ⟨Text.ofString "(\x7ba = 1\x7d = x);", none, .script⟩

theorem defaultAssigned_refused :
    ¬ ((∃ tree, parseScript defaultDeclared = .ok tree) ↔
      ∃ tree, parseScript defaultAssigned = .ok tree) := by
  have reads : (parseScript defaultDeclared).toOption.isSome := by decide +kernel
  have refused : (parseScript defaultAssigned).toOption.isNone := by decide +kernel
  intro alike
  obtain ⟨tree, found⟩ := Option.isSome_iff_exists.mp reads
  obtain ⟨other, parsed⟩ := alike.mp ⟨tree, Calculation.eq_ok_of_toOption found⟩
  rw [parsed] at refused
  cases refused

end Grammar

end ScriptFold
