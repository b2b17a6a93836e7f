import ScriptFold.Proofs.Reading.Opening

/-!
# Reading up to a token

How far a reader goes depends on the token after the words that it reads: the strength of a
token says which readers would take it into what they read.  Lists go on after a comma and
end at any other token.
-/

namespace ScriptFold

namespace Grammar

open Word

/-- How tight a token would be bound to the expression before it. -/
def strength (type : TokenType) : Nat :=
  match type with
  | .closeParen | .closeBracket | .closeBrace | .colon | .semicolon | .endOfInput => 0
  | .comma => 1
  | .question => 4
  | .increment | .decrement => 18
  | .dot | .optionalDot | .openBracket | .openParen | .wholeTemplate | .templateHead => 19
  | _ =>
      if type.isAssignment then 3
      else
        match binaryPrecedence? type with
        | some precedence => precedence + 4
        | none => 20

/-- The next token is not stronger than a bound. -/
def Next (bound : Nat) (tokens : List Token) : Prop :=
  ∃ token rest, tokens = token :: rest ∧ strength token.type ≤ bound

theorem Next.mono {bound other : Nat} {tokens : List Token} (next : Next bound tokens)
    (atMost : bound ≤ other) : Next other tokens := by
  obtain ⟨token, rest, isTokens, weak⟩ := next
  exact ⟨token, rest, isTokens, Nat.le_trans weak atMost⟩

theorem next_of_spelled {word : Word} {words : List Word} {tokens rest : List Token}
    (spelled : Spelled (word :: words) tokens rest) {bound : Nat}
    (weak : strength word.type ≤ bound) : Next bound tokens := by
  obtain ⟨token, others, isTokens, isWord, _⟩ := spelled
  exact ⟨token, others, isTokens, isWord.type ▸ weak⟩

theorem Next.noArrow {bound : Nat} {tokens : List Token} (next : Next bound tokens)
    (weak : bound ≤ 18) : NoArrow tokens := by
  obtain ⟨token, rest, rfl, atMost⟩ := next
  refine ⟨token, rest, rfl, fun among => ?_⟩
  simp only [List.mem_cons, List.not_mem_nil, or_false] at among
  rcases among with isType | isType | isType <;> rw [isType] at atMost <;>
    exact absurd (Nat.le_trans atMost weak) (by decide)

theorem Next.cons {bound : Nat} {words : List Word} {tokens rest : List Token}
    (next : Next bound rest) (spelled : Spelled words tokens rest) :
    ∃ token others, tokens = token :: others := by
  obtain ⟨token, others, rfl, _⟩ := next
  cases words with
  | nil => exact ⟨token, others, spelled⟩
  | cons word words =>
      obtain ⟨first, more, isTokens, _⟩ := spelled
      exact ⟨first, more, isTokens⟩

/-- A reader reads words as a node of some form, up to a token that is not stronger than a
bound. -/
def GivesForm (deep : Prop) (reader : Reader Node) (words : List Word) (form : Node → Prop)
    (bound : Nat) : Prop :=
  ∀ tokens rest, Spelled words tokens rest → Next bound rest →
    Runs deep reader tokens fun value after => form value ∧ after = rest

theorem GivesForm.mono {deep : Prop} {reader : Reader Node} {words : List Word}
    {form other : Node → Prop} {bound : Nat} (gives : GivesForm deep reader words form bound)
    (implies : ∀ value, form value → other value) : GivesForm deep reader words other bound :=
  fun tokens rest spelled next => (gives tokens rest spelled next).mono id
    fun value _ is => ⟨implies value is.1, is.2⟩

/-- A reader reads words as what a node says. -/
abbrev Gives (deep : Prop) (reader : Reader Node) (words : List Word) (node : Node) (bound : Nat) :
    Prop :=
  GivesForm deep reader words (fun value => value.core = node) bound

/-- Items with commas between them, and maybe one behind the last.  An item without words is a
hole, which has a comma of its own if it is the last one. -/
def joinItems (items : List (List Word)) (trailing : Bool := false) : List Word :=
  match items with
  | [] => []
  | [words] => if words.isEmpty || trailing then words ++ [fixed .comma false] else words
  | words :: rest => words ++ fixed .comma false :: joinItems rest trailing

/-- A reader reads words as an item of a list, a node of some form, before tokens of some
types. -/
structure FormsItem (deep : Prop) (item : Reader Node) (closer : TokenType)
    (before : TokenType → Prop) (form : Node → Prop) (words : List Word) : Prop where
  starts : ∃ first more, words = first :: more ∧ first.type ≠ closer ∧ first.type ≠ .comma
  gives : ∀ tokens token rest, Spelled words tokens (token :: rest) → strength token.type ≤ 2 →
    before token.type → Runs deep item tokens fun value after => form value ∧ after = token :: rest

/-- A reader reads words as a node that is an item of a list. -/
structure ReadsItem (deep : Prop) (item : Reader Node) (closer : TokenType) (node : Node)
    (words : List Word) : Prop where
  starts : ∃ first more, words = first :: more ∧ first.type ≠ closer ∧ first.type ≠ .comma
  gives : Gives deep item words node 2

theorem ReadsItem.forms {deep : Prop} {item : Reader Node} {closer : TokenType} {node : Node}
    {words : List Word} (reads : ReadsItem deep item closer node words) :
    FormsItem deep item closer (fun _ => True) (fun value => value.core = node) words :=
  ⟨reads.starts, fun tokens token rest spelled weak _ =>
    reads.gives tokens _ spelled ⟨token, rest, rfl, weak⟩⟩

/-- What a list gives: nodes of the forms of the items, one by one. -/
def GivesForms (forms : List (Node → Prop)) (rest : List Token) :
    List Node → List Token → Prop :=
  fun values after => List.Forall₂ (fun form value => form value) forms values ∧ after = rest

/-- What a list gives: nodes that say what the items say. -/
def GivesItems (nodes : List Node) (rest : List Token) : List Node → List Token → Prop :=
  fun values after => values.map Node.core = nodes ∧ after = rest

theorem givesItems_of_forms {nodes values : List Node} {rest after : List Token}
    (gives : GivesForms (nodes.map fun node value => value.core = node) rest values after) :
    GivesItems nodes rest values after := by
  refine ⟨?_, gives.2⟩
  induction nodes generalizing values with
  | nil =>
      cases gives.1
      rfl
  | cons node nodes induction =>
      obtain ⟨forms, isRest⟩ := gives
      cases forms with
      | cons isNode forms => rw [List.map_cons, isNode, induction ⟨forms, isRest⟩]

/-- One item, and more after a comma. -/
def itemThen (item : Reader Node) (more : Reader (List Node)) : Reader (List Node) := do
  let first ← item
  if ← accept .comma then
    return first :: (← more)
  return [first]

/-- The end of a list: a token that is neither a comma nor taken into the last item. -/
def Ends (tokens : List Token) : Prop :=
  ∃ token others, tokens = token :: others ∧ strength token.type ≤ 2 ∧ token.type ≠ .comma

theorem Ends.next {tokens : List Token} (ends : Ends tokens) : Next 2 tokens := by
  obtain ⟨token, others, isTokens, weak, _⟩ := ends
  exact ⟨token, others, isTokens, weak⟩

theorem Next.ends {tokens : List Token} (next : Next 0 tokens) : Ends tokens := by
  obtain ⟨token, others, isTokens, weak⟩ := next
  refine ⟨token, others, isTokens, Nat.le_trans weak (by decide), fun isComma => ?_⟩
  rw [isComma] at weak
  exact absurd weak (by decide)

section Lists

variable {deep : Prop} {item : Reader Node} {closer : TokenType} {before : TokenType → Prop}

def GivesOne (form : Node → Prop) (rest : List Token) : List Node → List Token → Prop :=
  fun values after => (∃ value, values = [value] ∧ form value) ∧ after = rest

theorem itemThen_single {form : Node → Prop} {words : List Word}
    (gives : GivesForm deep item words form 2) {more : Reader (List Node)}
    {tokens rest : List Token} (spelled : Spelled words tokens rest) (ends : Ends rest) :
    Runs deep (itemThen item more) tokens (GivesOne form rest) := by
  obtain ⟨token, others, rfl, weak, notComma⟩ := ends
  refine .bind (gives tokens _ spelled ⟨token, others, rfl, weak⟩) ?_
  rintro value _ ⟨isForm, rfl⟩
  exact .step (.not_accept notComma others) (.of_pure ⟨⟨value, rfl, isForm⟩, rfl⟩)

theorem itemThen_last {form : Node → Prop} {words : List Word}
    (reads : FormsItem deep item closer before form words) {more : Reader (List Node)}
    {tokens : List Token} {token : Token} {rest : List Token}
    (spelled : Spelled words tokens (token :: rest)) (ends : Ends (token :: rest))
    (isBefore : before token.type) :
    Runs deep (itemThen item more) tokens (GivesForms [form] (token :: rest)) := by
  obtain ⟨_, _, isRest, weak, notComma⟩ := ends
  cases isRest
  refine .bind (reads.gives tokens token rest spelled weak isBefore) ?_
  rintro value _ ⟨isForm, rfl⟩
  exact .step (.not_accept notComma rest) (.of_pure ⟨.cons isForm .nil, rfl⟩)

theorem itemThen_more {form : Node → Prop} {forms : List (Node → Prop)} {words others : List Word}
    (reads : FormsItem deep item closer before form words) (comma : before .comma)
    {more : Reader (List Node)} {tokens rest : List Token}
    (spelled : Spelled (words ++ fixed .comma false :: others) tokens rest)
    {bound : Nat} (next : Next bound rest)
    (goes : ∀ middle, Spelled others middle rest → middle.length < tokens.length →
      Runs deep more middle (GivesForms forms rest)) :
    Runs deep (itemThen item more) tokens (GivesForms (form :: forms) rest) := by
  obtain ⟨middle, wordsSpelled, separator, left, rfl, isComma, othersSpelled⟩ :=
    Spelled.append_iff.mp spelled
  have commaType : separator.type = .comma := isComma.type
  have weak : strength separator.type ≤ 2 := by
    rw [commaType]
    decide
  have shorter : left.length < tokens.length := by
    rw [wordsSpelled.length, List.length_cons]
    omega
  obtain ⟨token, following, isLeft⟩ := next.cons othersSpelled
  refine .bind (reads.gives tokens separator left wordsSpelled weak (commaType ▸ comma)) ?_
  rintro value _ ⟨isForm, rfl⟩
  rw [isLeft] at othersSpelled shorter ⊢
  refine .step (.accept commaType token following) (.bind (goes _ othersSpelled shorter) ?_)
  rintro values _ ⟨areForms, rfl⟩
  exact .of_pure ⟨.cons isForm areForms, rfl⟩

theorem joinItems_cons {words : List Word} {others : List (List Word)} {trailing : Bool}
    (goesOn : others ≠ [] ∨ trailing = true) :
    joinItems (words :: others) trailing =
      words ++ fixed .comma false :: joinItems others trailing := by
  cases others with
  | nil =>
      rcases goesOn with notEmpty | rfl
      · exact absurd rfl notEmpty
      · exact if_pos (Bool.or_true words.isEmpty)
  | cons => rfl

theorem joinItems_hole (others : List (List Word)) (trailing : Bool) :
    joinItems ([] :: others) trailing = fixed .comma false :: joinItems others trailing := by
  cases others <;> rfl

theorem joinItems_single {words : List Word} (notEmpty : words ≠ []) :
    joinItems [words] = words :=
  if_neg (by simpa using notEmpty)

/-- A list begins with the first token of its first item. -/
theorem joinItems_begins {words : List Word}
    (starts : ∃ first more, words = first :: more ∧ first.type ≠ closer ∧ first.type ≠ .comma)
    {others : List (List Word)} {trailing : Bool} {tokens rest : List Token}
    (spelled : Spelled (joinItems (words :: others) trailing) tokens rest) :
    ∃ token following, tokens = token :: following ∧ token.type ≠ closer ∧ token.type ≠ .comma := by
  obtain ⟨first, more, rfl, notCloser, notComma⟩ := starts
  have isList : ∃ tail, joinItems ((first :: more) :: others) trailing = first :: tail := by
    cases others with
    | nil => cases trailing <;> exact ⟨_, rfl⟩
    | cons => exact ⟨_, rfl⟩
  obtain ⟨tail, isList⟩ := isList
  rw [isList] at spelled
  obtain ⟨token, following, isTokens, isFirst, _⟩ := spelled
  rw [← isFirst.type] at notCloser notComma
  exact ⟨token, following, isTokens, notCloser, notComma⟩

/-- An item and all items after it. -/
theorem itemThen_items {entry : (Node → Prop) × List Word}
    {items : List ((Node → Prop) × List Word)} {trailing : Bool}
    (reads : FormsItem deep item closer before entry.1 entry.2) (comma : before .comma)
    {more : Reader (List Node)} {tokens : List Token} {token : Token} {rest : List Token}
    (spelled : Spelled (joinItems ((entry :: items).map Prod.snd) trailing) tokens (token :: rest))
    (ends : Ends (token :: rest)) (isBefore : before token.type)
    (goes : items ≠ [] ∨ trailing = true → ∀ middle,
      Spelled (joinItems (items.map Prod.snd) trailing) middle (token :: rest) →
      middle.length < tokens.length →
      Runs deep more middle (GivesForms (items.map Prod.fst) (token :: rest))) :
    Runs deep (itemThen item more) tokens
      (GivesForms ((entry :: items).map Prod.fst) (token :: rest)) := by
  by_cases goesOn : items ≠ [] ∨ trailing = true
  · rw [List.map_cons, joinItems_cons (goesOn.imp_left fun notEmpty => by simpa using notEmpty)]
      at spelled
    exact itemThen_more reads comma spelled ends.next (goes goesOn)
  · obtain ⟨rfl, rfl⟩ : items = [] ∧ trailing = false := by simpa using goesOn
    obtain ⟨first, following, isWords, _⟩ := reads.starts
    have notEmpty : entry.2 ≠ [] := by
      rw [isWords]
      exact List.cons_ne_nil _ _
    rw [List.map_singleton, joinItems_single notEmpty] at spelled
    exact itemThen_last reads spelled ends isBefore

/-- A loop over items reads them all. -/
theorem loop_items {loop : Nat → Reader (List Node)}
    (opens : ∀ budget token others gives, token.type ≠ closer → token.type ≠ .comma →
      Runs deep (itemThen item (loop budget)) (token :: others) gives →
      Runs deep (loop (budget + 1)) (token :: others) gives)
    {items : List ((Node → Prop) × List Word)} {trailing : Bool} {token : Token}
    {rest : List Token}
    (stops : trailing = true → ∀ budget,
      Runs deep (loop (budget + 1)) (token :: rest) (GivesForms [] (token :: rest)))
    (goesOn : items ≠ [] ∨ trailing = true)
    (reads : ∀ entry, entry ∈ items → FormsItem deep item closer before entry.1 entry.2)
    (comma : before .comma) {budget : Nat} {tokens : List Token}
    (within : tokens.length < budget)
    (spelled : Spelled (joinItems (items.map Prod.snd) trailing) tokens (token :: rest))
    (ends : Ends (token :: rest)) (isBefore : before token.type) :
    Runs deep (loop budget) tokens (GivesForms (items.map Prod.fst) (token :: rest)) := by
  induction items generalizing budget tokens with
  | nil =>
      obtain rfl : tokens = token :: rest := spelled
      rcases budget with _ | budget
      · cases within
      exact stops (goesOn.resolve_left (absurd rfl)) budget
  | cons entry items induction =>
      have reading := reads entry List.mem_cons_self
      obtain ⟨first, others, rfl, notCloser, notComma⟩ := joinItems_begins reading.starts spelled
      rcases budget with _ | budget
      · cases within
      refine opens budget first others _ notCloser notComma ?_
      refine itemThen_items reading comma spelled ends isBefore
        fun notLast middle middleSpelled shorter => ?_
      refine induction notLast (fun other there => reads other (.tail _ there)) ?_ middleSpelled
      exact Nat.lt_of_lt_of_le shorter (Nat.le_of_lt_succ within)

theorem not_contains_of_ne {type : TokenType} (notCloser : type ≠ closer) :
    [closer].contains type = false := by
  simp [notCloser]

/-- One item, read as a list of items. -/
theorem commaItems_single {form : Node → Prop} {words : List Word}
    (gives : GivesForm deep item words form 2) {tokens rest : List Token}
    (spelled : Spelled words tokens rest) (ends : Ends rest) :
    Runs deep (commaItems item) tokens (GivesOne form rest) := by
  refine .withBudget fun budget within => ?_
  cases budget with
  | zero => cases within
  | succ budget => exact itemThen_single gives spelled ends

/-- One item, read as a list of items up to a closing token. -/
theorem commaList_single {form : Node → Prop} {words : List Word} {first : Word}
    {others : List Word} (gives : GivesForm deep item words form 2)
    (isWords : words = first :: others) (notCloser : first.type ≠ closer) {tokens rest : List Token}
    (spelled : Spelled words tokens rest) (ends : Ends rest) :
    Runs deep (commaList closer item) tokens (GivesOne form rest) := by
  refine .withBudget fun budget within => ?_
  have single : ∀ more, Runs deep (itemThen item more) tokens (GivesOne form rest) :=
    fun _ => itemThen_single gives spelled ends
  subst isWords
  obtain ⟨token, following, rfl, isFirst, _⟩ := spelled
  rw [← isFirst.type] at notCloser
  cases budget with
  | zero => cases within
  | succ budget =>
      refine .step (.check [closer] token following) ?_
      rw [not_contains_of_ne notCloser]
      exact single _

theorem commaItems_forms {items : List ((Node → Prop) × List Word)} (notEmpty : items ≠ [])
    (reads : ∀ entry, entry ∈ items → FormsItem deep item closer before entry.1 entry.2)
    (comma : before .comma) {tokens : List Token} {token : Token} {rest : List Token}
    (spelled : Spelled (joinItems (items.map Prod.snd)) tokens (token :: rest))
    (ends : Ends (token :: rest)) (isBefore : before token.type) :
    Runs deep (commaItems item) tokens (GivesForms (items.map Prod.fst) (token :: rest)) :=
  .withBudget fun _ within => loop_items (fun _ _ _ _ _ _ runs => runs)
    (fun trailing => absurd trailing Bool.false_ne_true) (.inl notEmpty)
    reads comma within spelled ends isBefore

/-- A list of items up to a closing token. -/
theorem commaList_forms {items : List ((Node → Prop) × List Word)} {trailing : Bool}
    (reads : ∀ entry, entry ∈ items → FormsItem deep item closer before entry.1 entry.2)
    (comma : before .comma) (isBefore : before closer) {tokens : List Token} {token : Token}
    {others : List Token}
    (spelled : Spelled (joinItems (items.map Prod.snd) trailing) tokens (token :: others))
    (isCloser : token.type = closer) (ends : Ends (token :: others)) :
    Runs deep (commaList closer item) tokens
      (GivesForms (items.map Prod.fst) (token :: others)) := by
  refine .withBudget fun budget within => ?_
  have stops : ∀ budget, Runs deep (commaList.loop closer item (budget + 1)) (token :: others)
      (GivesForms [] (token :: others)) := by
    intro budget
    refine .step (.check [closer] token others) ?_
    rw [isCloser]
    simp only [List.contains_cons, beq_self_eq_true, Bool.true_or, if_true]
    exact .of_pure ⟨.nil, rfl⟩
  cases items with
  | nil =>
      obtain rfl : tokens = token :: others := spelled
      cases budget with
      | zero => cases within
      | succ budget => exact stops budget
  | cons entry items =>
      refine loop_items (fun budget first more gives notCloser _ runs => ?_) (fun _ => stops)
        (.inl (List.cons_ne_nil _ _)) reads comma within spelled ends (isCloser ▸ isBefore)
      refine .step (.check [closer] first more) ?_
      rw [not_contains_of_ne notCloser]
      exact runs

/-- A list with holes: a comma in place of an item. -/
theorem holedList_forms {items : List ((Node → Prop) × List Word)} {trailing : Bool}
    (notComma : closer ≠ .comma)
    (reads : ∀ entry, entry ∈ items → (entry.1 .absent ∧ entry.2 = []) ∨
      FormsItem deep item closer before entry.1 entry.2)
    (comma : before .comma) (isBefore : before closer)
    {tokens : List Token} {token : Token} {others : List Token}
    (spelled : Spelled (joinItems (items.map Prod.snd) trailing) tokens (token :: others))
    (isCloser : token.type = closer) (ends : Ends (token :: others)) :
    Runs deep (holedList closer item) tokens
      (GivesForms (items.map Prod.fst) (token :: others)) := by
  refine .withBudget fun budget within => ?_
  induction items generalizing budget tokens with
  | nil =>
      obtain rfl : tokens = token :: others := spelled
      cases budget with
      | zero => cases within
      | succ budget =>
          refine .step (.check [closer] token others) ?_
          simp only [isCloser, List.contains_cons, beq_self_eq_true, Bool.true_or, if_true]
          exact .of_pure ⟨.nil, rfl⟩
  | cons entry items induction =>
      have later := fun tokens spelled budget within =>
        @induction (fun other there => reads other (.tail _ there)) tokens spelled budget within
      rcases budget with _ | budget
      · cases within
      rcases reads entry List.mem_cons_self with ⟨isHole, noWords⟩ | reading
      · rw [List.map_cons, noWords, joinItems_hole] at spelled
        obtain ⟨separator, following, rfl, isComma, spelled⟩ := spelled
        have commaType : separator.type = .comma := isComma.type
        have notCloser : separator.type ≠ closer := fun same => notComma (same.symm.trans commaType)
        obtain ⟨next, more, rfl⟩ := ends.next.cons spelled
        refine .step (.check [closer] separator _) ?_
        rw [not_contains_of_ne notCloser]
        refine .step (.accept commaType next more) ?_
        refine .bind (later _ spelled budget (Nat.lt_of_succ_lt_succ within)) ?_
        rintro values _ ⟨areForms, rfl⟩
        exact .of_pure ⟨.cons isHole areForms, rfl⟩
      · obtain ⟨first, following, rfl, notCloser, firstNotComma⟩ :=
          joinItems_begins reading.starts spelled
        refine .step (.check [closer] first following) ?_
        rw [not_contains_of_ne notCloser]
        refine .step (.not_accept firstNotComma following) ?_
        refine itemThen_items reading comma spelled ends (isCloser ▸ isBefore)
          fun _ middle middleSpelled shorter => ?_
        exact later middle middleSpelled budget
          (Nat.lt_of_lt_of_le shorter (Nat.le_of_lt_succ within))

/-- A list between two tokens. -/
def between (opener closer : TokenType) (list : Reader (List Node)) (kind : Kind) :
    Reader Node := do
  let start ← expect opener
  let items ← allowingIn true list
  let _ ← expect closer
  finish kind items start

/-- A list between two tokens gives a tree of its items. -/
theorem between_runs {deep : Prop} {opener closer : TokenType} (closes : strength closer = 0)
    {list : Reader (List Node)} {words : List Word} {forms : List (Node → Prop)}
    (gives : ∀ tokens token rest, Spelled words tokens (token :: rest) → token.type = closer →
      Ends (token :: rest) → Runs deep list tokens (GivesForms forms (token :: rest)))
    {kind : Kind} {form : Node → Prop}
    (is : ∀ source span values, List.Forall₂ (fun form value => form value) forms values →
      form (.read kind {} source span values))
    {tokens : List Token} {next : Token} {rest : List Token}
    (spelled : Spelled (fixed opener false :: (words ++ [fixed closer false])) tokens
      (next :: rest)) :
    Runs deep (between opener closer list kind) tokens fun value after =>
      form value ∧ after = next :: rest := by
  obtain ⟨start, others, rfl, isStart, spelled⟩ := spelled
  obtain ⟨_, itemsSpelled, last, _, rfl, isLast, rfl⟩ := Spelled.append_iff.mp spelled
  have lastType : last.type = closer := isLast.type
  have lastNext : Next 0 (last :: next :: rest) :=
    ⟨last, _, rfl, Nat.le_of_eq (by rw [lastType, closes])⟩
  have items := gives _ _ _ itemsSpelled lastType lastNext.ends
  obtain ⟨second, more, rfl⟩ := lastNext.cons itemsSpelled
  refine .step (.expect isStart.type second more) (.bind items.allowingIn ?_)
  rintro values _ ⟨areForms, rfl⟩
  refine .step (.expect lastType next rest) (.finishRead fun source span => ?_)
  exact ⟨is source span values areForms, rfl⟩

/-- Items that say what nodes say, each with its form. -/
def saying (items : List (Node × List Word)) : List ((Node → Prop) × List Word) :=
  items.map fun entry => (fun value => value.core = entry.1, entry.2)

theorem words_saying (items : List (Node × List Word)) :
    (saying items).map Prod.snd = items.map Prod.snd :=
  List.map_map

theorem forms_saying (items : List (Node × List Word)) :
    (saying items).map Prod.fst = (items.map Prod.fst).map fun node value => value.core = node := by
  rw [saying, List.map_map, List.map_map]
  rfl

theorem formsItem_of_saying {items : List (Node × List Word)}
    (reads : ∀ entry, entry ∈ items → ReadsItem deep item closer entry.1 entry.2)
    {entry : (Node → Prop) × List Word} (there : entry ∈ saying items) :
    FormsItem deep item closer (fun _ => True) entry.1 entry.2 := by
  obtain ⟨other, isOther, rfl⟩ := List.mem_map.mp there
  exact (reads other isOther).forms

theorem commaItems_runs {items : List (Node × List Word)} (notEmpty : items ≠ [])
    (reads : ∀ entry, entry ∈ items → ReadsItem deep item closer entry.1 entry.2)
    {tokens rest : List Token}
    (spelled : Spelled (joinItems (items.map Prod.snd)) tokens rest) (ends : Ends rest) :
    Runs deep (commaItems item) tokens (GivesItems (items.map Prod.fst) rest) := by
  obtain ⟨token, following, rfl, _⟩ := id ends
  rw [← words_saying] at spelled
  have runs := commaItems_forms (by simpa [saying] using notEmpty)
    (fun _ => formsItem_of_saying reads) trivial spelled ends trivial
  rw [forms_saying] at runs
  exact runs.mono id fun _ _ => givesItems_of_forms

theorem commaList_runs {items : List (Node × List Word)}
    (reads : ∀ entry, entry ∈ items → ReadsItem deep item closer entry.1 entry.2)
    {tokens : List Token} {token : Token} {others : List Token}
    (spelled : Spelled (joinItems (items.map Prod.snd)) tokens (token :: others))
    (isCloser : token.type = closer) (ends : Ends (token :: others)) :
    Runs deep (commaList closer item) tokens
      (GivesItems (items.map Prod.fst) (token :: others)) := by
  rw [← words_saying] at spelled
  have runs := commaList_forms (fun _ => formsItem_of_saying reads) trivial trivial spelled isCloser
    ends
  rw [forms_saying] at runs
  exact runs.mono id fun _ _ => givesItems_of_forms

theorem holedList_runs {items : List (Node × List Word)} (notComma : closer ≠ .comma)
    (reads : ∀ entry, entry ∈ items → entry = (.absent, []) ∨
      ReadsItem deep item closer entry.1 entry.2)
    {tokens : List Token} {token : Token} {others : List Token}
    (spelled : Spelled (joinItems (items.map Prod.snd)) tokens (token :: others))
    (isCloser : token.type = closer) (ends : Ends (token :: others)) :
    Runs deep (holedList closer item) tokens
      (GivesItems (items.map Prod.fst) (token :: others)) := by
  have forms : ∀ entry, entry ∈ saying items → (entry.1 .absent ∧ entry.2 = []) ∨
      FormsItem deep item closer (fun _ => True) entry.1 entry.2 := by
    intro entry there
    obtain ⟨other, isOther, rfl⟩ := List.mem_map.mp there
    rcases reads other isOther with rfl | reading
    · exact .inl ⟨rfl, rfl⟩
    · exact .inr reading.forms
  rw [← words_saying] at spelled
  have runs := holedList_forms notComma forms trivial trivial spelled isCloser ends
  rw [forms_saying] at runs
  exact runs.mono id fun _ _ => givesItems_of_forms

end Lists

end Grammar

end ScriptFold
