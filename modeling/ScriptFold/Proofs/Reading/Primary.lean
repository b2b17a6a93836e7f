import ScriptFold.Proofs.Reading.Spelling

/-!
# Reading primary expressions and chains

Names, literals, arrays, objects and parenthesised expressions, and what follows them in a
chain: members, subscripts and calls.
-/

namespace ScriptFold

namespace Grammar

open Word

private theorem Next.ne_kwFunction {tokens : List Token} (next : Next 19 tokens) :
    ∃ token rest, tokens = token :: rest ∧ token.type ≠ .kwFunction := by
  obtain ⟨token, rest, rfl, weak⟩ := next
  refine ⟨token, rest, rfl, fun isFunction => ?_⟩
  rw [isFunction] at weak
  exact absurd weak (by decide)

theorem isAsyncFunction_not {token next : Token} (notFunction : next.type ≠ .kwFunction)
    (rest : List Token) :
    Steps isAsyncFunction (token :: next :: rest) false (token :: next :: rest) := by
  have isFalse : (token.isNamed "async" && next.type == .kwFunction && !next.newlineBefore)
      = false := by
    rw [beq_false_of_ne notFunction, Bool.and_false, Bool.false_and]
  rw [← isFalse]
  exact (Steps.peek token next rest).bind ((Steps.checkName "async" token _).bind (.of_pure _))

theorem WellWorded.of_word {word : Word} (starts : startsChain word.type)
    (notOpen : word.type ≠ .openParen) {binds : Nat} {free : Bool} :
    WellWorded ⟨[word], binds, free⟩ := by
  have opens : Opens [word] := by
    by_cases isName : word.type = .ident
    · exact .name isName .nil
    · exact .other isName notOpen
  refine ⟨⟨word, [], rfl, ?_, fun _ => starts⟩, .cons ?_ .nil, fun _ => opens, opens.unlabeled⟩
  · simp [startsExpression, starts]
  · revert starts notOpen
    cases word.type <;> simp [startsChain]

/-- A name, read as its one token. -/
def IsNameRead (text : Text) (node : Node) : Prop :=
  ∃ source span token, token.text = text ∧
    node = .read .ident {} source span [leafOf .name token]

theorem forms_name (text : Text) (cost : Nat) :
    FormsPrimary (IsNameRead text) [⟨.ident, text, false⟩] cost := by
  intro level tokens rest spelled next
  obtain ⟨token, _, rfl, isWord, rfl⟩ := spelled
  obtain ⟨after, following, rfl, notFunction⟩ := next.ne_kwFunction
  have isType : token.type = .ident := isWord.type
  refine .step (.current token _) ?_
  rw [isType]
  refine .step (isAsyncFunction_not notFunction following) ?_
  refine .step (.advance token after following) (.finishRead fun source span => ?_)
  exact ⟨⟨source, span, token, isWord.text, rfl⟩, rfl⟩

/-- A name. -/
theorem reads_name (text : Text) (cost : Nat) :
    Reads (.made .ident [.word .name text]) ⟨[⟨.ident, text, false⟩], 20, true⟩ cost := by
  have reads : ReadsPrimary (.made .ident [.word .name text]) [⟨.ident, text, false⟩] cost := by
    intro level
    apply (forms_name text cost level).mono
    rintro _ ⟨source, span, token, rfl, rfl⟩
    exact Node.core_read (by nofun) {} source span [leafOf .name token]
  exact .of_chain (.of_word rfl (by nofun)) (Nat.le_succ 19) (reads.chain rfl (by nofun) true)

/-- The token types of the literals that are written anew. -/
def literals : List TokenType :=
  [.number, .string, .kwTrue, .kwFalse, .kwNull]

/-- A literal. -/
theorem reads_literal {type : TokenType} (isLiteral : type ∈ literals) (text : Text) (cost : Nat) :
    Reads (.made .literal [.word (literalLeaf type) text]) ⟨[⟨type, text, false⟩], 20, true⟩
      cost := by
  have starts : startsChain type ∧ type ≠ .openParen ∧ type ≠ .kwNew := by
    revert type
    decide
  have reads : ReadsPrimary (.made .literal [.word (literalLeaf type) text])
      [⟨type, text, false⟩] cost := by
    intro level tokens rest spelled next
    obtain ⟨token, _, rfl, isWord, rfl⟩ := spelled
    obtain ⟨after, following, rfl, _⟩ := next
    obtain rfl : token.text = text := isWord.text
    obtain rfl : token.type = type := isWord.type
    have finished : Runs (level < cost) (do
        let _ ← advance
        finish .literal [leafOf (literalLeaf token.type) token] token) (token :: after :: following)
        fun value rest => value.core = .made .literal [.word (literalLeaf token.type) token.text] ∧
          rest = after :: following := by
      refine .step (.advance token after following) (.finishWith (by decide) fun node isNode => ?_)
      exact ⟨isNode, rfl⟩
    refine .step (.current token _) ?_
    simp only [literals, List.mem_cons, List.not_mem_nil, or_false] at isLiteral
    rcases isLiteral with isType | isType | isType | isType | isType <;>
      simp only [isType] at finished ⊢ <;> exact finished
  exact .of_chain (.of_word starts.1 starts.2.1) (Nat.le_succ 19) (reads.chain rfl starts.2.2 true)

theorem reads_this (cost : Nat) :
    Reads (.made .thisExpr []) ⟨[fixed .kwThis false], 20, true⟩ cost := by
  have reads : ReadsPrimary (.made .thisExpr []) [fixed .kwThis false] cost := by
    intro level tokens rest spelled next
    obtain ⟨token, _, rfl, isWord, rfl⟩ := spelled
    obtain ⟨after, following, rfl, _⟩ := next
    have isType : token.type = .kwThis := isWord.type
    refine .step (.current token _) ?_
    rw [isType]
    refine .step (.advance token after following) (.finishWith (by decide) fun node isNode => ?_)
    exact ⟨isNode, rfl⟩
  exact .of_chain (.of_word rfl (by nofun)) (Nat.le_succ 19) (reads.chain rfl (by nofun) true)

/-- Words are read as one more link of a chain. -/
def FormsLink (object form : Node → Prop) (words : List Word) (free : Bool) (cost : Nat) : Prop :=
  ∀ level calls start value tokens rest, (calls = false → free) → object value →
    Spelled words tokens rest → Next 19 rest →
    Runs (level < cost) (chainLink? (rulesAt level) calls start value) tokens
      fun longer after => ∃ result, longer = some result ∧ form result ∧ after = rest

/-- Words are read as one more link of a chain, which then says what a node says. -/
abbrev ReadsLink (object node : Node) (words : List Word) (free : Bool) (cost : Nat) : Prop :=
  FormsLink (fun value => value.core = object) (fun value => value.core = node) words free cost

theorem FormsChain.link {object form : Node → Prop} {words more : List Word}
    {free linkFree : Bool} {cost : Nat} (reads : FormsChain object words free 19 cost)
    (link : FormsLink object form more linkFree cost) {first : Word} {others : List Word}
    (isMore : more = first :: others) (weak : strength first.type ≤ 19) :
    FormsChain form (words ++ more) (free && linkFree) 19 cost := by
  intro level calls start tokens rest deep gives isFree deeper spelled next goes
  obtain ⟨middle, wordsSpelled, moreSpelled⟩ := Spelled.append_iff.mp spelled
  have both : calls = false → free = true ∧ linkFree = true := fun noCalls =>
    Bool.and_eq_true_iff.mp (isFree noCalls)
  have linkNext : Next 19 middle := by
    rw [isMore] at moreSpelled
    exact next_of_spelled moreSpelled weak
  refine reads level calls start tokens middle deep gives (fun noCalls => (both noCalls).1) deeper
    wordsSpelled linkNext fun budget value isObject within => ?_
  rcases budget with _ | budget
  · cases within
  have linked := link level calls start value middle rest (fun noCalls => (both noCalls).2) isObject
    moreSpelled next
  refine .bind (linked.mono deeper fun _ _ is => is) ?_
  rintro _ _ ⟨result, rfl, isNode, rfl⟩
  refine goes budget result isNode ?_
  rw [moreSpelled.length, isMore, List.length_cons] at within
  omega

/-- A link is finished as any tree. -/
theorem finish_link_read {deep : Prop} {kind : Kind} {flags : Flags} {children : List Node}
    {start : Token} {tokens : List Token} {form : Node → Prop}
    (is : ∀ source span, form (.read kind flags source span children)) :
    Runs deep (do return some (← finishWith flags kind children start)) tokens
      fun longer after => ∃ result, longer = some result ∧ form result ∧ after = tokens := by
  have finished : Runs deep (finishWith flags kind children start) tokens
      fun value after => form value ∧ after = tokens :=
    .finishRead fun source span => ⟨is source span, rfl⟩
  refine .bind finished ?_
  rintro value _ ⟨isForm, rfl⟩
  exact .of_pure ⟨value, rfl, isForm, rfl⟩

theorem finish_link {deep : Prop} {kind : Kind} {flags : Flags} {children : List Node}
    {start : Token} {tokens : List Token} {node : Node} (notParen : kind ≠ .paren)
    (isNode : .tree kind flags none (Node.unseated (children.map Node.core)) = node) :
    Runs deep (do return some (← finishWith flags kind children start)) tokens
      fun longer after => ∃ result, longer = some result ∧ result.core = node ∧ after = tokens :=
  finish_link_read fun source span =>
    (Node.core_read notParen flags source span children).trans isNode

def dotWord (optional : Bool) : Word :=
  fixed (if optional then .optionalDot else .dot) false

/-- A member, optional or not. -/
theorem readsLink_member (object : Node) (optional : Bool) (text : Text) (cost : Nat) :
    ReadsLink object (.tree .member { optional } none (Node.unseated [object, .word .name text]))
      [dotWord optional, ⟨.ident, text, false⟩] true cost := by
  intro level calls start value tokens rest _ isObject spelled next
  obtain ⟨link, _, rfl, isLink, name, _, rfl, isName, rfl⟩ := spelled
  obtain ⟨after, following, rfl, _⟩ := next
  have nameType : name.type = .ident := isName.type
  have nameText : name.text = text := isName.text
  have named : ∀ optional, Steps (propertyName optional) (name :: after :: following) name
      (after :: following) := by
    intro optional
    refine (Steps.current name _).bind ?_
    rw [nameType]
    exact .advance name after following
  have leaf : ∀ flags : Flags, Node.tree .member flags none (Node.unseated
      ([value, leafOf .name name].map Node.core)) =
        .tree .member flags none (Node.unseated [object, .word .name text]) := by
    intro flags
    rw [← isObject, ← nameText]
    rfl
  cases optional with
  | false =>
      have linkType : link.type = .dot := isLink.type
      refine .step (.current link _) ?_
      rw [linkType]
      refine .step (.advance link name _) (.step (named false) ?_)
      rw [if_neg (by rw [nameType]; nofun)]
      exact finish_link (by decide) (leaf {})
  | true =>
      have linkType : link.type = .optionalDot := isLink.type
      have notOpen : name.type ≠ .openParen := by rw [nameType]; nofun
      have notBracket : name.type ≠ .openBracket := by rw [nameType]; nofun
      refine .step (.current link _) ?_
      rw [linkType]
      refine .step (.advance link name _) (.step (.check _ name _) ?_)
      rw [not_contains_of_ne notOpen]
      refine .step (.not_accept notBracket _) (.step (named true) ?_)
      exact finish_link (by decide) (leaf { optional := true })

/-- What stands before the brackets or parentheses of an optional link. -/
def optionalWords (optional : Bool) : List Word :=
  if optional then [fixed .optionalDot false] else []

def indexWords (words : List Word) : List Word :=
  fixed .openBracket false :: (words ++ [fixed .closeBracket false])

theorem bracketed_runs {index : Node} {words : List Word} {cost : Nat}
    (reads : ReadsExpression index words cost) (level : Nat) {tokens rest : List Token}
    (spelled : Spelled (words ++ [fixed .closeBracket false]) tokens rest) (next : Next 19 rest) :
    Runs (level < cost + 5) (bracketed (rulesAt level)) tokens
      fun value after => value.core = index ∧ after = rest := by
  obtain ⟨middle, wordsSpelled, closer, last, rfl, isCloser, rfl⟩ := Spelled.append_iff.mp spelled
  have closeType : closer.type = .closeBracket := isCloser.type
  have closes : Next 0 (closer :: last) := ⟨closer, last, rfl, by rw [closeType]; decide⟩
  obtain ⟨after, following, rfl, _⟩ := next
  refine .bind (reads level tokens _ wordsSpelled closes).allowingIn ?_
  rintro value _ ⟨isIndex, rfl⟩
  exact .step (.expect closeType after following) (.of_pure ⟨isIndex, rfl⟩)

/-- A subscript, optional or not. -/
theorem readsLink_subscript (object : Node) {index : Node} {words : List Word} {cost : Nat}
    (reads : ReadsExpression index words cost) (optional : Bool) :
    ReadsLink object (.tree .subscript { optional } none (Node.unseated [object, index]))
      (optionalWords optional ++ indexWords words) true (cost + 5) := by
  intro level calls start value tokens rest _ isObject spelled next
  have leaf : ∀ flags inner, inner.core = index → Node.tree .subscript flags none
      (Node.unseated ([value, inner].map Node.core)) =
        .tree .subscript flags none (Node.unseated [object, index]) := by
    rintro flags inner rfl
    rw [← isObject]
    rfl
  cases optional with
  | false =>
      obtain ⟨opener, others, rfl, isOpener, spelled⟩ := spelled
      have openType : opener.type = .openBracket := isOpener.type
      have inner := bracketed_runs reads level spelled next
      obtain ⟨second, more, rfl⟩ := next.cons spelled
      refine .step (.current opener _) ?_
      rw [openType]
      refine .step (.advance opener second more) (.bind inner ?_)
      rintro result _ ⟨isIndex, rfl⟩
      exact finish_link (by decide) (leaf {} result isIndex)
  | true =>
      obtain ⟨link, _, rfl, isLink, opener, others, rfl, isOpener, spelled⟩ := spelled
      have linkType : link.type = .optionalDot := isLink.type
      have openType : opener.type = .openBracket := isOpener.type
      have notOpen : opener.type ≠ .openParen := by rw [openType]; nofun
      have inner := bracketed_runs reads level spelled next
      obtain ⟨second, more, rfl⟩ := next.cons spelled
      refine .step (.current link _) ?_
      rw [linkType]
      refine .step (.advance link opener _) (.step (.check _ opener _) ?_)
      rw [not_contains_of_ne notOpen]
      refine .step (.accept openType second more) (.bind inner ?_)
      rintro result _ ⟨isIndex, rfl⟩
      exact finish_link (by decide) (leaf { optional := true } result isIndex)

/-- An item of a list that may be spread. -/
structure ReadsSpreadable (cost : Nat) (closer : TokenType) (node : Node) (words : List Word) :
    Prop where
  reads : ∀ level, ReadsItem (level < cost + 4) (spreadable (rulesAt level)) closer node words
  balanced : Balanced words

/-- An assignment expression is read where it may be spread. -/
theorem FormsAssignment.spreadable {form : Node → Prop} {words : List Word} {cost : Nat}
    (reads : FormsAssignment form words cost) {first : Word} {others : List Word}
    (isWords : words = first :: others) (notSpread : first.type ≠ .ellipsis) (level : Nat) :
    GivesForm (level < cost + 4) (Grammar.spreadable (rulesAt level)) words form 2 := by
  intro tokens rest spelled next
  have value := reads level tokens rest spelled next
  subst isWords
  obtain ⟨token, following, rfl, isFirst, _⟩ := spelled
  rw [← isFirst.type] at notSpread
  exact .step (.current token following) (.step (.not_accept notSpread following) value)

theorem Reads.spreadable {node : Node} {spelling : Spelling} {cost : Nat}
    (reads : Reads node spelling cost) (tight : 3 ≤ spelling.binds) {closer : TokenType}
    (closes : closer ∈ [.closeParen, .closeBracket]) :
    ReadsSpreadable cost closer node spelling.words := by
  refine ⟨fun level => ?_, reads.worded.balanced⟩
  obtain ⟨first, more, isWords, starts, _⟩ := reads.worded.starts
  have plain := startsExpression_not starts
  refine ⟨⟨first, more, isWords, ?_, ?_⟩, ?_⟩
  · rintro rfl
    simp only [List.mem_cons, List.not_mem_nil, or_false] at closes
    rcases closes with isCloser | isCloser <;> simp [isCloser] at plain
  · intro isComma
    simp [isComma] at plain
  · apply (reads.assignment (Nat.le_of_succ_le tight)).spreadable isWords
    intro isSpread
    simp [isSpread] at plain

/-- A spread item. -/
theorem Reads.spread {node : Node} {spelling : Spelling} {cost : Nat}
    (reads : Reads node spelling cost) (tight : 3 ≤ spelling.binds) {closer : TokenType}
    (closes : closer ∈ [.closeParen, .closeBracket]) :
    ReadsSpreadable cost closer (.made .spread [node])
      (fixed .ellipsis false :: spelling.words) := by
  refine ⟨fun level => ?_, .cons (by decide) reads.worded.balanced⟩
  refine ⟨⟨_, _, rfl, ?_, by nofun⟩, ?_⟩
  · simp only [List.mem_cons, List.not_mem_nil, or_false] at closes
    rcases closes with rfl | rfl <;> nofun
  · rintro tokens rest ⟨dots, others, rfl, isDots, spelled⟩ next
    have dotsType : dots.type = .ellipsis := isDots.type
    have value := reads.assignment (Nat.le_of_succ_le tight) level others rest spelled next
    obtain ⟨second, more, rfl⟩ := next.cons spelled
    refine .step (.current dots _) (.step (.accept dotsType second more) (.bind value ?_))
    rintro result _ ⟨isNode, rfl⟩
    refine .finishWith (by decide) fun whole isWhole => ⟨isWhole.trans ?_, rfl⟩
    rw [← isNode]
    rfl

def argumentWords (items : List (Node × List Word)) : List Word :=
  fixed .openParen false :: (joinItems (items.map Prod.snd) ++ [fixed .closeParen false])

/-- A list of arguments of some form, as it is read. -/
def IsArgsRead (are : List Node → Prop) (node : Node) : Prop :=
  ∃ source span values, are values ∧ node = .read .args {} source span values

/-- Words in parentheses are read as arguments if they are read as a list of them. -/
theorem arguments_of_list {are : List Node → Prop} {words : List Word} {cost level : Nat}
    (list : ∀ tokens closer rest, Spelled words tokens (closer :: rest) → closer.type = .closeParen →
      Runs (level < cost) (commaList .closeParen (spreadable (rulesAt level))) tokens
        fun values after => are values ∧ after = closer :: rest) :
    GivesForm (level < cost) (Grammar.arguments (rulesAt level))
      (fixed .openParen false :: (words ++ [fixed .closeParen false])) (IsArgsRead are) 19 := by
  rintro tokens rest ⟨opener, others, rfl, isOpener, spelled⟩ next
  obtain ⟨middle, wordsSpelled, closer, last, rfl, isCloser, rfl⟩ := Spelled.append_iff.mp spelled
  have openType : opener.type = .openParen := isOpener.type
  have closeType : closer.type = .closeParen := isCloser.type
  have closes : Next 0 (closer :: last) := ⟨closer, last, rfl, by rw [closeType]; decide⟩
  have items := list _ _ _ wordsSpelled closeType
  obtain ⟨second, more, rfl⟩ := closes.cons wordsSpelled
  obtain ⟨after, following, rfl, _⟩ := next
  refine .step (.expect openType second more) (.bind items.allowingIn ?_)
  rintro values _ ⟨areItems, rfl⟩
  refine .step (.expect closeType after following) (.finishRead fun source span => ?_)
  exact ⟨⟨source, span, values, areItems, rfl⟩, rfl⟩

theorem arguments_gives {items : List (Node × List Word)} {cost : Nat}
    (reads : ∀ entry, entry ∈ items → ReadsSpreadable cost .closeParen entry.1 entry.2)
    (level : Nat) :
    Gives (level < cost + 4) (Grammar.arguments (rulesAt level)) (argumentWords items)
      (.made .args (items.map Prod.fst)) 19 := by
  have list := @arguments_of_list (fun values => values.map Node.core = items.map Prod.fst)
    (joinItems (items.map Prod.snd)) (cost + 4) level fun tokens closer rest spelled isCloser =>
      commaList_runs (fun entry there => (reads entry there).reads level) spelled isCloser
        (Next.ends ⟨closer, rest, rfl, by rw [isCloser]; decide⟩)
  apply list.mono
  rintro _ ⟨source, span, values, areNodes, rfl⟩
  refine (Node.core_read (by decide) {} source span values).trans ?_
  rw [areNodes]
  rfl

/-- A call of some callee with some arguments, as it is read. -/
def IsCallRead (callee args : Node → Prop) (node : Node) : Prop :=
  ∃ source span object list, callee object ∧ args list ∧
    node = .read .call {} source span [object, list]

/-- Arguments after a callee. -/
theorem formsLink_call (object : Node → Prop) {args : Node → Prop} {words : List Word} {cost : Nat}
    (gives : ∀ level, GivesForm (level < cost) (Grammar.arguments (rulesAt level))
      (fixed .openParen false :: words) args 19) :
    FormsLink object (IsCallRead object args) (fixed .openParen false :: words) false cost := by
  intro level calls start value tokens rest isFree isObject spelled next
  have list := gives level tokens rest spelled next
  obtain ⟨opener, others, rfl, isOpener, _⟩ := spelled
  have openType : opener.type = .openParen := isOpener.type
  have allowed : calls = true := by
    cases calls with
    | false => cases isFree rfl
    | true => rfl
  refine .step (.current opener _) ?_
  rw [openType, allowed]
  refine .bind list ?_
  rintro result _ ⟨isArgs, rfl⟩
  exact finish_link_read fun source span => ⟨source, span, value, result, isObject, isArgs, rfl⟩

/-- A call, optional or not. -/
theorem readsLink_call (object : Node) {items : List (Node × List Word)} {cost : Nat}
    (reads : ∀ entry, entry ∈ items → ReadsSpreadable cost .closeParen entry.1 entry.2)
    (optional : Bool) :
    ReadsLink object (.tree .call { optional } none
        (Node.unseated [object, .made .args (items.map Prod.fst)]))
      (optionalWords optional ++ argumentWords items) false (cost + 4) := by
  intro level calls start value tokens rest isFree isObject spelled next
  cases optional with
  | false =>
      have link := formsLink_call (fun value => value.core = object) (arguments_gives reads) level
        calls start value tokens rest isFree isObject spelled next
      apply link.mono id
      rintro _ _ ⟨_, isResult, ⟨source, span, callee, list, isCallee, isArgs, rfl⟩, isRest⟩
      have isCore := @Node.core_read .call nofun {} source span [callee, list]
      refine ⟨_, isResult, isCore.trans ?_, isRest⟩
      rw [← isCallee, ← isArgs]
      rfl
  | true =>
      obtain ⟨link, others, rfl, isLink, spelled⟩ := spelled
      have linkType : link.type = .optionalDot := isLink.type
      have args := arguments_gives reads level others rest spelled next
      obtain ⟨opener, more, rfl, isOpener, _⟩ := spelled
      have openType : opener.type = .openParen := isOpener.type
      refine .step (.current link _) ?_
      rw [linkType]
      refine .step (.advance link opener more) (.step (.check _ opener more) ?_)
      rw [openType]
      refine .bind args ?_
      rintro result _ ⟨isArgs, rfl⟩
      have isNode : Node.tree .call { optional := true } none
          (Node.unseated ([value, result].map Node.core)) = .tree .call { optional := true } none
            (Node.unseated [object, .made .args (items.map Prod.fst)]) := by
        rw [← isObject, ← isArgs]
        rfl
      exact finish_link (by decide) isNode

theorem Balanced.joinItems {items : List (List Word)} {trailing : Bool}
    (balanced : ∀ words, words ∈ items → Balanced words) :
    Balanced (Grammar.joinItems items trailing) := by
  induction items with
  | nil => exact .nil
  | cons words items induction =>
      have first := balanced words List.mem_cons_self
      have later := induction fun other there => balanced other (.tail _ there)
      cases items with
      | nil =>
          rw [Grammar.joinItems]
          split
          · exact first.append (.cons (by decide) .nil)
          · exact first
      | cons => exact first.append (.cons (by decide) later)

theorem balanced_spreadables {items : List (Node × List Word)} {cost : Nat} {closer : TokenType}
    (reads : ∀ entry, entry ∈ items → ReadsSpreadable cost closer entry.1 entry.2) :
    Balanced (joinItems (items.map Prod.snd)) := by
  apply Balanced.joinItems
  intro words there
  obtain ⟨entry, isEntry, rfl⟩ := List.mem_map.mp there
  exact (reads entry isEntry).balanced

section Chains

variable {object : Node} {spelling : Spelling} {cost : Nat}

/-- A chain with one more link. -/
theorem Reads.link (reads : Reads object spelling cost) (tight : 19 ≤ spelling.binds) {node : Node}
    {more : List Word} {linkFree : Bool} (link : ReadsLink object node more linkFree cost)
    (balanced : Balanced more) (continues : Continues more)
    (starts : ∃ first others, more = first :: others ∧ strength first.type ≤ 19) :
    Reads node ⟨spelling.words ++ more, 19, spelling.free && linkFree⟩ cost := by
  obtain ⟨first, others, isMore, weak⟩ := starts
  refine .of_chain ?_ (Nat.le_refl 19) ((reads.chain tight).link link isMore weak)
  exact reads.worded.extend (Nat.le_trans (by decide) tight) balanced continues tight

theorem Reads.member (reads : Reads object spelling cost) (tight : 19 ≤ spelling.binds)
    (optional : Bool) (text : Text) :
    Reads (.tree .member { optional } none (Node.unseated [object, .word .name text]))
      ⟨spelling.words ++ [dotWord optional, ⟨.ident, text, false⟩], 19, spelling.free && true⟩
      cost := by
  have link := readsLink_member object optional text cost
  have named : Balanced [⟨.ident, text, false⟩] := .cons (by simp) .nil
  cases optional with
  | false =>
      exact reads.link tight link (.cons (by decide) named) (.link (by decide))
        ⟨_, _, rfl, by decide⟩
  | true =>
      exact reads.link tight link (.cons (by decide) named) (.link (by decide))
        ⟨_, _, rfl, by decide⟩

theorem Reads.subscript (reads : Reads object spelling (cost + 5)) (tight : 19 ≤ spelling.binds)
    {index : Node} {inner : Spelling} (indexReads : Reads index inner cost) (optional : Bool) :
    Reads (.tree .subscript { optional } none (Node.unseated [object, index]))
      ⟨spelling.words ++ (optionalWords optional ++ indexWords inner.words), 19,
        spelling.free && true⟩ (cost + 5) := by
  have link := readsLink_subscript object indexReads.expression optional
  have bracketed : Balanced (indexWords inner.words) :=
    .cons (by decide) (indexReads.worded.balanced.append (.cons (by decide) .nil))
  cases optional with
  | false => exact reads.link tight link bracketed (.link (by decide)) ⟨_, _, rfl, by decide⟩
  | true =>
      exact reads.link tight link (.cons (by decide) bracketed) (.link (by decide))
        ⟨_, _, rfl, by decide⟩

theorem Reads.call (reads : Reads object spelling (cost + 4)) (tight : 19 ≤ spelling.binds)
    {items : List (Node × List Word)}
    (itemsRead : ∀ entry, entry ∈ items → ReadsSpreadable cost .closeParen entry.1 entry.2)
    (optional : Bool) :
    Reads (.tree .call { optional } none
        (Node.unseated [object, .made .args (items.map Prod.fst)]))
      ⟨spelling.words ++ (optionalWords optional ++ argumentWords items), 19,
        spelling.free && false⟩ (cost + 4) := by
  have link := readsLink_call object itemsRead optional
  have balanced := balanced_spreadables itemsRead
  cases optional with
  | false =>
      exact reads.link tight link (balanced.enclosed .nil) (.call balanced .nil)
        ⟨_, _, rfl, by decide⟩
  | true =>
      exact reads.link tight link (.cons (by decide) (balanced.enclosed .nil)) (.link (by decide))
        ⟨_, _, rfl, by decide⟩

end Chains

/-- Words behind one that is neither a name nor a parenthesis. -/
theorem WellWorded.of_opener {word : Word} {more : List Word} {binds : Nat} {free : Bool}
    (starts : startsExpression word.type) (chained : 19 ≤ binds → startsChain word.type)
    (plain : word.type ∉ [.ident, .openParen]) (balanced : Balanced (word :: more)) :
    WellWorded ⟨word :: more, binds, free⟩ := by
  simp only [List.mem_cons, List.not_mem_nil, or_false, not_or] at plain
  have opens : Opens (word :: more) := .other plain.1 plain.2
  exact ⟨⟨word, more, rfl, starts, chained⟩, balanced, fun _ => opens, opens.unlabeled⟩

/-- An array, whose items may be holes. -/
theorem reads_array {items : List (Node × List Word)} {cost : Nat}
    (reads : ∀ entry, entry ∈ items → entry = (.absent, []) ∨
      ReadsSpreadable cost .closeBracket entry.1 entry.2) :
    Reads (.made .array (items.map Prod.fst))
      ⟨indexWords (joinItems (items.map Prod.snd)), 20, true⟩ (cost + 4) := by
  have balanced : Balanced (indexWords (joinItems (items.map Prod.snd))) := by
    refine .cons (by decide) (.append (.joinItems fun words there => ?_) (.cons (by decide) .nil))
    obtain ⟨entry, isEntry, rfl⟩ := List.mem_map.mp there
    rcases reads entry isEntry with rfl | item
    · exact .nil
    · exact item.balanced
  have primary : ReadsPrimary (.made .array (items.map Prod.fst))
      (indexWords (joinItems (items.map Prod.snd))) (cost + 4) := by
    rintro level tokens rest ⟨opener, others, rfl, isOpener, spelled⟩ next
    obtain ⟨middle, itemsSpelled, closer, last, rfl, isCloser, rfl⟩ :=
      Spelled.append_iff.mp spelled
    have openType : opener.type = .openBracket := isOpener.type
    have closeType : closer.type = .closeBracket := isCloser.type
    have closes : Next 0 (closer :: last) := ⟨closer, last, rfl, by rw [closeType]; decide⟩
    have list := holedList_runs (by decide)
      (fun entry there => (reads entry there).imp_right fun item => item.reads level) itemsSpelled
      closeType closes.ends
    obtain ⟨second, more, rfl⟩ := closes.cons itemsSpelled
    obtain ⟨after, following, rfl, _⟩ := next
    refine .step (.current opener _) ?_
    rw [openType]
    refine .step (.expect openType second more) (.bind list.allowingIn ?_)
    rintro values _ ⟨areNodes, rfl⟩
    refine .step (.expect closeType after following)
      (.finishWith (by decide) fun whole isWhole => ⟨isWhole.trans ?_, rfl⟩)
    rw [areNodes]
    rfl
  exact .of_chain (.of_opener rfl (fun _ => rfl) (by decide) balanced) (Nat.le_succ 19)
    (primary.chain rfl (by nofun) true)

/-- A key that is a string has no modifiers. -/
theorem modifiers_string {token next : Token} (isString : token.type = .string)
    (rest : List Token) :
    Steps modifiers (token :: next :: rest) ⟨"method", false, false⟩ (token :: next :: rest) := by
  have unnamed : ∀ name, token.isNamed name = false := by
    intro name
    simp [Token.isNamed, isString]
  refine (Steps.current token _).bind ((Steps.peek token next rest).bind ?_)
  simp only [unnamed, Bool.false_and, Bool.or_self, Bool.false_eq_true, if_false]
  exact (Steps.not_accept (by rw [isString]; decide) _).bind (.of_pure _)

def propertyWords (key : Text) (words : List Word) : List Word :=
  ⟨.string, key, false⟩ :: fixed .colon false :: words

def stringProperty (key : Text) (value : Node) : Node :=
  .made .property [.made .literal [.word .string key], value]

theorem readsItem_property {value : Node} {spelling : Spelling} {cost : Nat}
    (reads : Reads value spelling cost) (tight : 3 ≤ spelling.binds) (key : Text) (level : Nat) :
    ReadsItem (level < cost + 4) (objectMember (rulesAt level)) .closeBrace
      (stringProperty key value) (propertyWords key spelling.words) := by
  refine ⟨⟨_, _, rfl, by nofun, by nofun⟩, ?_⟩
  rintro tokens rest ⟨start, _, rfl, isKey, colon, others, rfl, isColon, spelled⟩ next
  have keyType : start.type = .string := isKey.type
  have keyText : start.text = key := isKey.text
  have colonType : colon.type = .colon := isColon.type
  have assigned := reads.assignment (Nat.le_of_succ_le tight) level others rest spelled next
  obtain ⟨second, more, rfl⟩ := next.cons spelled
  have keyed : Runs (level < cost + 4) (propertyKey (rulesAt level)) (start :: colon :: second :: more)
      fun node after => node.core = .made .literal [.word .string key] ∧
        after = colon :: second :: more := by
    refine .step (.current start _) ?_
    rw [keyType]
    refine .step (.advance start colon _)
      (.finishWith (by decide) fun node isNode => ⟨isNode.trans ?_, rfl⟩)
    rw [← keyText]
    rfl
  refine .step (.current start _) (.step (.not_accept (by rw [keyType]; nofun) _) ?_)
  refine .step (modifiers_string keyType _) (.bind keyed ?_)
  rintro node _ ⟨isNode, rfl⟩
  refine .step (.check _ colon _) ?_
  rw [not_contains_of_ne (by rw [colonType]; nofun)]
  refine .step (.accept colonType second more) (.bind assigned ?_)
  rintro result _ ⟨isResult, rfl⟩
  refine .finishWith (by decide) fun whole isWhole => ⟨isWhole.trans ?_, rfl⟩
  rw [stringProperty, ← isNode, ← isResult]
  rfl

def braceWords (words : List Word) : List Word :=
  fixed .openBrace false :: (words ++ [fixed .closeBrace false])

/-- An object whose keys are strings. -/
theorem reads_object {items : List (Node × List Word)} {cost : Nat}
    (balanced : ∀ entry, entry ∈ items → Balanced entry.2)
    (reads : ∀ entry, entry ∈ items → ∀ level,
      ReadsItem (level < cost + 4) (objectMember (rulesAt level)) .closeBrace entry.1 entry.2) :
    Reads (.made .object (items.map Prod.fst))
      ⟨braceWords (joinItems (items.map Prod.snd)), 20, true⟩ (cost + 4) := by
  have balanced : Balanced (braceWords (joinItems (items.map Prod.snd))) := by
    refine .cons (by decide) (.append (.joinItems fun words there => ?_) (.cons (by decide) .nil))
    obtain ⟨entry, isEntry, rfl⟩ := List.mem_map.mp there
    exact balanced entry isEntry
  have primary : ReadsPrimary (.made .object (items.map Prod.fst))
      (braceWords (joinItems (items.map Prod.snd))) (cost + 4) := by
    rintro level tokens rest ⟨opener, others, rfl, isOpener, spelled⟩ next
    obtain ⟨middle, itemsSpelled, closer, last, rfl, isCloser, rfl⟩ :=
      Spelled.append_iff.mp spelled
    have openType : opener.type = .openBrace := isOpener.type
    have closeType : closer.type = .closeBrace := isCloser.type
    have closes : Next 0 (closer :: last) := ⟨closer, last, rfl, by rw [closeType]; decide⟩
    have list := commaList_runs (fun entry there => reads entry there level) itemsSpelled closeType
      closes.ends
    obtain ⟨second, more, rfl⟩ := closes.cons itemsSpelled
    obtain ⟨after, following, rfl, _⟩ := next
    refine .step (.current opener _) ?_
    rw [openType]
    refine .step (.expect openType second more) (.bind list.allowingIn ?_)
    rintro values _ ⟨areNodes, rfl⟩
    refine .step (.expect closeType after following)
      (.finishWith (by decide) fun whole isWhole => ⟨isWhole.trans ?_, rfl⟩)
    rw [areNodes]
    rfl
  exact .of_chain (.of_opener rfl (fun _ => rfl) (by decide) balanced) (Nat.le_succ 19)
    (primary.chain rfl (by nofun) true)

end Grammar

end ScriptFold
