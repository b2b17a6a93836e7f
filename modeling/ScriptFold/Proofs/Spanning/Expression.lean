import ScriptFold.Grammar.Expression
import ScriptFold.Proofs.Spanning.Basic

/-!
# Expressions span what they read

Keys, patterns, functions, classes and expressions: every reader of them spans what it reads, given
that the rules below it do.
-/

namespace ScriptFold

namespace Grammar

open Node

/-- The rules span what they read. -/
structure SpanningRules (rules : Rules) : Prop where
  statement : Spanning rules.statement
  expression : Spanning rules.expression
  assignment : Spanning rules.assignment
  binary : ∀ least, Spanning (rules.binary least)
  unary : Spanning rules.unary
  leftHandSide : Spanning rules.leftHandSide
  construction : Spanning rules.construction
  target : Spanning rules.target

variable {rules : Rules} {start : Nat} {nodes : List Node}

/-! ### Keys, targets and parameters -/

theorem bindingOf_spanning {token : Token} :
    Gathers (TookToken token.start [] token) (bindingOf token)
      fun node => Took token.start [node] :=
  .leaf .name (finish_spanning nofun)

/-- A key that is no tree is the token that it begins with. -/
structure KeyFrom (token : Token) (key : Node) (state : State) : Prop where
  took : Took token.start [key] state
  former : key.isTree = false → Fills token key state

theorem leaf_fills {token : Token} {type : LeafType} (state : State)
    (tookToken : TookToken token.start [] token state) :
    KeyFrom token (leafOf type token) state := by
  have took := tookToken.leaf type
  refine ⟨took, fun _ => ⟨took, ?_⟩⟩
  rw [tookToken.reach]
  rfl

theorem finish_key {token : Token} {kind : Kind} (unnamed : kind ≠ .shorthandProperty) :
    Gathers (Took token.start nodes) (finish kind nodes token) (KeyFrom token) :=
  (finishWith_finished unnamed fun _ => id).mono
    fun _ _ finished => ⟨finished.2.took, fun _ => finished.2.toFills⟩

theorem propertyKey_facing (spanning : SpanningRules rules) {token : Token} :
    Gathers (Facing token (Read token.start [])) (propertyKey rules) (KeyFrom token) := by
  refine .current_facing (.ite (fun isName => ?_) fun _ => ?_)
  · exact .take_facing (proper_of isName rfl) (.of_pure leaf_fills)
  split
  case h_1 is => exact .take_facing (is ▸ nofun) (.of_pure leaf_fills)
  case h_2 is | h_3 is | h_4 is => exact .take_facing (is ▸ nofun) (.leaf _ (finish_key nofun))
  case h_5 is =>
    refine .take_facing (is ▸ nofun) (.past ?_)
    refine .bind spanning.assignment.adds.allowingIn fun expression => ?_
    exact .after fun _ => finish_key nofun
  case h_6 => exact .of_failAt

theorem propertyKey_spanning (spanning : SpanningRules rules) : Spanning (propertyKey rules) :=
  .of_facing fun _ => (propertyKey_facing spanning).mono fun _ _ key => key.took

theorem restElement_spanning (spanning : SpanningRules rules) {token : Token} :
    Closes token [] (restElement rules token) :=
  .bind spanning.target.adds fun _ => finish_spanning nofun

theorem parameter_spanning (spanning : SpanningRules rules) : Spanning (parameter rules) := by
  refine .opening fun token => .accepted nofun (fun _ => id) (restElement_spanning spanning) ?_
  refine .bind spanning.target.opens fun target => .after fun hasDefault => ?_
  refine .ite (fun _ => ?_) fun _ => ?_
  · exact .bind spanning.assignment.adds fun default => finish_spanning nofun
  · exact .of_pure fun _ => id

theorem arrayPattern_spanning (spanning : SpanningRules rules) : Spanning (arrayPattern rules) := by
  refine .expect nofun fun token => ?_
  refine .bind (parameter_spanning spanning).holedList.allowingIn fun elements => ?_
  exact .after fun _ => finish_spanning nofun

/-- A name with the span of a key that is no tree and begins with a token. -/
structure NamesKey (token : Token) (key name : Node) : Prop where
  isLeaf : key.isTree = false
  nested : key.Nested
  former : name.toFormer = key.toFormer
  begins : ∃ stop, key.toFormer = .present (some token.start) stop

/-- The key and the target of a shorthand property, of which the target begins with the name. -/
theorem NamesKey.doubled {token : Token} {key name target : Node} {state : State} {span : Span}
    (names : NamesKey token key name) (took : Took token.start (name :: nodes) state)
    (fills : Fills token target state) (begins : span.start = token.start)
    (ends : span.stop = state.reach) : Doubled span key target := by
  obtain ⟨last, isKey⟩ := names.begins
  have there : .present (some token.start) last ∈ (name :: nodes).map toFormer := by
    rw [← isKey, ← names.former]
    exact List.mem_cons_self
  obtain ⟨first, stop, isFirst, rfl, _, proper, within⟩ := took.laid.present_of_mem there
  cases isFirst
  have further := fills.took.further
  rw [← ends] at within further
  exact ⟨names.isLeaf, token.start, stop, state.reach, isKey, fills.former, Nat.le_of_eq begins,
    proper, within, fills.took.further, Nat.le_of_eq ends.symm⟩

theorem shorthand_spanning {token : Token} {key name target : Node}
    (names : NamesKey token key name) :
    Gathers (fun state => Took token.start (name :: nodes) state ∧ Fills token target state)
      (finishWith { shorthand := true } .patternProperty [key, target] token)
      fun node => Took token.start [node] := by
  have unnamed : Kind.patternProperty ≠ .shorthandProperty := nofun
  refine (finishWith_arranged unnamed (fun _ both => both.1) ?_ ?_).mono
    fun _ _ finished => finished.2.took
  · exact fun _ _ both begins ends => .shorthand rfl (names.doubled both.1 both.2 begins ends)
  · exact fun _ both => List.forall_mem_cons.mpr ⟨names.nested, both.2.took.nested⟩

/-- The name of a key that is the token it begins with. -/
theorem finish_name {token : Token} {key : Node} (isLeaf : key.isTree = false) :
    Gathers (Fills token key) (finish .binding [key] token)
      fun name state => NamesKey token key name ∧ Fills token name state := by
  have finishes : Gathers (Fills token key) (finish .binding [key] token)
      fun name state => Fills token key state ∧ Finished token [key] name state :=
    finishWith_finished nofun fun _ fills => fills.took
  refine finishes.mono fun name state both => ?_
  obtain ⟨fills, finished⟩ := both
  refine ⟨⟨isLeaf, fills.took.nested key List.mem_cons_self, ?_, ⟨_, fills.former⟩⟩,
    finished.toFills⟩
  rw [finished.former, fills.former]

private theorem patternProperty_spanning (spanning : SpanningRules rules) :
    Spanning (patternProperty rules) := by
  refine .current fun token => .bind (propertyKey_facing spanning) fun key => ?_
  refine .accepted nofun (fun _ isKey => isKey.took.toRead) ?_ (.ite nofun fun _ => ?_)
  · exact .bind (parameter_spanning spanning).adds fun target => finish_spanning nofun
  refine .ite (fun _ => .still fun _ => .of_failAt) fun noTree => ?_
  have isLeaf := Bool.eq_false_iff.mpr noTree
  have fills : ∀ state, KeyFrom token key state → Fills token key state :=
    fun state isKey => isKey.former isLeaf
  -- The name spans the key and a default comes after it, so the target begins where the key does.
  refine .bind ((finish_name isLeaf).from_state fills) fun name => .from_fact fun names => ?_
  refine .accepted nofun (fun _ fills => fills.took.toRead) ?_ ?_
  · have finishes : ∀ default, Gathers (Took token.start [name, default])
        (finish .assignPattern [name, default] token)
        fun target state => Took token.start [name, default] state ∧
          Finished token [name, default] target state :=
      fun default => finishWith_finished nofun fun _ => id
    refine .bind spanning.assignment.adds fun default => .bind (finishes default) fun target => ?_
    exact (shorthand_spanning names).from_state fun _ both => ⟨both.1, both.2.toFills⟩
  · exact (shorthand_spanning names).from_state fun _ fills => ⟨fills.took, fills⟩

private theorem objectPattern_spanning (spanning : SpanningRules rules) :
    Spanning (objectPattern rules) := by
  have item : Spanning (do
      let first ← current
      if ← accept .ellipsis then restElement rules first else patternProperty rules) :=
    .opening fun first => .accepted nofun (fun _ => id) (restElement_spanning spanning)
      (patternProperty_spanning spanning _)
  refine .expect nofun fun token => .bind item.commaList.allowingIn fun properties => ?_
  exact .after fun _ => finish_spanning nofun

theorem bindingTarget_spanning (spanning : SpanningRules rules) :
    Spanning (bindingTarget rules) := by
  refine .current fun token => ?_
  split
  case h_1 => exact (arrayPattern_spanning spanning).facing
  case h_2 => exact (objectPattern_spanning spanning).facing
  case h_3 is | h_4 is | h_5 is | h_6 is =>
    exact .take_facing (is ▸ nofun) bindingOf_spanning
  case h_7 => exact .of_failAt

theorem parameters_spanning (spanning : SpanningRules rules) : Spanning (parameters rules) := by
  refine .expect nofun fun token => ?_
  refine .bind (parameter_spanning spanning).commaList.allowingIn fun items => ?_
  exact .after fun _ => finish_spanning nofun

/-! ### Functions, methods and classes -/

theorem block_spanning (spanning : SpanningRules rules) : Spanning (block rules) := by
  refine .expect nofun fun token => .bind spanning.statement.repeatWhile fun statements => ?_
  exact .after fun _ => finish_spanning nofun

theorem functionBody_spanning (spanning : SpanningRules rules) : Spanning (functionBody rules) :=
  (block_spanning spanning).allowingIn

/-- A name is taken, or there is none. -/
theorem definedName_adds {types : List TokenType} (without : types.contains .endOfInput = false)
    {required : Bool} {missing : ParseError} :
    Adds start nodes (definedName types required missing) := by
  refine .checked without ?_ (.ite nofun fun _ => ?_)
  · exact (SpanningAhead.advance fun token => bindingOf_spanning).adds
  · exact .ite (fun _ => .still fun _ => .of_failAt) fun _ => absent_adds

theorem function_spanning (spanning : SpanningRules rules) {kind : Kind} {nameRequired : Bool}
    (unnamed : kind ≠ .shorthandProperty) : Spanning (function rules kind nameRequired) := by
  refine .opening fun token => .after fun isAsync => .optionally ?_
  refine .expectOr nofun fun word => .past (.after fun isGenerator => ?_)
  refine .bind (definedName_adds rfl) fun name => ?_
  refine .bind (parameters_spanning spanning).adds fun params => ?_
  exact .bind (functionBody_spanning spanning).adds fun body => finishWith_spanning unnamed

theorem methodAfter_spanning (spanning : SpanningRules rules) {token : Token} {key : Node}
    {mods : Modifiers} {isStatic : Bool} :
    Closes token [key] (methodAfter rules token key mods isStatic) := by
  refine .bind (parameters_spanning spanning).adds fun params => ?_
  exact .bind (functionBody_spanning spanning).adds fun body => finishWith_spanning nofun

private theorem fieldAfter_spanning (spanning : SpanningRules rules) {token : Token} {key : Node}
    {isStatic : Bool} : Closes token [key] (fieldAfter rules token key isStatic) := by
  refine .after fun hasValue => ?_
  refine .either (fun _ => spanning.assignment.adds) (fun _ => absent_adds) fun value => ?_
  exact .after fun _ => finishWith_spanning nofun

theorem keyedMember_spanning (spanning : SpanningRules rules) {token : Token} {isStatic : Bool} :
    Gathers (Read token.start []) (keyedMember rules token isStatic)
      fun node => Took token.start [node] := by
  refine .after fun mods => .bind (propertyKey_spanning spanning).opens fun key => ?_
  refine .after fun isMethod => .ite (fun _ => ?_) fun _ => ?_
  · exact methodAfter_spanning spanning
  · exact fieldAfter_spanning spanning

private theorem classMember_spanning (spanning : SpanningRules rules) : Spanning
    (classMember rules) := by
  refine .opening fun token => .after fun next => .ite (fun _ => ?_) fun _ => ?_
  · refine .after fun word => .after fun isBlock => .ite (fun _ => ?_) fun _ => ?_
    · exact .bind (functionBody_spanning spanning).opens fun body => finish_spanning nofun
    · exact keyedMember_spanning spanning
  · exact keyedMember_spanning spanning

private theorem classBody_spanning (spanning : SpanningRules rules) : Spanning (classBody rules)
    := by
  have adds : ∀ {start : Nat} (members : List (Option Node)),
      Gathers (Took start (members.filterMap id)) (do
        if ← accept .semicolon then return none
        return some (← classMember rules))
      fun member => Took start ((members ++ [member]).filterMap id) := by
    intro start members
    refine .after fun isStray => .ite (fun _ => .of_pure fun _ took => ?_) fun _ => ?_
    · rw [List.filterMap_append]
      simpa using took
    · refine .bind (classMember_spanning spanning).adds fun member => .of_pure fun _ took => ?_
      rw [List.filterMap_append]
      exact took
  refine .expect nofun fun token => ?_
  exact .bind (Gathers.repeatWhile adds []).allowingIn fun members => finish_spanning nofun

theorem classDefinition_spanning (spanning : SpanningRules rules) {kind : Kind}
    {nameRequired : Bool} (unnamed : kind ≠ .shorthandProperty) :
    Spanning (classDefinition rules kind nameRequired) := by
  refine .expect nofun fun token => .bind (definedName_adds rfl) fun name => .after fun isSub => ?_
  refine .either (fun _ => spanning.leftHandSide.adds) (fun _ => absent_adds) fun superclass => ?_
  exact .bind (classBody_spanning spanning).adds fun body => finish_spanning unnamed

/-! ### Chains and primary expressions -/

theorem spreadable_spanning (spanning : SpanningRules rules) : Spanning (spreadable rules) := by
  refine .opening fun token => .accepted nofun (fun _ => id) ?_ (spanning.assignment _)
  exact .bind spanning.assignment.adds fun value => finish_spanning nofun

theorem arguments_spanning (spanning : SpanningRules rules) : Spanning (arguments rules) := by
  refine .expect nofun fun token => ?_
  refine .bind (spreadable_spanning spanning).commaList.allowingIn fun items => ?_
  exact .after fun _ => finish_spanning nofun

private theorem templateParts_adds (spanning : SpanningRules rules) (budget : Nat) :
    Gathers (Took start nodes) (templateParts rules budget)
      fun parts => Took start (nodes ++ parts) := by
  induction budget generalizing nodes with
  | zero => exact .of_throw
  | succ budget induction =>
      refine .bind spanning.expression.adds.allowingIn fun value => ?_
      refine .checked rfl ?_ (.ite nofun fun _ => ?_)
      · refine .advance (fun _ took => took.toRead) fun piece => .leaf .templateChunk ?_
        refine .bind induction fun rest => .of_pure fun _ took => ?_
        simpa using took
      · refine .took (.expectOr nofun fun tail => .leaf .templateChunk (.of_pure fun _ took => ?_))
        simpa using took

theorem template_spanning (spanning : SpanningRules rules) : Spanning (template rules) := by
  refine .opening fun token => .checked rfl ?_ (.ite nofun fun _ => ?_)
  · exact .advance (fun _ => id) fun piece => .leaf .templateChunk (finish_spanning nofun)
  · refine .expectOr nofun fun head => .leaf .templateChunk (.after fun state => ?_)
    exact .bind (templateParts_adds spanning state.budget) fun parts => finish_spanning nofun

theorem propertyName_takes {optional : Bool} :
    Gathers (Took start nodes) (propertyName optional) (TookToken start nodes) := by
  refine .current fun token => .ite (fun isName => ?_) fun _ => .of_failAt
  have proper : token.type ≠ .endOfInput := by
    intro isEnd
    rw [isEnd] at isName
    cases isName
  intro state name left facing ran
  exact took_of_advance ((ahead_of_facing proper state facing).imp Took.toRead) ran

theorem bracketed_spanning (spanning : SpanningRules rules) : Spanning (bracketed rules) :=
  fun _ => .bind spanning.expression.opens.allowingIn fun _ => .after fun _ => .of_pure fun _ => id

private theorem chainLink?_spanning (spanning : SpanningRules rules) {allowCall : Bool} {token
    : Token}
    {object : Node} :
    Gathers (Took token.start [object]) (chainLink? rules allowCall token object)
      fun link => Took token.start [link.getD object] := by
  have finished : ∀ {kind flags} {part : Node}, kind ≠ .shorthandProperty →
      Gathers (Took token.start [object, part])
        (do return some (← finishWith flags kind [object, part] token))
        fun link => Took token.start [link.getD object] :=
    fun unnamed => .bind (finishWith_spanning unnamed) fun _ => .of_pure fun _ => id
  refine .after fun next => ?_
  split
  case h_1 =>
    exact .after fun _ => .bind propertyName_takes fun name => .leaf _ (finished nofun)
  case h_2 =>
    refine .after fun dot => .after fun isCall => .ite (fun _ => ?_) fun _ => ?_
    · exact .bind (arguments_spanning spanning).adds fun args => finished nofun
    refine .after fun isSubscript => .ite (fun _ => ?_) fun _ => ?_
    · exact .bind (bracketed_spanning spanning).adds fun index => finished nofun
    · exact .bind propertyName_takes fun name => .leaf _ (finished nofun)
  case h_3 =>
    exact .after fun bracket => .bind (bracketed_spanning spanning).adds fun index => finished nofun
  case h_4 =>
    refine .ite (fun _ => ?_) fun _ => .of_pure fun _ => id
    exact .bind (arguments_spanning spanning).adds fun args => finished nofun
  case h_5 | h_6 =>
    exact .bind (template_spanning spanning).adds fun quasi => finished nofun
  case h_7 => exact .of_pure fun _ => id

theorem chain_spanning (spanning : SpanningRules rules) {allowCall : Bool} {token : Token}
    {object : Node} :
    Closes token [object] (chain rules allowCall token object) := by
  refine .after fun state => ?_
  generalize state.budget = budget
  induction budget generalizing object with
  | zero => exact .of_throw
  | succ budget induction =>
      refine .bind (chainLink?_spanning spanning) fun link => ?_
      cases link with
      | none => exact .of_pure fun _ => id
      | some longer => exact induction

theorem metaProperty_spanning {token : Token} {word : String} :
    Closes token [] (metaProperty token word) := by
  refine .took (.expectOr nofun fun property => .past ?_)
  have unnamed : Kind.metaProperty ≠ .shorthandProperty := nofun
  refine (finishWith_arranged unnamed (fun _ => id) ?_ ?_).mono fun _ _ finished => finished.2.took
  · intro state span took begins ends
    refine .words ?_
    rw [begins]
    rfl
  · exact fun _ _ => List.forall_mem_singleton.mpr .leaf

theorem arrayLiteral_spanning (spanning : SpanningRules rules) : Spanning (arrayLiteral rules) := by
  refine .expect nofun fun token => ?_
  refine .bind (spreadable_spanning spanning).holedList.allowingIn fun elements => ?_
  exact .after fun _ => finish_spanning nofun

/-- The modifiers of a member without any. -/
def Modifiers.Plain (mods : Modifiers) : Prop :=
  mods.methodKind = "method" ∧ mods.isAsync = false ∧ mods.isGenerator = false

theorem toString_of_isNamed {token : Token} {name : String} (isNamed : token.isNamed name = true) :
    token.text.toString = (Text.ofString name).toString := by
  rw [Token.isNamed, Bool.and_eq_true] at isNamed
  exact congrArg Text.toString (beq_iff_eq.mp isNamed.2)

/-- An accessor is a modifier. -/
theorem toString_ne_method {token : Token}
    (isAccessor : (token.isNamed "get" || token.isNamed "set") = true) :
    token.text.toString ≠ "method" := by
  rcases Bool.or_eq_true_iff.mp isAccessor with isGet | isSet
  · rw [toString_of_isNamed isGet]
    decide
  · rw [toString_of_isNamed isSet]
    decide

/-- Without modifiers no token is taken. -/
theorem modifiers_facing {token : Token} :
    Gathers (Facing token (Read token.start [])) modifiers fun mods state =>
      Read token.start [] state ∧ (mods.Plain → Facing token (Read token.start []) state) := by
  refine .current_facing (.still fun next => .ite (fun isWord => ?_) fun _ => ?_)
  · refine .unfaced (.after fun word => .after fun isGenerator => .of_pure fun _ read => ⟨read, ?_⟩)
    intro plain
    obtain ⟨isMethod, notAsync, _⟩ := plain
    dsimp only at isMethod notAsync
    rw [notAsync, Bool.false_or] at isWord
    rw [if_pos isWord] at isMethod
    exact absurd isMethod (toString_ne_method (Bool.and_eq_true_iff.mp isWord).1)
  · refine .accepted nofun (fun _ facing => facing.1) (.of_pure fun _ took => ⟨took.toRead, ?_⟩) ?_
    · exact fun plain => nomatch plain.2.2
    · exact .of_pure fun _ facing => ⟨facing.1, fun _ => facing⟩

/-- A key after modifiers, which is the token that the member begins with if there are none and it
is no tree. -/
structure MemberKey (token : Token) (mods : Modifiers) (key : Node) (state : State) : Prop where
  took : Took token.start [key] state
  former : mods.Plain → key.isTree = false → Fills token key state

private theorem memberKey_gathers (spanning : SpanningRules rules) {token : Token} {mods
    : Modifiers} :
    Gathers (fun state => Read token.start [] state ∧
        (mods.Plain → Facing token (Read token.start []) state))
      (propertyKey rules) (MemberKey token mods) := by
  intro state key left isGiven ran
  refine ⟨propertyKey_spanning spanning _ state key left isGiven.1 ran, fun plain => ?_⟩
  exact (propertyKey_facing spanning state key left (isGiven.2 plain) ran).former

/-- A property that is a name only. -/
theorem shorthandProperty_spanning {token : Token} {key : Node} (isLeaf : key.isTree = false) :
    Gathers (Fills token key) (do
      let ident ← finish .ident [key] token
      finish .shorthandProperty [ident] token) fun node => Took token.start [node] := by
  have finishes : Gathers (Fills token key) (finish .ident [key] token)
      fun ident state => Fills token key state ∧ Finished token [key] ident state :=
    finishWith_finished nofun fun _ fills => fills.took
  refine .bind finishes fun ident => ?_
  refine (finishWith_nested (fun _ both => both.2.took) ?_).mono fun _ _ finished => finished.2.took
  intro state span both begins ends
  obtain ⟨fills, finished⟩ := both
  have isKey : ident.child 0 = key := by
    rw [Node.child, finished.children]
    rfl
  have isName : ident.IsName := by
    refine ⟨?_, ?_, ?_⟩
    · rintro rfl
      cases finished.former
    · rw [isKey, fills.former, finished.former]
    · rw [isKey]
      exact isLeaf
  refine .readName ?_ isName (finished.took.nested ident List.mem_cons_self)
  rw [begins, ends]
  exact finished.took.laid

private theorem objectMember_spanning (spanning : SpanningRules rules) : Spanning
    (objectMember rules) := by
  refine .current fun token => ?_
  refine .accepted nofun (fun _ facing => facing.1) ?_ (.ite nofun fun _ => ?_)
  · exact .bind spanning.assignment.adds fun value => finish_spanning nofun
  refine .bind modifiers_facing fun mods => .bind (memberKey_gathers spanning) fun key => ?_
  refine .still fun isCall => .ite (fun _ => ?_) fun notMethod => ?_
  · exact (methodAfter_spanning spanning).from_state fun _ isKey => isKey.took
  have plain : mods.Plain := by
    simp only [Bool.or_eq_true, not_or, bne_iff_ne, not_not, Bool.not_eq_true] at notMethod
    exact ⟨notMethod.1.1.2, notMethod.1.2, notMethod.2⟩
  refine .accepted nofun (fun _ isKey => isKey.took.toRead) ?_ (.ite nofun fun _ => ?_)
  · exact .bind spanning.assignment.adds fun value => finish_spanning nofun
  split
  · exact (shorthandProperty_spanning rfl).from_state fun _ isKey => isKey.former plain rfl
  · exact .still fun _ => .of_failAt

private theorem objectLiteral_spanning (spanning : SpanningRules rules) :
    Spanning (objectLiteral rules) := by
  refine .expect nofun fun token => ?_
  refine .bind (objectMember_spanning spanning).commaList.allowingIn fun members => ?_
  exact .after fun _ => finish_spanning nofun

private theorem importExpression_spanning (spanning : SpanningRules rules) :
    SpanningAhead (importExpression rules) := by
  refine .advance fun token => .past (.after fun isMeta => .ite (fun _ => ?_) fun _ => ?_)
  · exact metaProperty_spanning
  refine .after fun bracket => .bind spanning.assignment.adds.allowingIn fun argument => ?_
  exact .after fun _ => finish_spanning nofun

private theorem parenthesized_spanning (spanning : SpanningRules rules) :
    SpanningAhead (parenthesized rules) := by
  refine .advance fun token => .past (.bind spanning.expression.adds.allowingIn fun inner => ?_)
  exact .after fun _ => finish_spanning nofun

private theorem primary_spanning (spanning : SpanningRules rules) : Spanning (primary rules) := by
  refine .current fun token => ?_
  split
  case h_1 is | h_2 is | h_3 is | h_4 is | h_5 is | h_6 is | h_7 is =>
    exact .take_facing (is ▸ nofun) (.leaf _ (finish_spanning nofun))
  case h_8 | h_9 => exact (template_spanning spanning).facing
  case h_10 is | h_11 is => exact .take_facing (is ▸ nofun) (.past (finish_spanning nofun))
  case h_12 => exact Spanning.facing (function_spanning spanning nofun)
  case h_13 => exact Spanning.facing (classDefinition_spanning spanning nofun)
  case h_14 is => exact (parenthesized_spanning spanning).facing (is ▸ nofun)
  case h_15 => exact (arrayLiteral_spanning spanning).facing
  case h_16 => exact (objectLiteral_spanning spanning).facing
  case h_17 is => exact (importExpression_spanning spanning).facing (is ▸ nofun)
  case h_18 is =>
    refine .still fun isFunction => .ite (fun _ => ?_) fun _ => ?_
    · exact Spanning.facing (function_spanning spanning nofun)
    · exact .take_facing (is ▸ nofun) (.leaf _ (finish_spanning nofun))
  case h_19 is | h_20 is | h_21 is =>
    exact .take_facing (is ▸ nofun) (.leaf _ (finish_spanning nofun))
  case h_22 | h_23 => exact .of_failAt

private theorem chainHead_spanning (spanning : SpanningRules rules) : Spanning (chainHead rules)
    := by
  refine fun start => .after fun isNew => ?_
  exact .ite (fun _ => spanning.construction start) fun _ => primary_spanning spanning start

/-- A chain from the token on that its head begins with. -/
theorem chained_spanning (spanning : SpanningRules rules) {allowCall : Bool} :
    Spanning (do
      let token ← current
      chain rules allowCall token (← chainHead rules)) :=
  .opening fun _ => .bind (chainHead_spanning spanning).opens fun _ => chain_spanning spanning

theorem construction_spanning (spanning : SpanningRules rules) : Spanning (construction rules) := by
  refine .expect nofun fun token => .after fun isMeta => ?_
  refine .ite (fun _ => metaProperty_spanning) fun _ => ?_
  have ends : ∀ callee, Closes token [callee] (do
      let args ← if ← check [.openParen] then arguments rules else pure .absent
      finish .newExpr [callee, args] token) := by
    refine fun callee => .after fun hasArguments => ?_
    exact .either (fun _ => (arguments_spanning spanning).adds) (fun _ => absent_adds)
      fun args => finish_spanning nofun
  -- The callee is a chain from a token of its own, so it is read as one reader.
  have callee : Closes token [] (do
      let token ← current
      chain rules false token (← chainHead rules)) :=
    (chained_spanning spanning).adds
  simpa only [bind_assoc] using Gathers.bind callee ends

theorem leftHandSide_spanning (spanning : SpanningRules rules) : Spanning (leftHandSide rules) :=
  chained_spanning spanning

/-! ### Operators -/

theorem prefixed_spanning (spanning : SpanningRules rules) {kind : Kind} {withOp : Bool}
    (unnamed : kind ≠ .shorthandProperty) : SpanningAhead (prefixed rules kind withOp) := by
  refine .advance fun token => ?_
  cases withOp with
  | true => exact .leaf .op (.bind spanning.unary.adds fun operand => finish_spanning unnamed)
  | false => exact .past (.bind spanning.unary.adds fun operand => finish_spanning unnamed)

theorem unary_spanning (spanning : SpanningRules rules) : Spanning (unary rules) := by
  refine .current fun token => ?_
  have marked : ∀ {kind : Kind} {withOp : Bool}, kind ≠ .shorthandProperty →
      token.type ≠ .endOfInput → SpansFrom token (prefixed rules kind withOp) :=
    fun unnamed => (prefixed_spanning spanning unnamed).facing
  refine .ite (fun isUnary => marked nofun (proper_of isUnary rfl)) fun _ => ?_
  refine .ite (fun isUpdate => marked nofun ?_) fun _ => ?_
  · rcases isUpdate with is | is <;> exact is ▸ nofun
  refine .ite (fun isAwait => marked nofun (isAwait ▸ nofun)) fun _ => .unfaced ?_
  refine .bind spanning.leftHandSide.opens fun operand => .checked rfl ?_ ?_
  · refine .still fun next => .ite (fun _ => ?_) fun _ => .of_pure fun _ ahead => ahead.1
    exact .advance (fun _ took => took.toRead) fun op => .leaf .op (finish_spanning nofun)
  · exact .still fun next => .of_pure fun _ => id

/-- A binary operator is the token ahead. -/
theorem operator?_facing {given : State → Prop} {least : Nat} :
    Gathers given (operator? least) fun operator state => given state ∧
      ∀ op precedence, operator = some (op, precedence) →
        op.type ≠ .endOfInput ∧ Facing op given state := by
  refine .current fun token => .still fun state => .of_pure fun _ facing => ⟨facing.1, ?_⟩
  intro op precedence isOp
  split at isOp
  case h_1 found =>
    split at isOp
    case isTrue => cases isOp
    case isFalse =>
      cases isOp
      refine ⟨fun isEnd => ?_, facing⟩
      rw [isEnd] at found
      cases found
  case h_2 => cases isOp

private theorem climb_spanning (spanning : SpanningRules rules) {least : Nat} {token : Token}
    (budget : Nat) {left : Node} : Closes token [left] (climb rules least token budget left) := by
  induction budget generalizing left with
  | zero => exact .of_throw
  | succ budget induction =>
      refine .bind operator?_facing fun operator => ?_
      cases operator with
      | none => exact .of_pure fun _ is => is.1
      | some found =>
          obtain ⟨op, precedence⟩ := found
          refine Gathers.from_state (.from_fact fun proper => ?_) fun _ is => is.2 op precedence rfl
          refine .advance_facing (fun _ took => took.toRead) proper (.leaf .op ?_)
          refine .bind (spanning.binary _).adds fun right => ?_
          refine .bind (finish_spanning ?_) fun joined => induction
          split <;> exact nofun

theorem binary_spanning (spanning : SpanningRules rules) (least : Nat) :
    Spanning (binary rules least) := by
  refine .opening fun token => .bind spanning.unary.opens fun left => ?_
  exact .after fun state => climb_spanning spanning state.budget

private theorem conditional_spanning (spanning : SpanningRules rules) : Spanning
    (conditional rules) := by
  refine .opening fun token => .bind (spanning.binary 1).opens fun test => ?_
  refine .after fun isConditional => .ite (fun _ => ?_) fun _ => .of_pure fun _ => id
  refine .bind spanning.assignment.adds.allowingIn fun consequent => .after fun colon => ?_
  exact .bind spanning.assignment.adds fun alternate => finish_spanning nofun

/-! ### Assignments -/

theorem yieldExpression_spanning (spanning : SpanningRules rules) :
    Spanning (yieldExpression rules) := by
  refine .expect nofun fun token => .after fun delegate => .after fun next => ?_
  refine .either (fun _ => absent_adds) (fun _ => spanning.assignment.adds) fun value => ?_
  exact finishWith_spanning nofun

private theorem arrowParameters_spanning (spanning : SpanningRules rules) :
    Spanning (arrowParameters rules) := by
  refine fun start => .checked rfl ?_ (.ite nofun fun _ => parameters_spanning spanning start)
  refine SpanningAhead.advance (fun token => .bind bindingOf_spanning fun name => ?_) start
  exact finish_spanning nofun

private theorem arrowFunction_spanning (spanning : SpanningRules rules) :
    Spanning (arrowFunction rules) := by
  refine .opening fun token => .after fun next => .after fun isNamed => .optionally ?_
  refine .bind (arrowParameters_spanning spanning).opens fun params => .after fun arrow => ?_
  refine .after fun isBlock => ?_
  refine .either (fun _ => (functionBody_spanning spanning).adds)
    (fun _ => spanning.assignment.adds) fun body => ?_
  exact finishWith_spanning nofun

theorem assignment_spanning (spanning : SpanningRules rules) : Spanning (assignment rules) := by
  refine .opening fun token => .ite (fun _ => yieldExpression_spanning spanning _) fun _ => ?_
  refine .after fun isArrow => .ite (fun _ => arrowFunction_spanning spanning _) fun _ => ?_
  refine .bind (conditional_spanning spanning).opens fun left => .current fun op => ?_
  refine .ite (fun isAssignment => ?_) fun _ => .of_pure fun _ facing => facing.1
  refine .advance_facing (fun _ took => took.toRead) (proper_of isAssignment rfl) ?_
  refine .leaf .assignOp (.either (fun _ => asTarget_replaces) (fun _ => .of_pure fun _ => id)
    fun target => ?_)
  exact .bind spanning.assignment.adds fun value => finish_spanning nofun

theorem expression_spanning (spanning : SpanningRules rules) : Spanning (expression rules) := by
  refine .opening fun token => .bind spanning.assignment.commaItems fun items => ?_
  split
  · exact .of_pure fun _ => id
  · exact finish_spanning nofun

end Grammar

end ScriptFold
